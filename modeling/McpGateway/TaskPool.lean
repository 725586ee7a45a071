import Mathlib

/-!
# One task of a pool

A pool of concurrent tasks is a list, and a scheduler acts on the task at one
index: the task ends, or it is replaced. The lemmas say what either does to
the other tasks, to a selection of the tasks, to a sum over them and to a pool
of counterparts.
-/

namespace McpGateway.TaskPool

variable {α : Type*} {l : List α} {i : ℕ} {a : α}

/-- A pool around the task at an index. -/
theorem around (h : l[i]?=some a) : ∃ before after, l=before++a::after ∧
    (∀ b, l.set i b=before++b::after) ∧ l.eraseIdx i=before++after := by
  obtain ⟨hi,hget⟩ := List.getElem?_eq_some_iff.mp h
  refine ⟨l.take i,l.drop (i+1),?_,fun b => List.set_eq_take_append_cons_drop.trans (if_pos hi),
    List.eraseIdx_eq_take_drop_succ l i⟩
  rw [←hget,List.cons_getElem_drop_succ,List.take_append_drop]

section Members

variable {b c : α}

/-- The other tasks stay when one ends. -/
theorem mem_erase_other (h : l[i]?=some a) (hb : b∈l) : b=a ∨ b∈l.eraseIdx i := by
  obtain ⟨before,after,hl,-,herase⟩ := around h
  rw [hl] at hb
  rw [herase]
  rcases List.mem_append.mp hb with hb | hb
  · exact .inr (List.mem_append_left _ hb)
  · rcases List.mem_cons.mp hb with hb | hb
    · exact .inl hb
    · exact .inr (List.mem_append_right _ hb)

/-- The other tasks stay when one is replaced. -/
theorem mem_set_other (h : l[i]?=some a) (hb : b∈l) : b=a ∨ b∈l.set i c := by
  obtain ⟨before,after,-,hset,herase⟩ := around h
  rcases mem_erase_other h hb with hb | hb
  · exact .inl hb
  · rw [herase] at hb
    rw [hset c]
    rcases List.mem_append.mp hb with hb | hb
    · exact .inr (List.mem_append_left _ hb)
    · exact .inr (List.mem_append_right _ (List.mem_cons_of_mem _ hb))

end Members

section Selections

variable {p : α→Bool} {b c : α}

/-- Replacing a task that is not selected by another such. -/
theorem filter_set_neutral (h : l[i]?=some a) (ha : p a=false) (hb : p b=false) :
    (l.set i b).filter p=l.filter p := by
  obtain ⟨before,after,hl,hset,-⟩ := around h
  rw [hset b,hl,List.filter_append,List.filter_append,
    List.filter_cons_of_neg (by rw [hb]; exact Bool.noConfusion),
    List.filter_cons_of_neg (by rw [ha]; exact Bool.noConfusion)]

/-- The end of a task that is not selected. -/
theorem filter_erase_neutral (h : l[i]?=some a) (ha : p a=false) :
    (l.eraseIdx i).filter p=l.filter p := by
  obtain ⟨before,after,hl,-,herase⟩ := around h
  rw [herase,hl,List.filter_append,List.filter_append,
    List.filter_cons_of_neg (by rw [ha]; exact Bool.noConfusion)]

/-- Replacing a task by the first that is selected. -/
theorem filter_set_first (h : l[i]?=some a) (hnone : l.filter p=[]) (hb : p b=true) :
    (l.set i b).filter p=[b] := by
  obtain ⟨before,after,hl,hset,-⟩ := around h
  rw [hl,List.filter_append,List.append_eq_nil_iff] at hnone
  obtain ⟨hbefore,hafter⟩ := hnone
  have hrest : after.filter p=[] := by
    rw [List.filter_eq_nil_iff] at hafter ⊢
    exact fun c hc => hafter c (List.mem_cons_of_mem _ hc)
  rw [hset b,List.filter_append,hbefore,List.nil_append,List.filter_cons_of_pos hb,hrest]

/-- The only selected task is the one at its index, and the others are not
selected. -/
theorem filter_only (h : l[i]?=some a) (ha : p a=true) (honly : l.filter p=[c]) :
    c=a ∧ (l.eraseIdx i).filter p=[] ∧
      ∀ b, (l.set i b).filter p=if p b=true then [b] else [] := by
  obtain ⟨before,after,hl,hset,herase⟩ := around h
  rw [hl,List.filter_append,List.filter_cons_of_pos ha] at honly
  have hbefore : before.filter p=[] := by
    have hlength := congrArg List.length honly
    rw [List.length_append,List.length_cons,List.length_singleton] at hlength
    exact List.length_eq_zero_iff.mp (by omega)
  rw [hbefore,List.nil_append] at honly
  obtain ⟨rfl,hafter⟩ := List.cons.inj honly
  refine ⟨rfl,?_,fun b => ?_⟩
  · rw [herase,List.filter_append,hbefore,hafter]
    rfl
  · rw [hset b,List.filter_append,hbefore,List.nil_append,List.filter_cons,hafter]

end Selections

section Sums

variable (f : α→ℕ)

/-- A sum over the pool is that of one task and of the others. -/
theorem sum_erase (h : l[i]?=some a) : (l.map f).sum=f a+((l.eraseIdx i).map f).sum := by
  obtain ⟨before,after,hl,-,herase⟩ := around h
  rw [herase,hl,List.map_append,List.map_append,List.map_cons,List.sum_append,List.sum_append,
    List.sum_cons]
  omega

/-- The same after one task is replaced. -/
theorem sum_set (h : l[i]?=some a) (b : α) :
    ((l.set i b).map f).sum=f b+((l.eraseIdx i).map f).sum := by
  obtain ⟨before,after,-,hset,herase⟩ := around h
  rw [herase,hset b,List.map_append,List.map_append,List.map_cons,List.sum_append,List.sum_append,
    List.sum_cons]
  omega

end Sums

section Pairs

variable {β : Type*} {m : List β} {R : α→β→Prop}

/-- What belongs to a task of the second pool. -/
theorem pair_at (h : List.Forall₂ R l m) {b : β} (hb : m[i]?=some b) :
    ∃ a, l[i]?=some a ∧ R a b := by
  induction h generalizing i with
  | nil => cases hb
  | cons hfirst hrest ih =>
    cases i with
    | zero =>
      cases hb
      exact ⟨_,rfl,hfirst⟩
    | succ i => exact ih hb

/-- A task has no counterpart where there is none. -/
theorem pair_none (h : List.Forall₂ R l m) (hb : m[i]?=none) : l[i]?=none := by
  rw [List.getElem?_eq_none_iff] at hb ⊢
  rw [h.length_eq]
  exact hb

/-- Counterparts in one way are counterparts in another. -/
theorem pair_imp {S : α→β→Prop} (h : List.Forall₂ R l m) (himp : ∀ a∈l, ∀ b, R a b→S a b) :
    List.Forall₂ S l m := by
  induction h with
  | nil => exact .nil
  | cons hfirst hrest ih =>
    exact .cons (himp _ List.mem_cons_self _ hfirst)
      (ih (fun a ha => himp a (List.mem_cons_of_mem _ ha)))

/-- Two counterparts end together. -/
theorem pair_erase (h : List.Forall₂ R l m) (i : ℕ) :
    List.Forall₂ R (l.eraseIdx i) (m.eraseIdx i) := by
  induction h generalizing i with
  | nil => exact .nil
  | cons hfirst hrest ih =>
    cases i with
    | zero => exact hrest
    | succ i => exact .cons hfirst (ih i)

end Pairs

end McpGateway.TaskPool
