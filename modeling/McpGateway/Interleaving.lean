import Mathlib

/-!
# Interleavings of two programs

A trace carries the elements of two programs, each in its own order, with the
program they come from. What a fold makes of a trace depends on the elements
it reacts to alone, and these interleave the elements of the two programs that
it reacts to.
-/

namespace McpGateway.Interleaving

variable {α β : Type*}

/-- One of two programs. -/
inductive Side where
  /-- The program that begins. -/
  | first
  /-- The other one. -/
  | second
  deriving DecidableEq

/-- The trace interleaves the two programs. -/
inductive Interleaves : List α→List α→List (Side×α)→Prop where
  /-- Nothing happens. -/
  | nil : Interleaves [] [] []
  /-- The first program moves. -/
  | first {l r : List α} {t : List (Side×α)} (a : α) (rest : Interleaves l r t) :
    Interleaves (a::l) r ((.first,a)::t)
  /-- The second program moves. -/
  | second {l r : List α} {t : List (Side×α)} (a : α) (rest : Interleaves l r t) :
    Interleaves l (a::r) ((.second,a)::t)

/-- The elements of a trace that meet a condition, with their programs. -/
def relevant (p : α→Bool) (t : List (Side×α)) : List (Side×α) := t.filter (fun e => p e.2)

/-- The program of the last element that meets a condition. -/
def lastSide (p : α→Bool) (t : List (Side×α)) : Option Side :=
  (relevant p t).getLast?.map Prod.fst

/-- One more move of the first program at the end. -/
theorem Interleaves.snoc_first {l r : List α} {t : List (Side×α)} (h : Interleaves l r t)
    (a : α) : Interleaves (l++[a]) r (t++[(.first,a)]) := by
  induction h with
  | nil => exact .first a .nil
  | first b rest ih => exact .first b ih
  | second b rest ih => exact .second b ih

/-- One more move of the second program at the end. -/
theorem Interleaves.snoc_second {l r : List α} {t : List (Side×α)} (h : Interleaves l r t)
    (a : α) : Interleaves l (r++[a]) (t++[(.second,a)]) := by
  induction h with
  | nil => exact .second a .nil
  | first b rest ih => exact .first b ih
  | second b rest ih => exact .second b ih

/-- The first program may move alone before an interleaving. -/
theorem Interleaves.prepend {l r : List α} {t : List (Side×α)} (h : Interleaves l r t)
    (done : List α) : Interleaves (done++l) r (done.map (fun a => (Side.first,a))++t) := by
  induction done with
  | nil => exact h
  | cons a rest ih => exact .first a ih

/-- A trace without moves of the second program is the first program. -/
theorem Interleaves.first_only {l : List α} {t : List (Side×α)} (h : Interleaves l [] t) :
    t.map Prod.snd=l := by
  generalize hr : ([] : List α)=r at h
  induction h with
  | nil => rfl
  | first b rest ih => rw [List.map_cons,ih hr]
  | second b rest ih => cases hr

/-- A trace without moves of the first program is the second program. -/
theorem Interleaves.second_only {r : List α} {t : List (Side×α)} (h : Interleaves [] r t) :
    t.map Prod.snd=r := by
  generalize hl : ([] : List α)=l at h
  induction h with
  | nil => rfl
  | first b rest ih => cases hl
  | second b rest ih => rw [List.map_cons,ih hl]

/-- A last move of the first program is its last element. -/
theorem Interleaves.unsnoc_first {l r : List α} {t : List (Side×α)} {a : α}
    (h : Interleaves l r (t++[(.first,a)])) : ∃ before, l=before++[a] ∧ Interleaves before r t := by
  induction t generalizing l r with
  | nil =>
    cases h with
    | first _ rest =>
      cases rest with
      | nil => exact ⟨[],rfl,.nil⟩
  | cons head tail ih =>
    cases h with
    | first b rest =>
      obtain ⟨before,rfl,hbefore⟩ := ih rest
      exact ⟨b::before,rfl,.first b hbefore⟩
    | second b rest =>
      obtain ⟨before,rfl,hbefore⟩ := ih rest
      exact ⟨before,rfl,.second b hbefore⟩

/-- A last move of the second program is its last element. -/
theorem Interleaves.unsnoc_second {l r : List α} {t : List (Side×α)} {a : α}
    (h : Interleaves l r (t++[(.second,a)])) :
    ∃ before, r=before++[a] ∧ Interleaves l before t := by
  induction t generalizing l r with
  | nil =>
    cases h with
    | second _ rest =>
      cases rest with
      | nil => exact ⟨[],rfl,.nil⟩
  | cons head tail ih =>
    cases h with
    | first b rest =>
      obtain ⟨before,rfl,hbefore⟩ := ih rest
      exact ⟨before,rfl,.first b hbefore⟩
    | second b rest =>
      obtain ⟨before,rfl,hbefore⟩ := ih rest
      exact ⟨b::before,rfl,.second b hbefore⟩

/-- The last move of two programs is the last element of one of them. -/
theorem Interleaves.snoc_cases {l r : List α} {a b : α} {t : List (Side×α)}
    (h : Interleaves (l++[a]) (r++[b]) t) :
    (∃ before, t=before++[(.first,a)] ∧ Interleaves l (r++[b]) before) ∨
      ∃ before, t=before++[(.second,b)] ∧ Interleaves (l++[a]) r before := by
  rcases List.eq_nil_or_concat t with rfl | ⟨before,⟨side,c⟩,rfl⟩
  · generalize hl : l++[a]=left at h
    generalize hr : r++[b]=right at h
    cases h with
    | nil => exact absurd hl (List.append_ne_nil_of_right_ne_nil l (List.cons_ne_nil a []))
  · rw [List.concat_eq_append] at h ⊢
    cases side with
    | first =>
      obtain ⟨shorter,hshorter,hbefore⟩ := h.unsnoc_first
      obtain ⟨rfl,hlast⟩ := List.append_inj' hshorter rfl
      cases hlast
      exact Or.inl ⟨before,rfl,hbefore⟩
    | second =>
      obtain ⟨shorter,hshorter,hbefore⟩ := h.unsnoc_second
      obtain ⟨rfl,hlast⟩ := List.append_inj' hshorter rfl
      cases hlast
      exact Or.inr ⟨before,rfl,hbefore⟩

/-- When the last element of either program decides the value, the program that
moves last decides it. -/
theorem Interleaves.last_decides {f : β→α→β} {l r : List α} {a b : α} {t : List (Side×α)}
    (h : Interleaves (l++[a]) (r++[b]) t) {x y : β} (ha : ∀ e, f e a=x) (hb : ∀ e, f e b=y)
    (e : β) :
    (t.map Prod.snd).foldl f e=if t.getLast?.map Prod.fst=some .second then y else x := by
  rcases h.snoc_cases with ⟨before,rfl,-⟩ | ⟨before,rfl,-⟩
  · rw [List.map_append,List.foldl_append,List.getLast?_concat]
    exact ha _
  · rw [List.map_append,List.foldl_append,List.getLast?_concat]
    exact hb _

theorem relevant_cons_pos {p : α→Bool} {a : α} (h : p a=true) (side : Side)
    (t : List (Side×α)) : relevant p ((side,a)::t)=(side,a)::relevant p t :=
  List.filter_cons_of_pos h

theorem relevant_cons_neg {p : α→Bool} {a : α} (h : p a=false) (side : Side)
    (t : List (Side×α)) : relevant p ((side,a)::t)=relevant p t :=
  List.filter_cons_of_neg (by simp [h])

/-- The relevant elements interleave those of the two programs. -/
theorem Interleaves.relevant {l r : List α} {t : List (Side×α)} (h : Interleaves l r t)
    (p : α→Bool) : Interleaves (l.filter p) (r.filter p) (relevant p t) := by
  induction h with
  | nil => exact .nil
  | first a rest ih =>
    cases ha : p a with
    | true =>
      rw [List.filter_cons_of_pos ha,relevant_cons_pos ha]
      exact .first a ih
    | false =>
      rw [List.filter_cons_of_neg (by simp [ha]),relevant_cons_neg ha]
      exact ih
  | second a rest ih =>
    cases ha : p a with
    | true =>
      rw [List.filter_cons_of_pos ha,relevant_cons_pos ha]
      exact .second a ih
    | false =>
      rw [List.filter_cons_of_neg (by simp [ha]),relevant_cons_neg ha]
      exact ih

/-- A fold that ignores some elements depends on the others alone. -/
theorem foldl_relevant {f : β→α→β} {p : α→Bool} (hf : ∀ b a, p a=false→f b a=b) (b : β)
    (l : List α) : l.foldl f b=(l.filter p).foldl f b := by
  induction l generalizing b with
  | nil => rfl
  | cons a rest ih =>
    rw [List.foldl_cons]
    cases ha : p a with
    | true =>
      rw [List.filter_cons_of_pos ha,List.foldl_cons]
      exact ih _
    | false =>
      rw [List.filter_cons_of_neg (by simp [ha]),hf b a ha]
      exact ih _

/-- The elements of the relevant part are the relevant elements. -/
theorem relevant_map (p : α→Bool) (t : List (Side×α)) :
    (relevant p t).map Prod.snd=(t.map Prod.snd).filter p := by
  rw [List.filter_map]
  rfl

end McpGateway.Interleaving
