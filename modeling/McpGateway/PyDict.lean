import Mathlib

/-!
# Insertion-ordered dictionaries

A Python `dict` is an association list whose keys are distinct. Assigning an
existing key keeps its position, a new key goes to the end, and iteration
follows that order. Distinctness is a field, so no operation can build a
dictionary with two entries under one key.
-/

namespace McpGateway.PyDict

/-- Ordered entries whose keys are pairwise distinct. -/
structure Dict (κ ν : Type*) where
  /-- Entries in iteration order. -/
  items : List (κ×ν)
  /-- No key occurs twice. -/
  nodup : (items.map Prod.fst).Nodup

namespace Dict

variable {κ ν : Type*}

/-- The dictionary with no entries. -/
def empty : Dict κ ν := ⟨[],List.nodup_nil⟩

/-- Keys in iteration order. -/
def keys (d : Dict κ ν) : List κ := d.items.map Prod.fst

/-- Values in iteration order. -/
def values (d : Dict κ ν) : List ν := d.items.map Prod.snd

/-- `len(d)`. -/
def size (d : Dict κ ν) : ℕ := d.items.length

/-- Equal entry lists are equal dictionaries. -/
theorem ext_items {d e : Dict κ ν} (h : d.items=e.items) : d=e := by
  cases d
  cases e
  cases h
  rfl

/-- Dictionaries compare by their ordered entries. -/
instance [DecidableEq κ] [DecidableEq ν] : DecidableEq (Dict κ ν) := fun d e =>
  decidable_of_iff (d.items=e.items) ⟨ext_items,fun h => h ▸ rfl⟩

variable [DecidableEq κ]

/-- First value stored under a key of an entry list. -/
def find : List (κ×ν)→κ→Option ν
  | [],_ => none
  | (k,v)::rest,key => if k=key then some v else find rest key

/-- Replace the value of an existing key in place, or append a new entry. -/
def put : List (κ×ν)→κ→ν→List (κ×ν)
  | [],key,value => [(key,value)]
  | (k,v)::rest,key,value => if k=key then (k,value)::rest else (k,v)::put rest key value

theorem find_eq_none {items : List (κ×ν)} {key : κ} :
    find items key=none ↔ key∉items.map Prod.fst := by
  induction items with
  | nil => simp [find]
  | cons entry rest ih =>
    by_cases h : entry.1=key
    · simp [find,h]
    · simp [find,h,ih,Ne.symm h]

theorem find_mem {items : List (κ×ν)} {key : κ} {value : ν} (h : find items key=some value) :
    (key,value)∈items := by
  induction items with
  | nil => simp [find] at h
  | cons entry rest ih =>
    by_cases hk : entry.1=key
    · simp only [find,if_pos hk,Option.some.injEq] at h
      exact List.mem_cons.mpr (Or.inl (Prod.ext hk.symm h.symm))
    · exact List.mem_cons_of_mem _ (ih (by simpa only [find,if_neg hk] using h))

theorem find_of_mem {items : List (κ×ν)} (hn : (items.map Prod.fst).Nodup) {key : κ} {value : ν}
    (h : (key,value)∈items) : find items key=some value := by
  induction items with
  | nil => simp at h
  | cons entry rest ih =>
    obtain ⟨hhead,htail⟩ := List.nodup_cons.mp hn
    rcases List.mem_cons.mp h with he | hr
    · simp [find,←he]
    · have hk : entry.1≠key := by
        intro he
        exact hhead (he ▸ List.mem_map.mpr ⟨_,hr,rfl⟩)
      rw [find,if_neg hk]
      exact ih htail hr

theorem put_keys (items : List (κ×ν)) (key : κ) (value : ν) :
    (put items key value).map Prod.fst=
      if key∈items.map Prod.fst then items.map Prod.fst else items.map Prod.fst++[key] := by
  induction items with
  | nil => simp [put]
  | cons entry rest ih =>
    by_cases h : entry.1=key
    · simp [put,h]
    · simp only [put,if_neg h,List.map_cons,ih,List.mem_cons,Ne.symm h,false_or]
      split <;> rfl

theorem put_nodup {items : List (κ×ν)} (hn : (items.map Prod.fst).Nodup) (key : κ) (value : ν) :
    ((put items key value).map Prod.fst).Nodup := by
  rw [put_keys]
  split
  · exact hn
  · rename_i h
    exact List.nodup_append.mpr ⟨hn,List.nodup_singleton _,by
      intro a ha b hb he
      exact h (by rw [←List.mem_singleton.mp hb,←he]; exact ha)⟩

theorem find_put (items : List (κ×ν)) (key other : κ) (value : ν) :
    find (put items key value) other=if key=other then some value else find items other := by
  induction items with
  | nil => simp [put,find]
  | cons entry rest ih =>
    by_cases h : entry.1=key
    · by_cases ho : key=other
      · simp [put,find,h,ho]
      · simp [put,find,h,ho]
    · rw [put,if_neg h]
      by_cases ho : entry.1=other
      · have hne : key≠other := fun he => h (ho.trans he.symm)
        simp only [find,if_pos ho,if_neg hne]
      · simp only [find,if_neg ho,ih]

/-- `d.get(key)`. -/
def get? (d : Dict κ ν) (key : κ) : Option ν := find d.items key

/-- `d[key] = value`. -/
def set (d : Dict κ ν) (key : κ) (value : ν) : Dict κ ν :=
  ⟨put d.items key value,put_nodup d.nodup key value⟩

/-- `d.pop(key, None)`, keeping the remaining order. -/
def pop (d : Dict κ ν) (key : κ) : Dict κ ν :=
  ⟨d.items.filter (fun entry => decide (entry.1≠key)),
    d.nodup.sublist (List.filter_sublist.map _)⟩

/-- `key in d`. -/
def contains (d : Dict κ ν) (key : κ) : Bool := (d.get? key).isSome

/-- Mutate the object stored under a key, when there is one. -/
def modify (d : Dict κ ν) (key : κ) (f : ν→ν) : Dict κ ν :=
  match d.get? key with
  | some value => d.set key (f value)
  | none => d

/-- A dictionary display: later assignments to one key win. -/
def ofItems (items : List (κ×ν)) : Dict κ ν :=
  items.foldl (fun d entry => d.set entry.1 entry.2) empty

/-- A new key is put at the end. -/
theorem put_absent {items : List (κ×ν)} {key : κ} (h : key∉items.map Prod.fst) (value : ν) :
    put items key value=items++[(key,value)] := by
  induction items with
  | nil => rfl
  | cons entry rest ih =>
    rw [List.map_cons,List.mem_cons,not_or] at h
    rw [put,if_neg (Ne.symm h.1),ih h.2]
    rfl

/-- A display whose keys differ has its items in order. -/
theorem ofItems_items {items : List (κ×ν)} (hn : (items.map Prod.fst).Nodup) :
    (ofItems items).items=items := by
  have hfold : ∀ d : Dict κ ν, (d.items.map Prod.fst++items.map Prod.fst).Nodup→
      (items.foldl (fun d entry => d.set entry.1 entry.2) d).items=d.items++items := by
    clear hn
    induction items with
    | nil => exact fun d _ => (List.append_nil _).symm
    | cons entry rest ih =>
      intro d hd
      have hnew : entry.1∉d.items.map Prod.fst := fun hmem =>
        (List.nodup_append.mp hd).2.2 _ hmem _ List.mem_cons_self rfl
      have hset : (d.set entry.1 entry.2).items=d.items++[entry] := put_absent hnew entry.2
      rw [List.foldl_cons,ih,hset,List.append_assoc]
      · rfl
      · rw [hset,List.map_append,List.append_assoc]
        exact hd
  exact (hfold empty hn).trans (List.nil_append _)

/-- Membership of an entry is its lookup. -/
theorem mem_items_iff {d : Dict κ ν} {key : κ} {value : ν} :
    (key,value)∈d.items ↔ d.get? key=some value := ⟨find_of_mem d.nodup,find_mem⟩

/-- A value is stored exactly under some key. -/
theorem mem_values_iff {d : Dict κ ν} {value : ν} :
    value∈d.values ↔ ∃ key, d.get? key=some value := by
  rw [values,List.mem_map]
  constructor
  · rintro ⟨⟨key,v⟩,hm,rfl⟩
    exact ⟨key,mem_items_iff.mp hm⟩
  · rintro ⟨key,h⟩
    exact ⟨(key,value),mem_items_iff.mpr h,rfl⟩

@[simp] theorem get?_empty (key : κ) : (empty : Dict κ ν).get? key=none := rfl

theorem get?_set (d : Dict κ ν) (key other : κ) (value : ν) :
    (d.set key value).get? other=if key=other then some value else d.get? other :=
  find_put _ _ _ _

@[simp] theorem get?_set_self (d : Dict κ ν) (key : κ) (value : ν) :
    (d.set key value).get? key=some value := by
  rw [get?_set,if_pos rfl]

theorem get?_set_other (d : Dict κ ν) {key other : κ} (h : key≠other) (value : ν) :
    (d.set key value).get? other=d.get? other := by
  rw [get?_set,if_neg h]

/-- Assignments to other keys keep a lookup. -/
theorem get?_foldl_set {key : κ} {items : List (κ×ν)} (h : key∉items.map Prod.fst)
    (d : Dict κ ν) :
    (items.foldl (fun d entry => d.set entry.1 entry.2) d).get? key=d.get? key := by
  induction items generalizing d with
  | nil => rfl
  | cons entry items ih =>
    rw [List.map_cons,List.mem_cons,not_or] at h
    rw [List.foldl_cons,ih h.2,get?_set_other d (Ne.symm h.1)]

@[simp] theorem contains_empty (key : κ) : (empty : Dict κ ν).contains key=false := rfl

/-- Assignment adds exactly its key. -/
theorem contains_set (d : Dict κ ν) (key other : κ) (value : ν) :
    (d.set key value).contains other=true ↔ key=other ∨ d.contains other=true := by
  rw [contains,get?_set]
  by_cases h : key=other
  · simp [h]
  · simp [h,contains]

/-- A key absent after an assignment is another one and was absent before. -/
theorem contains_set_false {d : Dict κ ν} {key other : κ} {value : ν} :
    (d.set key value).contains other=false ↔ key≠other ∧ d.contains other=false := by
  rw [←Bool.not_eq_true,contains_set,not_or,Bool.not_eq_true]

/-- Removal forgets exactly one key. -/
theorem get?_pop (d : Dict κ ν) (key other : κ) :
    (d.pop key).get? other=if key=other then none else d.get? other := by
  by_cases h : key=other
  · rw [if_pos h]
    apply find_eq_none.mpr
    intro hm
    obtain ⟨entry,he,hk⟩ := List.mem_map.mp hm
    have hp := of_decide_eq_true (List.mem_filter.mp he).2
    exact hp (hk.trans h.symm)
  · rw [if_neg h]
    apply Option.ext
    intro value
    rw [←mem_items_iff,←mem_items_iff,pop,List.mem_filter]
    exact and_iff_left (decide_eq_true (Ne.symm h))

/-- In-place mutation changes only the addressed value. -/
theorem get?_modify (d : Dict κ ν) (key other : κ) (f : ν→ν) :
    (d.modify key f).get? other=if key=other then (d.get? key).map f else d.get? other := by
  cases hk : d.get? key with
  | none =>
    simp only [modify,hk,Option.map_none]
    split
    · rename_i he
      rw [←he,hk]
    · rfl
  | some value =>
    simp only [modify,hk,Option.map_some]
    exact get?_set d key other (f value)

/-- Removing an absent key changes nothing. -/
theorem pop_absent {d : Dict κ ν} {key : κ} (h : d.get? key=none) : d.pop key=d := by
  apply ext_items
  refine List.filter_eq_self.mpr fun entry hm => decide_eq_true fun hk => ?_
  have hfound := mem_items_iff.mp (hk ▸ hm : (key,entry.2)∈d.items)
  rw [h] at hfound
  cases hfound

/-- Putting back what is found changes nothing. -/
theorem put_found {items : List (κ×ν)} {key : κ} {value : ν} (h : find items key=some value) :
    put items key value=items := by
  induction items with
  | nil => cases h
  | cons entry rest ih =>
    by_cases hk : entry.1=key
    · rw [find,if_pos hk] at h
      rw [put,if_pos hk,←Option.some.inj h]
    · rw [find,if_neg hk] at h
      rw [put,if_neg hk,ih h]

/-- Mutating the addressed value into itself changes nothing. -/
theorem modify_self {d : Dict κ ν} {key : κ} {f : ν→ν}
    (h : ∀ value, d.get? key=some value→f value=value) : d.modify key f=d := by
  unfold modify
  cases hg : d.get? key with
  | none => rfl
  | some value =>
    dsimp only
    rw [h value hg]
    exact ext_items (put_found hg)

/-- A symmetric relation holds between all values exactly when it relates the
values of any two distinct keys. -/
theorem pairwise_values_iff {R : ν→ν→Prop} (hR : ∀ x y, R x y→R y x) (d : Dict κ ν) :
    d.values.Pairwise R ↔
      ∀ k₁ k₂ v₁ v₂, d.get? k₁=some v₁→d.get? k₂=some v₂→k₁≠k₂→R v₁ v₂ := by
  rw [values,List.pairwise_map]
  constructor
  · intro hp k₁ k₂ v₁ v₂ h₁ h₂ hne
    have hs : Std.Symm (fun a b : κ×ν => R a.2 b.2) := ⟨fun a b h => hR _ _ h⟩
    exact hp.forall (mem_items_iff.mpr h₁) (mem_items_iff.mpr h₂)
      (fun he => hne (congrArg Prod.fst he))
  · intro h
    have hk : d.items.Pairwise (fun a b => a.1≠b.1) := List.pairwise_map.mp d.nodup
    exact hk.imp_of_mem (fun {a b} ha hb hne =>
      h a.1 b.1 a.2 b.2 (mem_items_iff.mp ha) (mem_items_iff.mp hb) hne)

/-- Concatenating a list per value does not notice an assignment exactly when
the assigned value yields what was found under its key. -/
theorem flatMap_set_iff {β : Type*} (f : ν→List β) (d : Dict κ ν) (key : κ) (value : ν) :
    (d.set key value).values.flatMap f=d.values.flatMap f ↔ f value=(d.get? key).elim [] f := by
  obtain ⟨items,hn⟩ := d
  simp only [set,values,get?]
  clear hn
  induction items with
  | nil => simp [put,find]
  | cons entry rest ih =>
    by_cases h : entry.1=key
    · simp [put,find,h]
    · rw [put,find,if_neg h,if_neg h,List.map_cons,List.flatMap_cons,List.map_cons,
        List.flatMap_cons,List.append_right_inj]
      exact ih

/-- Concatenating a list per value does not notice a removal exactly when the
removed value yields nothing. -/
theorem flatMap_pop_iff {β : Type*} (f : ν→List β) (d : Dict κ ν) (key : κ) :
    (d.pop key).values.flatMap f=d.values.flatMap f ↔ (d.get? key).elim [] f=[] := by
  obtain ⟨items,hn⟩ := d
  simp only [pop,values,get?]
  induction items with
  | nil => simp [find]
  | cons entry rest ih =>
    obtain ⟨hhead,htail⟩ := List.nodup_cons.mp hn
    by_cases h : entry.1=key
    · have hrest : rest.filter (fun e => decide (e.1≠key))=rest :=
        List.filter_eq_self.mpr fun e he => decide_eq_true fun hk =>
          hhead (List.mem_map.mpr ⟨e,he,hk.trans h.symm⟩)
      rw [List.filter_cons_of_neg (by simp [h]),hrest,find,if_pos h,List.map_cons,
        List.flatMap_cons,List.self_eq_append_left]
      rfl
    · rw [List.filter_cons_of_pos (by simp [h]),find,if_neg h,List.map_cons,List.flatMap_cons,
        List.map_cons,List.flatMap_cons,List.append_right_inj]
      exact ih htail

/-- An assignment exchanges the measure of what was found under its key for
that of the assigned value. -/
theorem sum_set (f : ν→ℕ) (d : Dict κ ν) (key : κ) (value : ν) :
    ((d.set key value).values.map f).sum+(d.get? key).elim 0 f=(d.values.map f).sum+f value := by
  obtain ⟨items,hn⟩ := d
  simp only [set,values,get?]
  clear hn
  induction items with
  | nil => simp [put,find]
  | cons entry rest ih =>
    by_cases h : entry.1=key
    · simp only [put,find,if_pos h,List.map_cons,List.sum_cons,Option.elim_some]
      omega
    · simp only [put,find,if_neg h,List.map_cons,List.sum_cons] at ih ⊢
      omega

end Dict

end McpGateway.PyDict
