import Mathlib

/-!
# Maps whose values have deadlines

A value is found under its key up to its deadline. Two maps agree from a moment
on when they answer alike at every later one; writes keep that agreement, and
so does forgetting a value behind its deadline. After a log of operations, of
which some write, a value is found exactly when the last write that affects its
key put it there and its deadline is not over.
-/

namespace McpGateway.TimedMap

variable {κ ν τ α : Type*}

/-- The value of each key with its deadline. -/
abbrev Timed (κ ν τ : Type*) := κ→Option (ν×τ)

/-- Without values. -/
def empty : Timed κ ν τ := fun _ => none

/-- One change of a map. -/
inductive Write (κ ν τ : Type*) where
  /-- A value with its deadline is put under a key. -/
  | put (key : κ) (value : ν) (deadline : τ)
  /-- The value of a key is removed. -/
  | drop (key : κ)
  /-- All values are removed. -/
  | reset

/-- The write decides what is found under the key. -/
def Write.Affects (key : κ) : Write κ ν τ→Prop
  | .put other _ _ => other=key
  | .drop other => other=key
  | .reset => True

section Writes

variable [DecidableEq κ]

/-- The map after a write. -/
def apply (m : Timed κ ν τ) : Write κ ν τ→Timed κ ν τ
  | .put key value deadline => Function.update m key (some (value,deadline))
  | .drop key => Function.update m key none
  | .reset => empty

/-- The map after an operation that may write. -/
def perform (write : α→Option (Write κ ν τ)) (m : Timed κ ν τ) (op : α) : Timed κ ν τ :=
  (write op).elim m (apply m)

/-- The map after a log of operations. -/
def replay (write : α→Option (Write κ ν τ)) (m : Timed κ ν τ) (ops : List α) : Timed κ ν τ :=
  ops.foldl (perform write) m

/-- Other keys keep their values. -/
theorem apply_other (m : Timed κ ν τ) {key : κ} {w : Write κ ν τ} (h : ¬w.Affects key) :
    apply m w key=m key := by
  cases w with
  | put other value deadline => exact Function.update_of_ne (Ne.symm h) _ _
  | drop other => exact Function.update_of_ne (Ne.symm h) _ _
  | reset => exact absurd trivial h

/-- What an affecting write leaves under the key does not depend on the map. -/
theorem apply_affected (m m' : Timed κ ν τ) {key : κ} {w : Write κ ν τ} (h : w.Affects key) :
    apply m w key=apply m' w key := by
  cases w with
  | put other value deadline =>
    obtain rfl : other=key := h
    rw [apply,apply,Function.update_self,Function.update_self]
  | drop other =>
    obtain rfl : other=key := h
    rw [apply,apply,Function.update_self,Function.update_self]
  | reset => rfl

/-- An affecting write leaves a value exactly when it puts it. -/
theorem apply_affected_iff (m : Timed κ ν τ) {key : κ} {w : Write κ ν τ} (h : w.Affects key)
    (value : ν) (deadline : τ) :
    apply m w key=some (value,deadline) ↔ w=.put key value deadline := by
  cases w with
  | put other value' deadline' =>
    obtain rfl : other=key := h
    rw [apply,Function.update_self]
    constructor
    · intro hsame
      cases hsame
      rfl
    · intro hsame
      cases hsame
      rfl
  | drop other =>
    obtain rfl : other=key := h
    rw [apply,Function.update_self]
    exact ⟨fun hsame => (by cases hsame),fun hsame => (by cases hsame)⟩
  | reset => exact ⟨fun hsame => (by cases hsame),fun hsame => (by cases hsame)⟩

/-- Operations that do not affect a key keep its value. -/
theorem replay_other {write : α→Option (Write κ ν τ)} {key : κ} {ops : List α}
    (h : ∀ op∈ops, ∀ w, write op=some w→¬w.Affects key) (m : Timed κ ν τ) :
    replay write m ops key=m key := by
  induction ops generalizing m with
  | nil => rfl
  | cons op ops ih =>
    obtain ⟨hhead,htail⟩ := List.forall_mem_cons.mp h
    have hstep : perform write m op key=m key := by
      unfold perform
      cases hw : write op with
      | none => rfl
      | some w => exact apply_other m (hhead w hw)
    exact (ih htail _).trans hstep

/-- After a log of operations, a key has a value exactly when the last write
that affects it put it there. -/
theorem replay_iff (write : α→Option (Write κ ν τ)) (ops : List α) (key : κ) (value : ν)
    (deadline : τ) :
    replay write empty ops key=some (value,deadline) ↔
      ∃ before op after, ops=before++op::after ∧ write op=some (.put key value deadline) ∧
        ∀ other∈after, ∀ w, write other=some w→¬w.Affects key := by
  constructor
  · intro h
    induction ops using List.reverseRecOn with
    | nil => cases h
    | append_singleton ops op ih =>
      have hlast : replay write empty (ops++[op])=perform write (replay write empty ops) op :=
        List.foldl_concat ..
      rw [hlast,perform] at h
      by_cases haffects : ∃ w, write op=some w ∧ w.Affects key
      · obtain ⟨w,hw,hkey⟩ := haffects
        rw [hw] at h
        have hput := (apply_affected_iff _ hkey value deadline).mp h
        exact ⟨ops,op,[],rfl,hw.trans (congrArg some hput),fun _ hm => absurd hm List.not_mem_nil⟩
      · have hsilent : ∀ w, write op=some w→¬w.Affects key := fun w hw hkey =>
          haffects ⟨w,hw,hkey⟩
        have hkept : replay write empty ops key=some (value,deadline) := by
          rw [←h]
          cases hw : write op with
          | none => rfl
          | some w => exact (apply_other _ (hsilent w hw)).symm
        obtain ⟨before,put,after,rfl,hput,hafter⟩ := ih hkept
        refine ⟨before,put,after++[op],by rw [List.append_assoc,List.cons_append],hput,?_⟩
        exact List.forall_mem_append.mpr ⟨hafter,List.forall_mem_singleton.mpr hsilent⟩
  · rintro ⟨before,op,after,rfl,hput,hafter⟩
    have hsplit : replay write empty (before++op::after)=
        replay write (perform write (replay write empty before) op) after := List.foldl_append
    rw [hsplit,replay_other hafter,perform,hput]
    exact Function.update_self _ _ _

end Writes

section Moments

variable [LinearOrder τ]

/-- The value found under a key at a moment. -/
def lookup (m : Timed κ ν τ) (key : κ) (now : τ) : Option ν :=
  (m key).bind (fun held => if now≤held.2 then some held.1 else none)

/-- The maps answer alike from a moment on. -/
def SameFrom (now : τ) (m m' : Timed κ ν τ) : Prop :=
  ∀ time, now≤time→∀ key, lookup m key time=lookup m' key time

/-- A value is found exactly when its deadline is not over. -/
theorem lookup_iff {m : Timed κ ν τ} {key : κ} {now : τ} {value : ν} :
    lookup m key now=some value ↔ ∃ deadline, m key=some (value,deadline) ∧ now≤deadline := by
  unfold lookup
  rw [Option.bind_eq_some_iff]
  constructor
  · rintro ⟨⟨held,deadline⟩,hm,h⟩
    dsimp only at h
    split at h
    · rename_i hle
      cases h
      exact ⟨deadline,hm,hle⟩
    · cases h
  · rintro ⟨deadline,hm,hle⟩
    exact ⟨(value,deadline),hm,if_pos hle⟩

/-- A map answers like itself. -/
theorem SameFrom.refl (now : τ) (m : Timed κ ν τ) : SameFrom now m m := fun _ _ _ => rfl

/-- Agreement is transitive. -/
theorem SameFrom.trans {now : τ} {m m' m'' : Timed κ ν τ} (h : SameFrom now m m')
    (h' : SameFrom now m' m'') : SameFrom now m m'' :=
  fun time ht key => (h time ht key).trans (h' time ht key)

/-- Agreement is symmetric. -/
theorem SameFrom.symm {now : τ} {m m' : Timed κ ν τ} (h : SameFrom now m m') :
    SameFrom now m' m := fun time ht key => (h time ht key).symm

/-- Maps that agree from a moment on agree from any later one on. -/
theorem SameFrom.later {now time : τ} {m m' : Timed κ ν τ} (h : SameFrom now m m')
    (ht : now≤time) : SameFrom time m m' := fun _ hlater => h _ (ht.trans hlater)

variable [DecidableEq κ]

/-- The same write keeps agreement. -/
theorem SameFrom.apply {now : τ} {m m' : Timed κ ν τ} (h : SameFrom now m m')
    (w : Write κ ν τ) : SameFrom now (apply m w) (apply m' w) := by
  intro time ht key
  by_cases haffects : w.Affects key
  · unfold lookup
    rw [apply_affected m m' haffects]
  · unfold lookup
    rw [apply_other m haffects,apply_other m' haffects]
    exact h time ht key

/-- The same operation keeps agreement. -/
theorem SameFrom.perform {now : τ} {m m' : Timed κ ν τ} (h : SameFrom now m m')
    (write : α→Option (Write κ ν τ)) (op : α) :
    SameFrom now (perform write m op) (perform write m' op) := by
  unfold TimedMap.perform
  cases write op with
  | none => exact h
  | some w => exact h.apply w

/-- A value behind its deadline is not missed. -/
theorem sameFrom_drop {now : τ} {m : Timed κ ν τ} {key : κ} {value : ν} {deadline : τ}
    (hm : m key=some (value,deadline)) (hover : deadline<now) :
    SameFrom now (TimedMap.apply m (.drop key)) m := by
  intro time ht other
  by_cases hkey : key=other
  · subst hkey
    have hgone : lookup m key time=none := by
      unfold lookup
      rw [hm]
      exact if_neg (not_le.mpr (hover.trans_le ht))
    rw [hgone]
    unfold lookup
    rw [TimedMap.apply,Function.update_self]
    rfl
  · unfold lookup
    rw [apply_other m (w:=.drop key) hkey]

end Moments

end McpGateway.TimedMap
