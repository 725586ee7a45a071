import Mathlib
import McpGateway.PyDict
import McpGateway.StepRun
import McpGateway.TimedMap
import McpGateway.ResultCache

/-!
# The store as a map with deadlines

Operations on a store happen one after the other, each at its moment. Reading
deletes an expired entry and storing without a positive lifetime does nothing,
so the entries of the store are not those of the map it stands for. Both
answer alike from the moment of the last operation on.
-/

namespace McpGateway.StoreRefinement

open PyDict StepRun TimedMap ResultCache

variable {ν : Type}

/-- An operation on a store. -/
inductive StoreAction (ν : Type) where
  /-- `get`. -/
  | get (key : String)
  /-- `set`. -/
  | set (key : String) (value : ν) (ttl : ℚ)
  /-- `delete`. -/
  | delete (key : String)
  /-- `clear`. -/
  | clear

/-- An operation at a reading of the clock. -/
structure StoreOperation (ν : Type) where
  /-- Monotonic clock. -/
  time : ℚ
  /-- What is done. -/
  action : StoreAction ν

/-- The answer to a `get`. -/
structure StoreAnswer (ν : Type) where
  /-- The key that was asked for. -/
  key : String
  /-- When it was. -/
  time : ℚ
  /-- What was found. -/
  value : Option ν

/-- One operation. -/
def step (store : TTLStore ν) (op : StoreOperation ν) : TTLStore ν×Option (StoreAnswer ν) :=
  match op.action with
  | .get key =>
    let found := store.get key op.time
    (found.1,some ⟨key,op.time,found.2⟩)
  | .set key value ttl => (store.set key value ttl op.time,none)
  | .delete key => (store.delete key,none)
  | .clear => (store.clear,none)

/-- The store after some operations. -/
def after (store : TTLStore ν) (ops : List (StoreOperation ν)) : TTLStore ν :=
  (run step store ops).1

/-- What an operation writes into the map. -/
def written (op : StoreOperation ν) : Option (Write String ν ℚ) :=
  match op.action with
  | .get _ => none
  | .set key value ttl => if ttl≤0 then none else some (.put key value (op.time+ttl))
  | .delete key => some (.drop key)
  | .clear => some .reset

/-- The entries of a store, expired ones included. -/
def held (store : TTLStore ν) : Timed String ν ℚ :=
  fun key => (store.entries.get? key).map (fun entry => (entry.value,entry.expiresAt))

/-- The clock does not go back. -/
def Chronological : ℚ→List (StoreOperation ν)→Prop
  | _,[] => True
  | now,op::ops => now≤op.time ∧ Chronological op.time ops

/-- The reading at the last operation. -/
def lastTime (now : ℚ) : List (StoreOperation ν)→ℚ
  | [] => now
  | op::ops => lastTime op.time ops

/-- The operation decides what is found under the key. -/
def Decides (key : String) (op : StoreOperation ν) : Prop :=
  match op.action with
  | .get _ => False
  | .set other _ ttl => other=key ∧ 0<ttl
  | .delete other => other=key
  | .clear => True

/-- The last operation that decided the key stored this value, and its
lifetime is not over. -/
def StoredLast (ops : List (StoreOperation ν)) (key : String) (time : ℚ) (value : ν) : Prop :=
  ∃ before stored ttl later, ops=before++⟨stored,.set key value ttl⟩::later ∧ 0<ttl ∧
    time≤ stored+ttl ∧ ∀ op∈later, ¬Decides key op

/-- A read, or a `set` without a positive lifetime. -/
def Idle (op : StoreOperation ν) : Prop :=
  match op.action with
  | .get _ => True
  | .set _ _ ttl => ttl≤0
  | .delete _ => False
  | .clear => False

section Operations

variable (store : TTLStore ν)

/-- Deleting a key removes its value. -/
theorem held_delete (key : String) :
    held (store.delete key)=apply (held store) (.drop key) := by
  funext other
  unfold held TTLStore.delete apply
  dsimp only
  rw [Dict.get?_pop,Function.update_apply]
  by_cases hkey : key=other
  · rw [if_pos hkey,if_pos hkey.symm]
    rfl
  · rw [if_neg hkey,if_neg (Ne.symm hkey)]

/-- Storing with a positive lifetime puts the value with its deadline. -/
theorem held_set (key : String) (value : ν) {ttl : ℚ} (now : ℚ) (hpos : 0<ttl) :
    held (store.set key value ttl now)=apply (held store) (.put key value (now+ttl)) := by
  funext other
  unfold held TTLStore.set apply
  rw [if_neg (not_le.mpr hpos)]
  dsimp only
  rw [Dict.get?_set,Function.update_apply]
  by_cases hkey : key=other
  · rw [if_pos hkey,if_pos hkey.symm]
    rfl
  · rw [if_neg hkey,if_neg (Ne.symm hkey)]

/-- A read finds what the map has at that moment. -/
theorem get_lookup (key : String) (now : ℚ) :
    (store.get key now).2=lookup (held store) key now := by
  unfold TTLStore.get lookup held
  cases store.entries.get? key with
  | none => rfl
  | some entry =>
    by_cases hover : entry.expiresAt<now
    · simp [hover,not_le.mpr hover]
    · simp [hover,not_lt.mp hover]

/-- It leaves a store that answers alike from then on. -/
theorem get_sameFrom (key : String) (now : ℚ) :
    SameFrom now (held (store.get key now).1) (held store) := by
  unfold TTLStore.get
  cases hg : store.entries.get? key with
  | none => exact .refl now _
  | some entry =>
    dsimp only
    split
    · rename_i hover
      have hheld : held store key=some (entry.value,entry.expiresAt) := by
        unfold held
        rw [hg]
        rfl
      exact (held_delete store key) ▸ sameFrom_drop hheld hover
    · exact .refl now _

/-- One operation writes into the map what it should, as answers from its
moment on show. -/
theorem step_sameFrom (op : StoreOperation ν) :
    SameFrom op.time (held (step store op).1) (perform written (held store) op) := by
  obtain ⟨now,action⟩ := op
  cases action with
  | get key => exact get_sameFrom store key now
  | set key value ttl =>
    by_cases hpos : ttl≤0
    · have hstore : step store ⟨now,.set key value ttl⟩=(store,none) := by
        unfold step TTLStore.set
        exact congrArg (·,none) (if_pos hpos)
      have hwrite : written (⟨now,.set key value ttl⟩ : StoreOperation ν)=none := if_pos hpos
      rw [hstore,perform,hwrite]
      exact .refl now _
    · have hwrite : written (⟨now,.set key value ttl⟩ : StoreOperation ν)=
          some (.put key value (now+ttl)) := if_neg hpos
      rw [perform,hwrite]
      exact (held_set store key value now (not_le.mp hpos)).symm ▸ .refl now _
  | delete key => exact (held_delete store key).symm ▸ .refl now _
  | clear => exact .refl now _

end Operations

section Runs

/-- The same operation keeps two stores alike. -/
theorem step_related {store store' : TTLStore ν} {now : ℚ} {op : StoreOperation ν}
    (hnow : now≤op.time) (h : SameFrom now (held store) (held store')) :
    SameFrom op.time (held (step store op).1) (held (step store' op).1) ∧
      (step store op).2=(step store' op).2 := by
  have hlater := h.later hnow
  have hwritten := hlater.perform written op
  refine ⟨(step_sameFrom store op).trans (hwritten.trans (step_sameFrom store' op).symm),?_⟩
  obtain ⟨time,action⟩ := op
  cases action with
  | get key =>
    have hvalue : (store.get key time).2=(store'.get key time).2 := by
      rw [get_lookup,get_lookup]
      exact hlater time le_rfl key
    exact congrArg (fun value => some (StoreAnswer.mk key time value)) hvalue
  | set key value ttl => rfl
  | delete key => rfl
  | clear => rfl

/-- Stores that are alike give the same answers. -/
theorem run_related {store store' : TTLStore ν} {now : ℚ} {ops : List (StoreOperation ν)}
    (h : SameFrom now (held store) (held store')) (hops : Chronological now ops) :
    (run step store ops).2=(run step store' ops).2 := by
  induction ops generalizing now store store' with
  | nil => rfl
  | cons op ops ih =>
    obtain ⟨hnext,hanswer⟩ := step_related hops.1 h
    rw [run,run,hanswer,ih hnext hops.2]

/-- A run of operations leaves a store that answers like the map from the
last of them on. -/
theorem after_sameFrom {store : TTLStore ν} {m : Timed String ν ℚ} {now : ℚ}
    {ops : List (StoreOperation ν)} (h : SameFrom now (held store) m)
    (hops : Chronological now ops) :
    SameFrom (lastTime now ops) (held (after store ops)) (replay written m ops) := by
  induction ops generalizing now store m with
  | nil => exact h
  | cons op ops ih =>
    have hwritten := (h.later hops.1).perform written op
    exact ih ((step_sameFrom store op).trans hwritten) hops.2

/-- A schedule splits in two that follow each other. -/
theorem chronological_append {now : ℚ} {before later : List (StoreOperation ν)} :
    Chronological now (before++later) ↔
      Chronological now before ∧ Chronological (lastTime now before) later := by
  induction before generalizing now with
  | nil => exact ⟨fun h => ⟨trivial,h⟩,fun h => h.2⟩
  | cons op before ih =>
    rw [List.cons_append,Chronological,Chronological,ih,and_assoc]
    rfl

/-- An operation affects a key exactly when it decides it. -/
theorem decides_iff {key : String} {op : StoreOperation ν} :
    Decides key op ↔ ∃ w, written op=some w ∧ w.Affects key := by
  obtain ⟨now,action⟩ := op
  cases action with
  | get other => exact ⟨False.elim,fun ⟨_,h,_⟩ => (by cases h)⟩
  | set other value ttl =>
    by_cases hpos : ttl≤0
    · have hwrite : written (⟨now,.set other value ttl⟩ : StoreOperation ν)=none := if_pos hpos
      rw [hwrite]
      exact ⟨fun h => absurd h.2 (not_lt.mpr hpos),fun ⟨_,h,_⟩ => (by cases h)⟩
    · have hwrite : written (⟨now,.set other value ttl⟩ : StoreOperation ν)=
          some (.put other value (now+ttl)) := if_neg hpos
      rw [hwrite]
      constructor
      · intro h
        exact ⟨_,rfl,h.1⟩
      · rintro ⟨w,hw,haffects⟩
        cases hw
        exact ⟨haffects,not_le.mp hpos⟩
  | delete other =>
    constructor
    · intro h
      exact ⟨_,rfl,h⟩
    · rintro ⟨w,hw,haffects⟩
      cases hw
      exact haffects
  | clear => exact ⟨fun _ => ⟨_,rfl,trivial⟩,fun _ => trivial⟩

/-- An operation puts a value exactly when it stores it with a positive
lifetime. -/
theorem written_put_iff {key : String} {value : ν} {deadline : ℚ} {op : StoreOperation ν} :
    written op=some (.put key value deadline) ↔
      ∃ ttl, op=⟨op.time,.set key value ttl⟩ ∧ 0<ttl ∧ deadline=op.time+ttl := by
  constructor
  · intro h
    obtain ⟨now,action⟩ := op
    cases action with
    | get other => cases h
    | set other stored ttl =>
      unfold written at h
      dsimp only at h
      split at h
      · cases h
      · rename_i hpos
        cases h
        exact ⟨ttl,rfl,not_le.mp hpos,rfl⟩
    | delete other => cases h
    | clear => cases h
  · rintro ⟨ttl,hop,hpos,rfl⟩
    rw [hop]
    exact if_neg (not_le.mpr hpos)

/-- What the map of a run has at a moment is what was stored last. -/
theorem lookup_replay_iff {ops : List (StoreOperation ν)} {key : String} {time : ℚ} {value : ν} :
    lookup (replay written empty ops) key time=some value ↔ StoredLast ops key time value := by
  rw [lookup_iff]
  constructor
  · rintro ⟨deadline,hheld,hle⟩
    obtain ⟨before,op,later,hops,hput,hlater⟩ := (replay_iff _ _ _ _ _).mp hheld
    obtain ⟨ttl,hop,hpos,hdeadline⟩ := written_put_iff.mp hput
    refine ⟨before,op.time,ttl,later,hops.trans (by rw [←hop]),hpos,hdeadline ▸ hle,?_⟩
    intro other hmem hdecides
    obtain ⟨w,hw,haffects⟩ := decides_iff.mp hdecides
    exact hlater other hmem w hw haffects
  · rintro ⟨before,stored,ttl,later,hops,hpos,hle,hlater⟩
    have hput : written ⟨stored,.set key value ttl⟩=some (.put key value (stored+ttl)) :=
      written_put_iff.mpr ⟨ttl,rfl,hpos,rfl⟩
    refine ⟨_,(replay_iff _ _ _ _ _).mpr ⟨before,_,later,hops,hput,?_⟩,hle⟩
    exact fun other hmem w hw haffects => hlater other hmem (decides_iff.mpr ⟨w,hw,haffects⟩)

/-- At non-decreasing readings a read finds a value exactly when the last
operation that decided the key stored it and its lifetime is not over. Reads,
which remove expired entries, and ignored stores change no later answer. -/
theorem store_refines {start : ℚ} {ops : List (StoreOperation ν)} (h : Chronological start ops) :
    (∀ before key time later, ops=before++⟨time,.get key⟩::later→
      ∀ value, ((after {} before).get key time).2=some value ↔ StoredLast before key time value) ∧
    ∀ before op later, ops=before++op::later→Idle op→
      (run step (after {} (before++[op])) later).2=(run step (after {} before) later).2 := by
  have hempty : SameFrom start (held ({} : TTLStore ν)) empty := .refl start _
  constructor
  · rintro before key time later rfl value
    obtain ⟨hbefore,hnow,-⟩ := chronological_append.mp h
    have hsame := after_sameFrom hempty hbefore
    rw [get_lookup,hsame time hnow key]
    exact lookup_replay_iff
  · rintro before op later rfl hidle
    obtain ⟨-,hnow,hlater⟩ := chronological_append.mp h
    have hafter : after {} (before++[op])=(step (after {} before) op).1 := run_concat _ _ _
    have hsilent : written op=none := by
      obtain ⟨now,action⟩ := op
      cases action with
      | get key => rfl
      | set key value ttl => exact if_pos hidle
      | delete key => exact hidle.elim
      | clear => exact hidle.elim
    have hkept := step_sameFrom (after {} before) op
    rw [perform,hsilent] at hkept
    rw [hafter]
    exact run_related hkept hlater

theorem store_refines_expired :
    Chronological (ν:=ℕ) 0 [⟨1,.set "a" 7 5⟩,⟨2,.set "a" 8 0⟩,⟨6,.get "a"⟩,⟨7,.get "a"⟩] ∧
    ((after {} [⟨1,.set "a" 7 5⟩,⟨2,.set "a" 8 0⟩]).get "a" 6).2=some 7 ∧
    (run step (after {} [⟨1,.set "a" 7 5⟩,⟨2,.set "a" 8 0⟩]) [⟨6,.get "a"⟩,⟨7,.get "a"⟩]).2=
      (run step (after {} [⟨1,.set "a" 7 5⟩]) [⟨6,.get "a"⟩,⟨7,.get "a"⟩]).2 := by
  have hchronological : Chronological (ν:=ℕ) 0
      [⟨1,.set "a" 7 5⟩,⟨2,.set "a" 8 0⟩,⟨6,.get "a"⟩,⟨7,.get "a"⟩] := by
    simp only [Chronological]
    norm_num
  obtain ⟨hanswers,hignored⟩ := store_refines hchronological
  have hstored : StoredLast (ν:=ℕ) [⟨1,.set "a" 7 5⟩,⟨2,.set "a" 8 0⟩] "a" 6 7 := by
    refine ⟨[],1,5,[_],rfl,by norm_num,by norm_num,?_⟩
    exact List.forall_mem_singleton.mpr fun h => absurd h.2 (lt_irrefl 0)
  exact ⟨hchronological,(hanswers [_,_] "a" 6 [_] rfl 7).mpr hstored,
    hignored [_] _ [_,_] rfl (le_refl (0:ℚ))⟩

end Runs

end McpGateway.StoreRefinement
