import Mathlib

/-!
# Runs of deterministic step machines

A schedule of actions resolves every choice of an interleaving, so a machine
is one function from a state and an action. The rules below lift a fact
about one step to every state and every emitted event of a whole run; they
name no program and are used for each component separately.
-/

namespace McpGateway.StepRun

variable {σ α ε : Type*}

section States

variable (step : σ→α→σ)

/-- The state property holds initially and after every action. -/
def Always (P : σ→Prop) : σ→List α→Prop
  | s,[] => P s
  | s,a::as => P s ∧ Always P (step s a) as

/-- Every action meets a condition on the state in which it is taken. -/
def Meets (C : σ→α→Prop) : σ→List α→Prop
  | _,[] => True
  | s,a::as => C s a ∧ Meets C (step s a) as

/-- The state after a whole schedule. -/
abbrev final (s : σ) (as : List α) : σ := as.foldl step s

/-- The actions of a run with the states in which they are taken. -/
def trail : σ→List α→List (σ×α)
  | _,[] => []
  | s,a::as => (s,a)::trail (step s a) as

variable {step}

/-- A step of a run splits its schedule. -/
theorem trail_split {s : σ} {as : List α} {before later : List (σ×α)} {taken : σ×α}
    (h : trail step s as=before++taken::later) :
    ∃ earlier rest, as=earlier++taken.2::rest ∧ taken.1=final step s earlier ∧
      later=trail step (step taken.1 taken.2) rest := by
  induction as generalizing s before with
  | nil => exact absurd h.symm (List.append_ne_nil_of_right_ne_nil _ (List.cons_ne_nil _ _))
  | cons a as ih =>
    cases before with
    | nil =>
      obtain ⟨rfl,htail⟩ := List.cons.inj h
      exact ⟨[],as,rfl,rfl,htail.symm⟩
    | cons head before =>
      obtain ⟨-,htail⟩ := List.cons.inj h
      obtain ⟨earlier,rest,rfl,hstate,hlater⟩ := ih htail
      exact ⟨a::earlier,rest,rfl,hstate,hlater⟩

/-- A preserved property holds after every schedule. -/
theorem final_invariant {I : σ→Prop} (hstep : ∀ s a, I s→I (step s a)) {s : σ} (hs : I s)
    (as : List α) : I (final step s as) := by
  induction as generalizing s with
  | nil => exact hs
  | cons a as ih => exact ih (hstep s a hs)

/-- The final state is one of the reached states. -/
theorem Always.final {P : σ→Prop} {s : σ} {as : List α} (h : Always step P s as) :
    P (final step s as) := by
  induction as generalizing s with
  | nil => exact h
  | cons a as ih => exact ih h.2

/-- When one step keeps the property exactly under a condition, a run keeps
it throughout exactly when every step meets that condition. The auxiliary
invariant is preserved unconditionally. -/
theorem always_iff_meets {I P : σ→Prop} {C : σ→α→Prop}
    (hI : ∀ s a, I s→I (step s a)) (hP : ∀ s a, I s→P s→(P (step s a) ↔ C s a))
    {s : σ} (hs : I s) (h0 : P s) (as : List α) :
    Always step P s as ↔ Meets step C s as := by
  induction as generalizing s with
  | nil => exact ⟨fun _ => trivial,fun _ => h0⟩
  | cons a as ih =>
    rw [Always,Meets]
    constructor
    · rintro ⟨-,hrest⟩
      have hnext : P (step s a) := by
        cases as with
        | nil => exact hrest
        | cons b bs => exact hrest.1
      exact ⟨(hP s a hs h0).mp hnext,(ih (hI s a hs) hnext).mp hrest⟩
    · rintro ⟨hc,hrest⟩
      have hnext := (hP s a hs h0).mpr hc
      exact ⟨h0,(ih (hI s a hs) hnext).mpr hrest⟩

/-- When an invariant implies the property, steps that meet the condition keep
the invariant, and any other step breaks the property, a run has the property
throughout exactly when every step meets the condition. -/
theorem always_iff_meets_of {I P : σ→Prop} {C : σ→α→Prop} (hP : ∀ s, I s→P s)
    (hkeep : ∀ s a, I s→C s a→I (step s a)) (hbreak : ∀ s a, I s→¬C s a→¬P (step s a))
    {s : σ} (hs : I s) (as : List α) : Always step P s as ↔ Meets step C s as := by
  induction as generalizing s with
  | nil => exact ⟨fun _ => trivial,fun _ => hP s hs⟩
  | cons a as ih =>
    rw [Always,Meets]
    constructor
    · rintro ⟨-,hrest⟩
      have hnext : P (step s a) := by
        cases as with
        | nil => exact hrest
        | cons b bs => exact hrest.1
      have hc : C s a := by
        by_contra hc
        exact hbreak s a hs hc hnext
      exact ⟨hc,(ih (hkeep s a hs hc)).mp hrest⟩
    · rintro ⟨hc,hrest⟩
      exact ⟨hP s hs,(ih (hkeep s a hs hc)).mpr hrest⟩

/-- Actions that meet a condition in every state form a run that meets it. -/
theorem meets_of_forall {C : σ→α→Prop} {as : List α} (h : ∀ s, ∀ a∈as, C s a) (s : σ) :
    Meets step C s as := by
  induction as generalizing s with
  | nil => trivial
  | cons a as ih =>
    exact ⟨h s a List.mem_cons_self,ih (fun s b hb => h s b (List.mem_cons_of_mem _ hb)) _⟩

/-- Two conditions that agree in the states of an invariant are met by the
same runs, among those that meet what the invariant and the agreement need. -/
theorem meets_iff_of_meets {I : σ→Prop} {R C D : σ→α→Prop}
    (hI : ∀ s a, I s→ R s a→I (step s a)) (h : ∀ s a, I s→ R s a→(C s a ↔ D s a)) {s : σ}
    (hs : I s) {as : List α} (hr : Meets step R s as) : Meets step C s as ↔ Meets step D s as := by
  induction as generalizing s with
  | nil => exact Iff.rfl
  | cons a as ih => exact and_congr (h s a hs hr.1) (ih (hI s a hs hr.1) hr.2)

/-- Two conditions that agree in the states of an invariant are met by the
same runs. -/
theorem meets_iff {I : σ→Prop} {C D : σ→α→Prop} (hI : ∀ s a, I s→I (step s a))
    (h : ∀ s a, I s→(C s a ↔ D s a)) {s : σ} (hs : I s) (as : List α) :
    Meets step C s as ↔ Meets step D s as := by
  have hfree : Meets step (fun _ _ => True) s as := meets_of_forall (fun _ _ _ => trivial) s
  exact meets_iff_of_meets (fun s a hs _ => hI s a hs) (fun s a hs _ => h s a hs) hs hfree

/-- A condition that implies another is met by fewer runs. -/
theorem Meets.mono {C D : σ→α→Prop} (h : ∀ s a, C s a→ D s a) {s : σ} {as : List α}
    (hm : Meets step C s as) : Meets step D s as := by
  induction as generalizing s with
  | nil => trivial
  | cons a as ih => exact ⟨h s a hm.1,ih hm.2⟩

/-- A property that a condition on the steps preserves holds after every
schedule that meets the condition. -/
theorem meets_invariant {I : σ→Prop} {C : σ→α→Prop} (hstep : ∀ s a, I s→C s a→I (step s a))
    {s : σ} (hs : I s) {as : List α} (hm : Meets step C s as) : I (StepRun.final step s as) := by
  induction as generalizing s with
  | nil => exact hs
  | cons a as ih => exact ih (hstep s a hs hm.1) hm.2

end States

section Histories

variable {κ : Type*} [DecidableEq κ]

/-- The last event under a key, of a history with one event more. -/
theorem find_last_append (key : ε→κ) (history : List ε) (e : ε) (k : κ) :
    (history++[e]).reverse.find? (fun e => key e==k)=
      if key e=k then some e else history.reverse.find? (fun e => key e==k) := by
  rw [List.reverse_append,List.reverse_singleton,List.singleton_append,List.find?_cons]
  by_cases h : key e=k
  · rw [if_pos h,beq_iff_eq.mpr h]
  · rw [if_neg h,beq_eq_false_iff_ne.mpr h]

/-- The first event under a key, of a history with one event more. -/
theorem find_first_append (key : ε→κ) (history : List ε) (e : ε) (k : κ) :
    (history++[e]).find? (fun d => key d==k)=
      (history.find? (fun d => key d==k)).or (if key e=k then some e else none) := by
  rw [List.find?_append,List.find?_cons,List.find?_nil]
  by_cases h : key e=k
  · rw [if_pos h,beq_iff_eq.mpr h]
  · rw [if_neg h,beq_eq_false_iff_ne.mpr h]

/-- The first event under each key limits how many there are. -/
def WithinLimits (key : ε→κ) (limit : ε→Option ℕ) (history : List ε) : Prop :=
  ∀ k first n, history.find? (fun d => key d==k)=some first→limit first=some n→
    history.countP (fun d => key d==k)≤n

/-- One event more stays within the limits when those under its key had not
reached theirs. -/
theorem withinLimits_append (key : ε→κ) (limit : ε→Option ℕ) (history : List ε) (e : ε) :
    WithinLimits key limit (history++[e]) ↔ WithinLimits key limit history ∧
      ∀ n, limit ((history.find? (fun d => key d==key e)).getD e)=some n→
        history.countP (fun d => key d==key e)<n := by
  have hcount : ∀ k, (history++[e]).countP (fun d => key d==k)=
      history.countP (fun d => key d==k)+if key e=k then 1 else 0 := by
    intro k
    by_cases h : key e=k <;> simp [List.countP_append,h]
  constructor
  · intro h
    refine ⟨fun k first n hf hn => ?_,fun n hn => ?_⟩
    · have hfirst : (history++[e]).find? (fun d => key d==k)=some first := by
        rw [find_first_append,hf,Option.some_or]
      have hle := h k first n hfirst hn
      rw [hcount] at hle
      omega
    · have hfirst : (history++[e]).find? (fun d => key d==key e)=
          some ((history.find? (fun d => key d==key e)).getD e) := by
        rw [find_first_append,if_pos rfl]
        cases history.find? (fun d => key d==key e) <;> rfl
      have hle := h (key e) _ n hfirst hn
      rw [hcount,if_pos rfl] at hle
      omega
  · rintro ⟨hall,hnew⟩ k first n hf hn
    rw [find_first_append] at hf
    rw [hcount]
    by_cases hk : key e=k
    · subst hk
      rw [if_pos rfl] at hf ⊢
      have hfirst : (history.find? (fun d => key d==key e)).getD e=first := by
        cases ho : history.find? (fun d => key d==key e) with
        | none => rw [ho] at hf; exact Option.some.inj hf
        | some d => rw [ho] at hf; exact Option.some.inj hf
      have hlt := hnew n (hfirst.symm ▸ hn)
      omega
    · rw [if_neg hk,Option.or_none] at hf
      rw [if_neg hk]
      exact hall k first n hf hn

end Histories

section Events

variable (step : σ→α→σ×Option ε)

/-- Final state and the events emitted on the way, in order. -/
def run : σ→List α→σ×List ε
  | s,[] => (s,[])
  | s,a::as =>
    let current := step s a
    let later := run current.1 as
    (later.1,current.2.toList++later.2)

variable {step}

/-- A preserved relation between state and history holds after every run. -/
theorem run_invariant {J : σ→List ε→Prop}
    (hstep : ∀ s h a, J s h→J (step s a).1 (h++(step s a).2.toList))
    {s : σ} {h : List ε} (hs : J s h) (as : List α) :
    J (run step s as).1 (h++(run step s as).2) := by
  induction as generalizing s h with
  | nil => simpa only [run,List.append_nil] using hs
  | cons a as ih =>
    have hrest := ih (hstep s h a hs)
    rwa [List.append_assoc] at hrest

/-- The events are emitted along the run of the states. -/
theorem run_state (s : σ) (as : List α) :
    (run step s as).1=final (fun s a => (step s a).1) s as := by
  induction as generalizing s with
  | nil => rfl
  | cons a as ih => exact ih _

/-- The state behind one action more. -/
theorem run_concat (s : σ) (as : List α) (a : α) :
    (run step s (as++[a])).1=(step (run step s as).1 a).1 := by
  rw [run_state,run_state]
  exact List.foldl_concat ..

/-- A run splits where its schedule does. -/
theorem run_append (s : σ) (as bs : List α) :
    (run step s (as++bs)).2=(run step s as).2++(run step (run step s as).1 bs).2 := by
  induction as generalizing s with
  | nil => rfl
  | cons a as ih =>
    rw [List.cons_append,run,run,ih]
    exact (List.append_assoc _ _ _).symm

/-- A relation between state and history that a condition on the steps
preserves holds after every run that meets the condition. -/
theorem run_meets {J : σ→List ε→Prop} {C : σ→α→Prop}
    (hstep : ∀ s h a, J s h→C s a→J (step s a).1 (h++(step s a).2.toList))
    {s : σ} {h : List ε} (hs : J s h) {as : List α} (hm : Meets (fun s a => (step s a).1) C s as) :
    J (run step s as).1 (h++(run step s as).2) := by
  induction as generalizing s h with
  | nil => simpa only [run,List.append_nil] using hs
  | cons a as ih =>
    have hrest := ih (hstep s h a hs hm.1) hm.2
    rwa [List.append_assoc] at hrest

/-- Every emitted event is justified by the events before it, when the step
emitting it is justified by its state and history. -/
theorem run_event {J : σ→List ε→Prop} {Q : List ε→ε→Prop}
    (hstep : ∀ s h a, J s h→J (step s a).1 (h++(step s a).2.toList))
    (hemit : ∀ s h a e, J s h→(step s a).2=some e→Q h e)
    {s : σ} {h : List ε} (hs : J s h) (as : List α) {before after : List ε} {e : ε}
    (he : (run step s as).2=before++e::after) : Q (h++before) e := by
  induction as generalizing s h before with
  | nil => simp [run] at he
  | cons a as ih =>
    have hnext := hstep s h a hs
    cases ho : (step s a).2 with
    | none =>
      simp only [run,ho,Option.toList_none,List.nil_append] at he
      simp only [ho,Option.toList_none,List.append_nil] at hnext
      exact ih hnext he
    | some e₀ =>
      simp only [run,ho,Option.toList_some,List.singleton_append] at he
      simp only [ho,Option.toList_some] at hnext
      cases before with
      | nil =>
        obtain ⟨rfl,-⟩ := List.cons.inj he
        rw [List.append_nil]
        exact hemit s h a _ hs ho
      | cons e₁ before =>
        obtain ⟨rfl,ht⟩ := List.cons.inj he
        have hq := ih hnext ht
        rwa [List.append_assoc] at hq

/-- Every event of a history is justified by the events before it. -/
def Accounted (Q : List ε→ε→Prop) (history : List ε) : Prop :=
  ∀ before e after, history=before++e::after→Q before e

/-- Related states emit the same events along actions that keep them
related. -/
theorem run_related {R : σ→σ→Prop} {C : α→Prop}
    (hstep : ∀ s s' a, C a→R s s'→R (step s a).1 (step s' a).1 ∧ (step s a).2=(step s' a).2)
    {s s' : σ} (hs : R s s') {as : List α} (hC : ∀ a∈as, C a) :
    (run step s as).2=(run step s' as).2 := by
  induction as generalizing s s' with
  | nil => rfl
  | cons a as ih =>
    obtain ⟨hnext,hevent⟩ := hstep s s' a (hC a List.mem_cons_self) hs
    have hrest := ih hnext (fun b hb => hC b (List.mem_cons_of_mem _ hb))
    rw [run,run,hevent,hrest]

/-- Dropping actions that only a part of the state sees leaves the visible
events of the others as they were. -/
theorem run_filter {R : σ→σ→Prop} {C : α→Prop} {keep : α→Bool} {visible : ε→Bool}
    (hkeep : ∀ s s' a, C a→keep a=true→R s s'→R (step s a).1 (step s' a).1 ∧
      (step s a).2=(step s' a).2 ∧ ∀ e∈(step s a).2, visible e=true)
    (hdrop : ∀ s s' a, C a→keep a=false→R s s'→
      R (step s a).1 s' ∧ ∀ e∈(step s a).2, visible e=false)
    {s s' : σ} (hs : R s s') {as : List α} (hC : ∀ a∈as, C a) :
    (run step s' (as.filter keep)).2=(run step s as).2.filter visible := by
  induction as generalizing s s' with
  | nil => rfl
  | cons a as ih =>
    have ha := hC a List.mem_cons_self
    have hrest : ∀ b∈as, C b := fun b hb => hC b (List.mem_cons_of_mem _ hb)
    cases hk : keep a with
    | true =>
      obtain ⟨hnext,hevent,hvisible⟩ := hkeep s s' a ha hk hs
      have hall : (step s a).2.toList.filter visible=(step s a).2.toList :=
        List.filter_eq_self.mpr fun e he => hvisible e (Option.mem_toList.mp he)
      rw [List.filter_cons_of_pos hk,run,run,ih hnext hrest,←hevent,List.filter_append,hall]
    | false =>
      obtain ⟨hnext,hhidden⟩ := hdrop s s' a ha hk hs
      rw [List.filter_cons_of_neg (by rw [hk]; exact Bool.noConfusion),ih hnext hrest]
      rw [run,List.filter_append]
      have hnone : (step s a).2.toList.filter visible=[] := by
        refine List.filter_eq_nil_iff.mpr fun e he => ?_
        rw [hhidden e (Option.mem_toList.mp he)]
        exact Bool.noConfusion
      rw [hnone,List.nil_append]

/-- Where every step pays for its event out of a potential and a credit, the
events of a run cost at most the first potential and all credits. -/
theorem run_potential {K : Type*} [AddCommGroup K] [LinearOrder K] [IsOrderedAddMonoid K]
    {I : σ→Prop} {C : α→Prop} {potential : σ→K} {cost : ε→K} {credit : α→K}
    (hstep : ∀ s a, I s→C a→I (step s a).1 ∧
      potential (step s a).1+((step s a).2.toList.map cost).sum≤potential s+credit a)
    {s : σ} (hs : I s) {as : List α} (hC : ∀ a∈as, C a) :
    I (run step s as).1 ∧
      potential (run step s as).1+((run step s as).2.map cost).sum≤
        potential s+(as.map credit).sum := by
  induction as generalizing s with
  | nil => exact ⟨hs,le_refl _⟩
  | cons a as ih =>
    obtain ⟨hnext,hpaid⟩ := hstep s a hs (hC a List.mem_cons_self)
    obtain ⟨hlast,hrest⟩ := ih hnext (fun b hb => hC b (List.mem_cons_of_mem _ hb))
    refine ⟨hlast,?_⟩
    rw [run,List.map_append,List.sum_append,List.map_cons,List.sum_cons]
    calc _=((step s a).2.toList.map cost).sum+
          (potential (run step (step s a).1 as).1+
            ((run step (step s a).1 as).2.map cost).sum) := add_left_comm _ _ _
      _≤((step s a).2.toList.map cost).sum+(potential (step s a).1+(as.map credit).sum) :=
        add_le_add_right hrest _
      _=(potential (step s a).1+((step s a).2.toList.map cost).sum)+(as.map credit).sum := by
        abel
      _≤(potential s+credit a)+(as.map credit).sum := add_le_add_left hpaid _
      _=_ := add_assoc _ _ _

end Events

end McpGateway.StepRun
