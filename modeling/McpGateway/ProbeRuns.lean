import Mathlib
import McpGateway.StepRun
import McpGateway.CircuitBreakers
import McpGateway.BreakerRuns

/-!
# Concurrent calls on one breaker

Every admitted call reports one outcome at some later time, and any number
of calls may be outstanding. Each outstanding call remembers the probing
period in which it was admitted, and a probing breaker remembers whose
successes it has counted. An outcome counts whoever reports it, so a call
from before the outage can decide a probing period, and a probing breaker
admits every call that asks.
-/

namespace McpGateway.ProbeRuns

open StepRun CircuitBreakers BreakerRuns

/-- A breaker with the calls on it. -/
structure CallRun where
  /-- The breaker. -/
  breaker : CircuitBreaker
  /-- Probing periods begun so far. -/
  period : ℕ := 0
  /-- For each outstanding call the probing period of its admission, which a
  call admitted by a closed breaker does not have. -/
  outstanding : List (Option ℕ) := []
  /-- The same for each success counted in the current probing period. -/
  counted : List (Option ℕ) := []

/-- What a call does. -/
inductive CallAction where
  /-- It asks for admission. -/
  | beforeCall (time : ℚ)
  /-- An outstanding call reports its outcome. -/
  | report (index : ℕ) (succeeded : Bool) (time : ℚ)

/-- One action: a refused call leaves nothing, and an index that is not
outstanding reports nothing. -/
def step (s : CallRun) : CallAction→CallRun
  | .beforeCall time =>
    match s.breaker.beforeCall time with
    | .error _ => s
    | .ok admitted =>
      let begins := decide (s.breaker.state=.isOpen)
      let period := if begins=true then s.period+1 else s.period
      { breaker := admitted
        period := period
        outstanding := s.outstanding++[if admitted.state=.halfOpen then some period else none]
        counted := if begins=true then [] else s.counted }
  | .report index succeeded time =>
    match s.outstanding[index]? with
    | none => s
    | some admission =>
      { s with
        breaker := if succeeded=true then s.breaker.onSuccess else s.breaker.onFailure time
        outstanding := s.outstanding.eraseIdx index
        counted := if succeeded=true ∧ s.breaker.state=.halfOpen then s.counted++[admission]
          else s.counted }

/-- A new breaker without calls. -/
def start (serverId : String) (failureThreshold : ℤ) (recoveryTimeout : ℚ)
    (probeSuccesses : ℤ) : CallRun :=
  {breaker := new serverId failureThreshold recoveryTimeout probeSuccesses}

/-- Everything an action can do to the breaker and its calls. -/
inductive Effect (s : CallRun) : CallAction→CallRun→Prop where
  /-- An open breaker refuses. -/
  | refuse {time : ℚ} (hs : s.breaker.state=.isOpen) (hr : 0<remaining s.breaker time) :
    Effect s (.beforeCall time) s
  /-- A closed breaker admits. -/
  | pass {time : ℚ} (hs : s.breaker.state=.closed) :
    Effect s (.beforeCall time) {s with outstanding := s.outstanding++[none]}
  /-- A probing breaker admits. -/
  | probe {time : ℚ} (hs : s.breaker.state=.halfOpen) :
    Effect s (.beforeCall time) {s with outstanding := s.outstanding++[some s.period]}
  /-- An open breaker begins to probe. -/
  | begin {time : ℚ} (hs : s.breaker.state=.isOpen) (hr : remaining s.breaker time≤0) :
    Effect s (.beforeCall time)
      ⟨{s.breaker with state := .halfOpen,probeOk := 0},s.period+1,
        s.outstanding++[some (s.period+1)],[]⟩
  /-- Nothing is outstanding under the index. -/
  | absent {index : ℕ} {succeeded : Bool} {time : ℚ} (hi : s.outstanding[index]?=none) :
    Effect s (.report index succeeded time) s
  /-- An outstanding call reports a success. -/
  | succeed {index : ℕ} {time : ℚ} {admission : Option ℕ}
    (hi : s.outstanding[index]?=some admission) :
    Effect s (.report index true time) { s with
      breaker := s.breaker.onSuccess
      outstanding := s.outstanding.eraseIdx index
      counted := if s.breaker.state=.halfOpen then s.counted++[admission] else s.counted }
  /-- An outstanding call reports a failure. -/
  | fail {index : ℕ} {time : ℚ} {admission : Option ℕ}
    (hi : s.outstanding[index]?=some admission) :
    Effect s (.report index false time) { s with
      breaker := s.breaker.onFailure time
      outstanding := s.outstanding.eraseIdx index }

/-- Every step has one of the effects. -/
theorem step_effect (s : CallRun) (a : CallAction) : Effect s a (step s a) := by
  cases a with
  | beforeCall time =>
    by_cases hs : s.breaker.state=.isOpen
    · rcases lt_or_ge 0 (remaining s.breaker time) with hr | hr
      · obtain ⟨error,he⟩ := beforeCall_refused hs hr
        simp only [step,he]
        exact .refuse hs hr
      · simp only [step,beforeCall_probe hs hr,hs,decide_true,if_true]
        exact .begin hs hr
    · have hpass : s.breaker.beforeCall time=.ok s.breaker := if_neg hs
      simp only [step,hpass,hs,decide_false,Bool.false_eq_true,if_false]
      cases hstate : s.breaker.state with
      | isOpen => exact absurd hstate hs
      | halfOpen =>
        simp only [if_true]
        exact .probe hstate
      | closed =>
        simp only [reduceCtorEq,if_false]
        exact .pass hstate
  | report index succeeded time =>
    cases hi : s.outstanding[index]? with
    | none =>
      simp only [step,hi]
      exact .absent hi
    | some admission =>
      cases succeeded with
      | true =>
        simp only [step,hi,if_true,true_and]
        exact .succeed hi
      | false =>
        simp only [step,hi,Bool.false_eq_true,if_false,false_and]
        exact .fail hi

/-- At most one call is outstanding while the breaker is probing. -/
def Alone (s : CallRun) : Prop := s.breaker.state=.halfOpen→s.outstanding.length≤1

/-- No call is admitted while a probe of the current period is outstanding. -/
def WaitsForProbe (s : CallRun) (a : CallAction) : Prop :=
  ∀ time, a=.beforeCall time→s.breaker.state=.halfOpen→some s.period∉s.outstanding

/-- A call that is admitted as a probe finds no other call outstanding. -/
def FindsNone (s : CallRun) (a : CallAction) : Prop :=
  ∀ time, a=.beforeCall time→
    s.breaker.state=.halfOpen ∨ s.breaker.state=.isOpen ∧ remaining s.breaker time≤0→
    s.outstanding=[]

/-- A success ends probing only by closing. -/
theorem onSuccess_state (b : CircuitBreaker) :
    b.onSuccess.state=if b.state=.halfOpen ∧ b.probeSuccesses≤b.probeOk+1 then .closed
      else b.state := by
  have hm : Moves b 0 .onSuccess b.onSuccess := step_moves b ⟨0,.onSuccess⟩
  generalize b.onSuccess=b' at hm
  cases hm with
  | succeed hs => simp [hs]
  | probeSucceeds hs hn => simp [hs,not_le.mpr hn]
  | close hs hn => simp [hs,hn]
  | lateSuccess hs => simp [hs]

/-- A failure never leaves a breaker probing. -/
theorem onFailure_state (b : CircuitBreaker) (now : ℚ) : (b.onFailure now).state≠.halfOpen ∧
    (b.state=.halfOpen→(b.onFailure now).state=.isOpen) := by
  have hm : Moves b now .onFailure (b.onFailure now) := step_moves b ⟨now,.onFailure⟩
  generalize b.onFailure now=b' at hm
  cases hm with
  | fail hs _ => simp [hs]
  | trip hs _ => simp
  | reopen hs => simp
  | lateFailure hs => simp [hs]

/-- Fewer calls are outstanding after one has reported. -/
theorem length_eraseIdx_le {calls : List (Option ℕ)} (h : calls.length≤1) (index : ℕ) :
    (calls.eraseIdx index).length≤1 :=
  (List.eraseIdx_sublist calls index).length_le.trans h

/-- One action keeps a probing breaker with one call exactly when a probe
finds none. -/
theorem alone_step {s : CallRun} (h : Alone s) (a : CallAction) :
    Alone (step s a) ↔ FindsNone s a := by
  have heffect := step_effect s a
  generalize step s a=s' at heffect
  cases heffect with
  | refuse hs hr =>
    refine ⟨fun _ time ha hprobes => ?_,fun _ => h⟩
    cases ha
    rcases hprobes with hhalf | ⟨-,hover⟩
    · rw [hs] at hhalf
      cases hhalf
    · exact absurd hover (not_le.mpr hr)
  | pass hs =>
    refine ⟨fun _ time ha hprobes => ?_,fun _ hhalf => ?_⟩
    · rw [hs] at hprobes
      rcases hprobes with hhalf | ⟨hopen,-⟩
      · cases hhalf
      · cases hopen
    · rw [hs] at hhalf
      cases hhalf
  | probe hs =>
    have hlength : (s.outstanding++[some s.period]).length≤1 ↔ s.outstanding=[] := by
      rw [List.length_append,List.length_singleton,←List.length_eq_zero_iff]
      omega
    refine ⟨fun hnext _ _ _ => hlength.mp (hnext hs),fun hnone _ => hlength.mpr ?_⟩
    exact hnone _ rfl (.inl hs)
  | «begin» hs hr =>
    have hlength : (s.outstanding++[some (s.period+1)]).length≤1 ↔ s.outstanding=[] := by
      rw [List.length_append,List.length_singleton,←List.length_eq_zero_iff]
      omega
    refine ⟨fun hnext _ _ _ => hlength.mp (hnext rfl),fun hnone _ => hlength.mpr ?_⟩
    exact hnone _ rfl (.inr ⟨hs,hr⟩)
  | absent hi => exact ⟨fun _ _ ha => (by cases ha),fun _ => h⟩
  | succeed hi =>
    refine ⟨fun _ _ ha => (by cases ha),fun _ hhalf => ?_⟩
    rw [onSuccess_state] at hhalf
    split at hhalf
    · cases hhalf
    · exact length_eraseIdx_le (h hhalf) _
  | fail hi =>
    refine ⟨fun _ _ ha => (by cases ha),fun _ hhalf => ?_⟩
    exact absurd hhalf (onFailure_state _ _).1

/-- In every run, a probing breaker has at most one call outstanding and
admits none while a probe has not reported, exactly when every call that is
admitted as a probe finds no other outstanding. -/
theorem one_probe_iff (serverId : String) (failureThreshold : ℤ) (recoveryTimeout : ℚ)
    (probeSuccesses : ℤ) (actions : List CallAction) :
    (Always step Alone (start serverId failureThreshold recoveryTimeout probeSuccesses) actions ∧
      Meets step WaitsForProbe
        (start serverId failureThreshold recoveryTimeout probeSuccesses) actions) ↔
    Meets step FindsNone (start serverId failureThreshold recoveryTimeout probeSuccesses)
      actions := by
  have hstart : Alone (start serverId failureThreshold recoveryTimeout probeSuccesses) :=
    fun hhalf => by cases hhalf
  rw [always_iff_meets (I:=fun _ => True) (P:=Alone) (fun _ _ _ => trivial)
    (fun _ a _ h => alone_step h a) trivial hstart actions]
  refine ⟨fun h => h.1,fun h => ⟨h,h.mono fun s a hnone time ha hs => ?_⟩⟩
  rw [hnone time ha (.inl hs)]
  exact List.not_mem_nil

/-- Two calls that ask after the quarantine are both admitted, the second
before the first has reported. -/
theorem two_probes :
    ¬Always step Alone (start "pg" 1 30 2)
      [.beforeCall 0,.report 0 false 0,.beforeCall 31,.beforeCall 31] ∧
    ¬Meets step WaitsForProbe (start "pg" 1 30 2)
      [.beforeCall 0,.report 0 false 0,.beforeCall 31,.beforeCall 31] := by
  constructor
  · intro h
    have hlast := h.2.2.2.2
    exact absurd (hlast (by decide +kernel)) (by decide +kernel)
  · intro h
    have hsecond := h.2.2.2.1 31 rfl
    exact absurd (hsecond (by decide +kernel)) (by decide +kernel)

/-- A probing breaker leaves the state only by the report of a call admitted
in this period, and closes only if the successes of such calls, this one
included, are as many as it asks for. -/
def ProbesDecide (s : CallRun) (a : CallAction) : Prop :=
  s.breaker.state=.halfOpen→(step s a).breaker.state≠.halfOpen→
    ∃ index succeeded time, a=.report index succeeded time ∧
      s.outstanding[index]?=some (some s.period) ∧
      ((step s a).breaker.state=.closed→
        s.breaker.probeSuccesses≤(s.counted++[some s.period]).count (some s.period))

/-- A failure reported to a probing breaker is that of a call admitted in this
period; so is a success that closes it, and no other call's success was
counted in this period. -/
def OwnReports (s : CallRun) (a : CallAction) : Prop :=
  ∀ index succeeded time admission, a=.report index succeeded time→
    s.breaker.state=.halfOpen→s.outstanding[index]?=some admission→
    (succeeded=false→admission=some s.period) ∧
    (succeeded=true→s.breaker.probeSuccesses≤ s.breaker.probeOk+1→
      admission=some s.period ∧ ∀ c∈s.counted, c=some s.period)

/-- A probing breaker has counted one success for each that it remembers, and
fewer than it asks for. -/
def Counted (s : CallRun) : Prop := s.breaker.state=.halfOpen→
  s.breaker.probeOk=s.counted.length ∧
    (s.counted=[] ∨ s.breaker.probeOk<s.breaker.probeSuccesses)

/-- Every action keeps the count. -/
theorem counted_step (s : CallRun) (a : CallAction) (h : Counted s) : Counted (step s a) := by
  have heffect := step_effect s a
  generalize step s a=s' at heffect
  cases heffect with
  | refuse => exact h
  | pass => exact h
  | probe => exact h
  | «begin» => exact fun _ => ⟨rfl,.inl rfl⟩
  | absent => exact h
  | fail => exact fun hhalf => absurd hhalf (onFailure_state _ _).1
  | @succeed index time admission hi =>
    intro hhalf
    have hm : Moves s.breaker time .onSuccess s.breaker.onSuccess :=
      step_moves s.breaker ⟨time,.onSuccess⟩
    dsimp only at hhalf ⊢
    generalize s.breaker.onSuccess=b at hhalf hm
    cases hm with
    | succeed hs => rw [hs] at hhalf; cases hhalf
    | close => cases hhalf
    | lateSuccess hs => rw [hs] at hhalf; cases hhalf
    | probeSucceeds hs hn =>
      obtain ⟨hlength,-⟩ := h hs
      rw [if_pos hs]
      refine ⟨?_,.inr hn⟩
      rw [List.length_append,List.length_singleton,hlength]
      push_cast
      ring

/-- A success changes the state of a probing breaker when it suffices. -/
theorem onSuccess_closes {b : CircuitBreaker} (hs : b.state=.halfOpen)
    (hn : b.probeSuccesses≤b.probeOk+1) : b.onSuccess.state=.closed := by
  rw [onSuccess_state,if_pos ⟨hs,hn⟩]

/-- The successes of one period suffice alone exactly when there are no others. -/
theorem own_suffices {s : CallRun} (h : Counted s) (hs : s.breaker.state=.halfOpen)
    (hn : s.breaker.probeSuccesses≤ s.breaker.probeOk+1) :
    s.breaker.probeSuccesses≤(s.counted++[some s.period]).count (some s.period) ↔
      ∀ c∈s.counted, c=some s.period := by
  obtain ⟨hlength,hfew⟩ := h hs
  have hall : s.counted.count (some s.period)=s.counted.length ↔
      ∀ c∈s.counted, some s.period=c := List.count_eq_length
  have hmost : s.counted.count (some s.period)≤ s.counted.length := List.count_le_length
  have hsum : (s.counted++[some s.period]).count (some s.period)=
      s.counted.count (some s.period)+1 := by
    rw [List.count_append,List.count_singleton_self]
  rw [hsum]
  constructor
  · intro hown
    rcases hfew with hnone | hless
    · intro c hc
      rw [hnone] at hc
      exact absurd hc List.not_mem_nil
    · have hcount : s.counted.count (some s.period)=s.counted.length := by
        push_cast at hown
        omega
      exact fun c hc => (hall.mp hcount c hc).symm
  · intro hown
    have hcount := hall.mpr fun c hc => (hown c hc).symm
    push_cast
    omega

/-- A success that suffices decides a probing period as it should exactly when
it and all that were counted are of this period. -/
theorem success_decides {s : CallRun} (h : Counted s) {index : ℕ} {time : ℚ}
    {admission : Option ℕ} (hi : s.outstanding[index]?=some admission)
    (hs : s.breaker.state=.halfOpen) (hn : s.breaker.probeSuccesses≤ s.breaker.probeOk+1) :
    (∃ i succeeded t, CallAction.report index true time=.report i succeeded t ∧
      s.outstanding[i]?=some (some s.period) ∧
      (s.breaker.onSuccess.state=.closed→
        s.breaker.probeSuccesses≤(s.counted++[some s.period]).count (some s.period))) ↔
    admission=some s.period ∧ ∀ c∈s.counted, c=some s.period := by
  constructor
  · rintro ⟨i,succeeded,t,ha,hown,hcount⟩
    cases ha
    rw [hi] at hown
    exact ⟨Option.some.inj hown,(own_suffices h hs hn).mp (hcount (onSuccess_closes hs hn))⟩
  · rintro ⟨rfl,hall⟩
    exact ⟨index,true,time,rfl,hi,fun _ => (own_suffices h hs hn).mpr hall⟩

/-- A failure decides a probing period, and does so as it should exactly when it
is of this period. -/
theorem failure_decides {s : CallRun} {index : ℕ} {time : ℚ} {admission : Option ℕ}
    (hi : s.outstanding[index]?=some admission) (hs : s.breaker.state=.halfOpen) :
    (∃ i succeeded t, CallAction.report index false time=.report i succeeded t ∧
      s.outstanding[i]?=some (some s.period) ∧
      ((s.breaker.onFailure time).state=.closed→
        s.breaker.probeSuccesses≤(s.counted++[some s.period]).count (some s.period))) ↔
    admission=some s.period := by
  constructor
  · rintro ⟨i,succeeded,t,ha,hown,-⟩
    cases ha
    rw [hi] at hown
    exact Option.some.inj hown
  · rintro rfl
    refine ⟨index,false,time,rfl,hi,fun hclosed => ?_⟩
    rw [(onFailure_state s.breaker time).2 hs] at hclosed
    cases hclosed

/-- In a counted state the property of a step is the condition on the report. -/
theorem probesDecide_iff {s : CallRun} (h : Counted s) (a : CallAction) :
    ProbesDecide s a ↔ OwnReports s a := by
  have heffect := step_effect s a
  unfold ProbesDecide OwnReports
  generalize step s a=s' at heffect
  cases heffect with
  | refuse hs =>
    refine ⟨fun _ _ _ _ _ ha => (by cases ha),fun _ hhalf => ?_⟩
    rw [hs] at hhalf
    cases hhalf
  | pass hs =>
    refine ⟨fun _ _ _ _ _ ha => (by cases ha),fun _ hhalf => ?_⟩
    rw [hs] at hhalf
    cases hhalf
  | probe => exact ⟨fun _ _ _ _ _ ha => (by cases ha),fun _ hhalf hnext => absurd hhalf hnext⟩
  | «begin» hs =>
    refine ⟨fun _ _ _ _ _ ha => (by cases ha),fun _ hhalf => ?_⟩
    rw [hs] at hhalf
    cases hhalf
  | absent hi =>
    refine ⟨fun _ i _ _ _ ha _ hi' => ?_,fun _ hhalf hnext => absurd hhalf hnext⟩
    cases ha
    rw [hi] at hi'
    cases hi'
  | @fail index time admission hi =>
    constructor
    · intro hp i succeeded t admission' ha hhalf hi'
      cases ha
      have hdecides := hp hhalf (onFailure_state _ _).1
      exact ⟨fun _ => (failure_decides hi' hhalf).mp hdecides,fun hok => Bool.noConfusion hok⟩
    · intro ho hhalf hnext
      obtain ⟨hown,-⟩ := ho index false time admission rfl hhalf hi
      exact (failure_decides hi hhalf).mpr (hown rfl)
  | @succeed index time admission hi =>
    constructor
    · intro hp i succeeded t admission' ha hhalf hi'
      cases ha
      refine ⟨fun hok => Bool.noConfusion hok,fun _ hn => ?_⟩
      have hcloses := onSuccess_closes hhalf hn
      have hdecides := hp hhalf (fun hnext => by rw [hcloses] at hnext; cases hnext)
      exact (success_decides h hi' hhalf hn).mp hdecides
    · intro ho hhalf hnext
      have hn : s.breaker.probeSuccesses≤ s.breaker.probeOk+1 := by
        by_contra hless
        refine hnext ?_
        dsimp only
        rw [onSuccess_state,if_neg (fun hboth => hless hboth.2),hhalf]
      obtain ⟨-,hsuccess⟩ := ho index true time admission rfl hhalf hi
      exact (success_decides h hi hhalf hn).mpr (hsuccess rfl hn)

/-- In every run, only calls admitted in a probing period decide it exactly
when each failure reported to a probing breaker, and each success that closes
one together with all that it counted, is of such a call. -/
theorem probes_decide_iff (serverId : String) (failureThreshold : ℤ) (recoveryTimeout : ℚ)
    (probeSuccesses : ℤ) (actions : List CallAction) :
    Meets step ProbesDecide
      (start serverId failureThreshold recoveryTimeout probeSuccesses) actions ↔
    Meets step OwnReports (start serverId failureThreshold recoveryTimeout probeSuccesses)
      actions :=
  meets_iff counted_step (fun _ a h => probesDecide_iff h a) (fun hhalf => by cases hhalf) actions

/-- Two calls are admitted before the outage. The first fails and opens the
breaker; after the quarantine a probe begins, and the failure of the second
call reopens it, or its success closes it. -/
theorem late_call_decides :
    ¬Meets step ProbesDecide (start "pg" 1 30 1)
      [.beforeCall 0,.beforeCall 0,.report 0 false 1,.beforeCall 31,.report 0 false 32] ∧
    ¬Meets step ProbesDecide (start "pg" 1 30 1)
      [.beforeCall 0,.beforeCall 0,.report 0 false 1,.beforeCall 31,.report 0 true 32] := by
  constructor
  · intro h
    obtain ⟨index,ok,time,ha,hown,-⟩ := h.2.2.2.2.1 (by decide +kernel) (by decide +kernel)
    cases ha
    exact absurd hown (by decide +kernel)
  · intro h
    obtain ⟨index,ok,time,ha,hown,-⟩ := h.2.2.2.2.1 (by decide +kernel) (by decide +kernel)
    cases ha
    exact absurd hown (by decide +kernel)

end McpGateway.ProbeRuns
