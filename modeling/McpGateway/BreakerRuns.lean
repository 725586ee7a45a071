import Mathlib
import McpGateway.StepRun
import McpGateway.CircuitBreakers

/-!
# Runs of one circuit breaker

Admissions and outcomes reach a breaker in any order: calls admitted earlier
report while it is closed, open or probing. The counters are read back from
the history of a run, and an open breaker is followed until its quarantine
ends. Nothing but the operations themselves changes a breaker, so a run is a
list of them with their clock times.
-/

namespace McpGateway.BreakerRuns

open StepRun CircuitBreakers

/-- One of the three operations. -/
inductive BreakerOperation where
  /-- `before_call`. -/
  | beforeCall
  /-- `on_success`. -/
  | onSuccess
  /-- `on_failure`. -/
  | onFailure
  deriving DecidableEq

/-- An operation with the clock reading it sees. -/
structure TimedOperation where
  /-- Monotonic clock. -/
  time : ℚ
  /-- What is called. -/
  operation : BreakerOperation

/-- The breaker after an operation; a refusal leaves it as it was. -/
def step (b : CircuitBreaker) (a : TimedOperation) : CircuitBreaker :=
  match a.operation with
  | .beforeCall =>
    match b.beforeCall a.time with
    | .ok admitted => admitted
    | .error _ => b
  | .onSuccess => b.onSuccess
  | .onFailure => b.onFailure a.time

/-- An operation with the breaker on both sides of it. -/
structure BreakerEvent where
  /-- Breaker before. -/
  before : CircuitBreaker
  /-- What is called, and when. -/
  action : TimedOperation
  /-- Breaker after. -/
  after : CircuitBreaker

/-- A step that reports itself. -/
def observe (b : CircuitBreaker) (a : TimedOperation) : CircuitBreaker×Option BreakerEvent :=
  (step b a,some ⟨b,a,step b a⟩)

/-- A breaker as its constructor leaves it. -/
def new (serverId : String) (failureThreshold : ℤ) (recoveryTimeout : ℚ)
    (probeSuccesses : ℤ) : CircuitBreaker :=
  ⟨serverId,failureThreshold,recoveryTimeout,probeSuccesses,.closed,0,0,none⟩

/-- The events that restart the count of failures: a success, or a closing. -/
def BreakerEvent.resets (e : BreakerEvent) : Bool :=
  decide (e.action.operation=.onSuccess ∨ e.before.state≠.closed ∧ e.after.state=.closed)

/-- The event begins a probing period. -/
def BreakerEvent.probes (e : BreakerEvent) : Bool :=
  decide (e.before.state≠.halfOpen ∧ e.after.state=.halfOpen)

/-- Failures since the latest of the start, the last success and the last
closing. -/
def failuresSinceReset (h : List BreakerEvent) : ℕ :=
  (h.rtakeWhile (fun e => !e.resets)).countP (fun e => decide (e.action.operation=.onFailure))

/-- Successes since the current probing period began. -/
def successesSinceProbing (h : List BreakerEvent) : ℕ :=
  (h.rtakeWhile (fun e => !e.probes)).countP (fun e => decide (e.action.operation=.onSuccess))

/-- The fields of a breaker as its history determines them. -/
structure Documented (b : CircuitBreaker) (h : List BreakerEvent) : Prop where
  /-- A closed breaker counts the failures since the last reset. -/
  closedCount : b.state=.closed→
    b.failures=failuresSinceReset h ∧ b.failures<b.failureThreshold
  /-- A probing breaker counts the successes of this period. -/
  probeCount : b.state=.halfOpen→
    b.probeOk=successesSinceProbing h ∧ b.probeOk<b.probeSuccesses
  /-- The opening time is absent exactly when the breaker is closed. -/
  openedAt : b.openedAt=none ↔ b.state=.closed

/-- The transitions of the module documentation, read from the history, and
what late outcomes leave alone. -/
structure Transitions (h : List BreakerEvent) (e : BreakerEvent) : Prop where
  /-- A closed breaker opens on the failure that reaches the threshold. -/
  opens : e.before.state=.closed→(e.after.state=.isOpen ↔
    e.action.operation=.onFailure ∧ failuresSinceReset h+1=e.before.failureThreshold)
  /-- A probing breaker closes on the success that reaches its number. -/
  closes : e.before.state=.halfOpen→(e.after.state=.closed ↔
    e.action.operation=.onSuccess ∧ successesSinceProbing h+1=e.before.probeSuccesses)
  /-- A probing breaker reopens on any failure. -/
  reopens : e.before.state=.halfOpen→
    (e.after.state=.isOpen ↔ e.action.operation=.onFailure)
  /-- An open breaker probes on an admission asked for after the timeout. -/
  probes : e.before.state=.isOpen→(e.after.state=.halfOpen ↔
    e.action.operation=.beforeCall ∧
      ∃ t, e.before.openedAt=some t ∧ t+e.before.recoveryTimeout≤e.action.time)
  /-- On anything else it stays open, with the time it opened at. -/
  stays : e.before.state=.isOpen→e.after.state≠.halfOpen→
    e.after.state=.isOpen ∧ e.after.openedAt=e.before.openedAt
  /-- A closed breaker does not begin to probe. -/
  closedStays : e.before.state=.closed→e.after.state≠.halfOpen
  /-- A breaker that opens records when. -/
  recorded : e.before.state≠.isOpen→e.after.state=.isOpen→
    e.after.openedAt=some e.action.time

/-- Seconds of refusal left. -/
def remaining (b : CircuitBreaker) (now : ℚ) : ℚ := b.recoveryTimeout-(now-b.openedAt.getD 0)

/-- Everything an operation can do. -/
inductive Moves (b : CircuitBreaker) (now : ℚ) : BreakerOperation→CircuitBreaker→Prop where
  /-- A breaker that is not open admits. -/
  | pass (hs : b.state≠.isOpen) : Moves b now .beforeCall b
  /-- An open breaker refuses during its quarantine. -/
  | refuse (hs : b.state=.isOpen) (hr : 0<remaining b now) : Moves b now .beforeCall b
  /-- After the quarantine it admits a probe. -/
  | probe (hs : b.state=.isOpen) (hr : remaining b now≤0) :
    Moves b now .beforeCall {b with state := .halfOpen,probeOk := 0}
  /-- A success of a closed breaker. -/
  | succeed (hs : b.state=.closed) : Moves b now .onSuccess {b with failures := 0}
  /-- A probe success that does not suffice yet. -/
  | probeSucceeds (hs : b.state=.halfOpen) (hn : b.probeOk+1<b.probeSuccesses) :
    Moves b now .onSuccess {b with probeOk := b.probeOk+1}
  /-- The probe success that closes. -/
  | close (hs : b.state=.halfOpen) (hn : b.probeSuccesses≤b.probeOk+1) :
    Moves b now .onSuccess
      {b with state := .closed,probeOk := b.probeOk+1,failures := 0,openedAt := none}
  /-- A late success while open. -/
  | lateSuccess (hs : b.state=.isOpen) : Moves b now .onSuccess b
  /-- A failure below the threshold. -/
  | fail (hs : b.state=.closed) (hn : b.failures+1<b.failureThreshold) :
    Moves b now .onFailure {b with failures := b.failures+1}
  /-- The failure that opens. -/
  | trip (hs : b.state=.closed) (hn : b.failureThreshold≤b.failures+1) :
    Moves b now .onFailure
      {b with failures := b.failures+1,state := .isOpen,openedAt := some now}
  /-- A failing probe reopens. -/
  | reopen (hs : b.state=.halfOpen) : Moves b now .onFailure
      {b with failures := b.failures+1,state := .isOpen,openedAt := some now}
  /-- A late failure while open. -/
  | lateFailure (hs : b.state=.isOpen) : Moves b now .onFailure {b with failures := b.failures+1}

/-- `before_call` during the quarantine. -/
theorem beforeCall_refused {b : CircuitBreaker} {now : ℚ} (hs : b.state=.isOpen)
    (hr : 0<remaining b now) : ∃ error, b.beforeCall now=.error error := by
  unfold CircuitBreaker.beforeCall
  rw [if_pos hs]
  exact ⟨_,if_pos hr⟩

/-- `before_call` after the quarantine. -/
theorem beforeCall_probe {b : CircuitBreaker} {now : ℚ} (hs : b.state=.isOpen)
    (hr : remaining b now≤0) : b.beforeCall now=.ok {b with state := .halfOpen,probeOk := 0} := by
  unfold CircuitBreaker.beforeCall
  rw [if_pos hs]
  exact if_neg (not_lt.mpr hr)

/-- Every step is one of the moves. -/
theorem step_moves (b : CircuitBreaker) (a : TimedOperation) :
    Moves b a.time a.operation (step b a) := by
  obtain ⟨now,operation⟩ := a
  cases operation with
  | beforeCall =>
    unfold step
    dsimp only
    by_cases hs : b.state=.isOpen
    · rcases lt_or_ge 0 (remaining b now) with hr | hr
      · obtain ⟨error,he⟩ := beforeCall_refused hs hr
        rw [he]
        exact .refuse hs hr
      · rw [beforeCall_probe hs hr]
        exact .probe hs hr
    · have hpass : b.beforeCall now=.ok b := by
        unfold CircuitBreaker.beforeCall
        exact if_neg hs
      rw [hpass]
      exact .pass hs
  | onSuccess =>
    unfold step CircuitBreaker.onSuccess
    dsimp only
    split
    · rename_i hs
      split
      · exact .close hs ‹_›
      · exact .probeSucceeds hs (not_le.mp ‹_›)
    · exact .succeed ‹_›
    · exact .lateSuccess ‹_›
  | onFailure =>
    unfold step CircuitBreaker.onFailure
    dsimp only
    split
    · exact .reopen ‹_›
    · rename_i hs
      split
      · exact .trip hs ‹_›
      · exact .fail hs (not_le.mp ‹_›)
    · exact .lateFailure ‹_›

/-- One more event either restarts the count of failures or may extend it. -/
theorem failuresSinceReset_append (h : List BreakerEvent) (e : BreakerEvent) :
    failuresSinceReset (h++[e])=if e.resets=true then 0 else
      failuresSinceReset h+if e.action.operation=.onFailure then 1 else 0 := by
  unfold failuresSinceReset
  rw [List.rtakeWhile_concat]
  cases e.resets with
  | true => rfl
  | false => simp [List.countP_append,List.countP_cons]

/-- One more event either begins a probing period or may extend its count. -/
theorem successesSinceProbing_append (h : List BreakerEvent) (e : BreakerEvent) :
    successesSinceProbing (h++[e])=if e.probes=true then 0 else
      successesSinceProbing h+if e.action.operation=.onSuccess then 1 else 0 := by
  unfold successesSinceProbing
  rw [List.rtakeWhile_concat]
  cases e.probes with
  | true => rfl
  | false => simp [List.countP_append,List.countP_cons]

/-- A move keeps the failure count of a closed breaker. -/
theorem closedCount_step {b b' : CircuitBreaker} {h : List BreakerEvent} (hd : Documented b h)
    (hf : 1≤b.failureThreshold) {now : ℚ} {operation : BreakerOperation}
    (hm : Moves b now operation b') (hs' : b'.state=.closed) :
    b'.failures=failuresSinceReset (h++[⟨b,⟨now,operation⟩,b'⟩]) ∧
      b'.failures<b'.failureThreshold := by
  rw [failuresSinceReset_append]
  cases hm with
  | pass hs =>
    obtain ⟨hcount,hlt⟩ := hd.closedCount hs'
    refine ⟨?_,hlt⟩
    rw [hcount]
    simp [BreakerEvent.resets]
  | refuse hs => rw [hs] at hs'; cases hs'
  | probe hs => cases hs'
  | succeed hs =>
    refine ⟨?_,by dsimp only; omega⟩
    simp [BreakerEvent.resets]
  | probeSucceeds hs => rw [hs] at hs'; cases hs'
  | close hs =>
    refine ⟨?_,by dsimp only; omega⟩
    simp [BreakerEvent.resets]
  | lateSuccess hs => rw [hs] at hs'; cases hs'
  | fail hs hn =>
    obtain ⟨hcount,-⟩ := hd.closedCount hs
    refine ⟨?_,hn⟩
    simp [BreakerEvent.resets,hs,hcount]
  | trip hs => cases hs'
  | reopen hs => cases hs'
  | lateFailure hs => rw [hs] at hs'; cases hs'

/-- A move keeps the success count of a probing breaker. -/
theorem probeCount_step {b b' : CircuitBreaker} {h : List BreakerEvent} (hd : Documented b h)
    (hp : 1≤b.probeSuccesses) {now : ℚ} {operation : BreakerOperation}
    (hm : Moves b now operation b') (hs' : b'.state=.halfOpen) :
    b'.probeOk=successesSinceProbing (h++[⟨b,⟨now,operation⟩,b'⟩]) ∧
      b'.probeOk<b'.probeSuccesses := by
  rw [successesSinceProbing_append]
  cases hm with
  | pass hs =>
    obtain ⟨hcount,hlt⟩ := hd.probeCount hs'
    refine ⟨?_,hlt⟩
    rw [hcount]
    simp [BreakerEvent.probes]
  | refuse hs => rw [hs] at hs'; cases hs'
  | probe hs =>
    refine ⟨?_,by dsimp only; omega⟩
    simp [BreakerEvent.probes,hs]
  | succeed hs => rw [hs] at hs'; cases hs'
  | probeSucceeds hs hn =>
    obtain ⟨hcount,-⟩ := hd.probeCount hs
    refine ⟨?_,hn⟩
    simp [BreakerEvent.probes,hs,hcount]
  | close hs => cases hs'
  | lateSuccess hs => rw [hs] at hs'; cases hs'
  | fail hs => rw [hs] at hs'; cases hs'
  | trip hs => cases hs'
  | reopen hs => cases hs'
  | lateFailure hs => rw [hs] at hs'; cases hs'

/-- A move keeps the opening time absent exactly while closed. -/
theorem openedAt_step {b b' : CircuitBreaker} {now : ℚ} {operation : BreakerOperation}
    (ho : b.openedAt=none ↔ b.state=.closed) (hm : Moves b now operation b') :
    b'.openedAt=none ↔ b'.state=.closed := by
  cases hm with
  | pass hs => exact ho
  | refuse hs => exact ho
  | probe hs =>
    have hsome : b.openedAt≠none := by
      rw [Ne,ho,hs]
      decide
    exact ⟨fun hn => absurd hn hsome,fun hc => (by cases hc)⟩
  | succeed hs => exact ho
  | probeSucceeds hs => exact ho
  | close hs => exact ⟨fun _ => rfl,fun _ => rfl⟩
  | lateSuccess hs => exact ho
  | fail hs => exact ho
  | trip hs => exact ⟨fun hn => (by cases hn),fun hc => (by cases hc)⟩
  | reopen hs => exact ⟨fun hn => (by cases hn),fun hc => (by cases hc)⟩
  | lateFailure hs => exact ho

/-- No move changes the settings. -/
theorem settings_step {b b' : CircuitBreaker} {now : ℚ} {operation : BreakerOperation}
    (hm : Moves b now operation b') : b'.failureThreshold=b.failureThreshold ∧
      b'.recoveryTimeout=b.recoveryTimeout ∧ b'.probeSuccesses=b.probeSuccesses := by
  cases hm <;> exact ⟨rfl,rfl,rfl⟩

/-- A move into the open state records its time. -/
theorem opening_step {b b' : CircuitBreaker} {now : ℚ} {operation : BreakerOperation}
    (hs : b.state≠.isOpen) (hs' : b'.state=.isOpen) (hm : Moves b now operation b') :
    b'.openedAt=some now := by
  cases hm with
  | pass => exact absurd hs' hs
  | refuse ho => exact absurd ho hs
  | probe ho => exact absurd ho hs
  | succeed => exact absurd hs' hs
  | probeSucceeds => exact absurd hs' hs
  | close => cases hs'
  | lateSuccess ho => exact absurd ho hs
  | fail => exact absurd hs' hs
  | trip => rfl
  | reopen => rfl
  | lateFailure ho => exact absurd ho hs

/-- An open breaker with an opening time probes exactly when it is asked after
the timeout, and otherwise stays as open as it was. -/
theorem probing_step {b b' : CircuitBreaker} {t now : ℚ} {operation : BreakerOperation}
    (hs : b.state=.isOpen) (ho : b.openedAt=some t) (hm : Moves b now operation b') :
    (b'.state=.halfOpen ↔ operation=.beforeCall ∧ t+b.recoveryTimeout≤now) ∧
      (b'.state≠.halfOpen→b'.state=.isOpen ∧ b'.openedAt=b.openedAt) := by
  have hremaining : remaining b now=b.recoveryTimeout-(now-t) := by
    rw [remaining,ho,Option.getD_some]
  cases hm with
  | pass hn => exact absurd hs hn
  | refuse _ hr =>
    rw [hremaining] at hr
    refine ⟨⟨fun h => (by rw [hs] at h; cases h),fun h => ?_⟩,fun _ => ⟨hs,rfl⟩⟩
    have hlate := h.2
    linarith
  | probe _ hr =>
    rw [hremaining] at hr
    exact ⟨⟨fun _ => ⟨rfl,by linarith⟩,fun _ => rfl⟩,fun h => absurd rfl h⟩
  | succeed hn => rw [hs] at hn; cases hn
  | probeSucceeds hn => rw [hs] at hn; cases hn
  | close hn => rw [hs] at hn; cases hn
  | lateSuccess =>
    exact ⟨⟨fun h => (by rw [hs] at h; cases h),fun h => (by cases h.1)⟩,fun _ => ⟨hs,rfl⟩⟩
  | fail hn => rw [hs] at hn; cases hn
  | trip hn => rw [hs] at hn; cases hn
  | reopen hn => rw [hs] at hn; cases hn
  | lateFailure =>
    refine ⟨⟨fun h => ?_,fun h => (by cases h.1)⟩,fun _ => ⟨hs,rfl⟩⟩
    dsimp only at h
    rw [hs] at h
    cases h

/-- A closed breaker closes or opens. -/
theorem closed_step {b b' : CircuitBreaker} {now : ℚ} {operation : BreakerOperation}
    (hs : b.state=.closed) (hm : Moves b now operation b') : b'.state≠.halfOpen := by
  intro hs'
  cases hm with
  | pass => rw [hs] at hs'; cases hs'
  | refuse ho => rw [hs] at ho; cases ho
  | probe ho => rw [hs] at ho; cases ho
  | succeed => rw [hs] at hs'; cases hs'
  | probeSucceeds ho => rw [hs] at ho; cases ho
  | close => cases hs'
  | lateSuccess ho => rw [hs] at ho; cases ho
  | fail => rw [hs] at hs'; cases hs'
  | trip => cases hs'
  | reopen ho => rw [hs] at ho; cases ho
  | lateFailure ho => rw [hs] at ho; cases ho

/-- A move of a breaker that agrees with its history is a documented
transition. -/
theorem transitions_step {b b' : CircuitBreaker} {h : List BreakerEvent} (hd : Documented b h)
    {now : ℚ} {operation : BreakerOperation} (hm : Moves b now operation b') :
    Transitions h ⟨b,⟨now,operation⟩,b'⟩ := by
  have hopened : b.state=.isOpen→∃ t, b.openedAt=some t := by
    intro hs
    cases ho : b.openedAt with
    | none =>
      have hclosed := hd.openedAt.mp ho
      rw [hs] at hclosed
      cases hclosed
    | some t => exact ⟨t,rfl⟩
  refine ⟨?_,?_,?_,?_,?_,fun hs => closed_step hs hm,fun hs hs' => opening_step hs hs' hm⟩
  · intro hs
    obtain ⟨hcount,hlt⟩ := hd.closedCount hs
    dsimp only at hs ⊢
    cases hm with
    | trip _ hn => simp; omega
    | fail _ hn => simp [hs]; omega
    | pass _ => simp [hs]
    | succeed _ => simp [hs]
    | refuse ho => rw [hs] at ho; cases ho
    | probe ho => rw [hs] at ho; cases ho
    | probeSucceeds ho => rw [hs] at ho; cases ho
    | close ho => rw [hs] at ho; cases ho
    | lateSuccess ho => rw [hs] at ho; cases ho
    | reopen ho => rw [hs] at ho; cases ho
    | lateFailure ho => rw [hs] at ho; cases ho
  · intro hs
    obtain ⟨hcount,hlt⟩ := hd.probeCount hs
    dsimp only at hs ⊢
    cases hm with
    | close _ hn => simp; omega
    | probeSucceeds _ hn => simp [hs]; omega
    | pass _ => simp [hs]
    | reopen _ => simp
    | refuse ho => rw [hs] at ho; cases ho
    | probe ho => rw [hs] at ho; cases ho
    | succeed ho => rw [hs] at ho; cases ho
    | lateSuccess ho => rw [hs] at ho; cases ho
    | fail ho => rw [hs] at ho; cases ho
    | trip ho => rw [hs] at ho; cases ho
    | lateFailure ho => rw [hs] at ho; cases ho
  · intro hs
    dsimp only at hs ⊢
    cases hm with
    | reopen _ => simp
    | pass _ => simp [hs]
    | probeSucceeds _ => simp [hs]
    | close _ => simp
    | refuse ho => rw [hs] at ho; cases ho
    | probe ho => rw [hs] at ho; cases ho
    | succeed ho => rw [hs] at ho; cases ho
    | lateSuccess ho => rw [hs] at ho; cases ho
    | fail ho => rw [hs] at ho; cases ho
    | trip ho => rw [hs] at ho; cases ho
    | lateFailure ho => rw [hs] at ho; cases ho
  · intro hs
    obtain ⟨t,ht⟩ := hopened hs
    dsimp only at hs ⊢
    rw [(probing_step hs ht hm).1]
    constructor
    · exact fun h => ⟨h.1,t,ht,h.2⟩
    · rintro ⟨hcall,t',ht',hover⟩
      cases ht.symm.trans ht'
      exact ⟨hcall,hover⟩
  · intro hs
    obtain ⟨t,ht⟩ := hopened hs
    exact (probing_step hs ht hm).2

/-- In every run the counters of a breaker are those of its history, and every
step is a documented transition. -/
theorem follows_documentation (serverId : String) (failureThreshold : ℤ) (recoveryTimeout : ℚ)
    (probeSuccesses : ℤ) (hf : 1≤failureThreshold) (hp : 1≤probeSuccesses)
    (actions : List TimedOperation) :
    Documented
      (run observe (new serverId failureThreshold recoveryTimeout probeSuccesses) actions).1
      (run observe (new serverId failureThreshold recoveryTimeout probeSuccesses) actions).2 ∧
    ∀ before e after,
      (run observe (new serverId failureThreshold recoveryTimeout probeSuccesses) actions).2=
        before++e::after→Transitions before e := by
  let J : CircuitBreaker→List BreakerEvent→Prop := fun b h =>
    Documented b h ∧ 1≤b.failureThreshold ∧ 1≤b.probeSuccesses
  have hstart : J (new serverId failureThreshold recoveryTimeout probeSuccesses) [] := by
    refine ⟨⟨fun _ => ⟨rfl,?_⟩,fun hs => (by cases hs),⟨fun _ => rfl,fun _ => rfl⟩⟩,hf,hp⟩
    exact lt_of_lt_of_le zero_lt_one hf
  have hstep : ∀ b h a, J b h→J (observe b a).1 (h++(observe b a).2.toList) := by
    intro b h a ⟨hd,hf,hp⟩
    have hm := step_moves b a
    obtain ⟨hthreshold,-,hprobes⟩ := settings_step hm
    refine ⟨⟨closedCount_step hd hf hm,probeCount_step hd hp hm,openedAt_step hd.openedAt hm⟩,?_,?_⟩
    · exact hthreshold.symm ▸ hf
    · exact hprobes.symm ▸ hp
  have hemit : ∀ b h a e, J b h→(observe b a).2=some e→Transitions h e := by
    intro b h a e ⟨hd,_⟩ he
    cases he
    exact transitions_step hd (step_moves b a)
  refine ⟨(run_invariant hstep hstart actions).1,?_⟩
  intro before e after hsplit
  exact run_event hstep hemit hstart actions hsplit

/-- A breaker opens on its second failure, probes when the timeout is over and
closes on the second success behind it; a late failure comes in between. -/
def openProbeClose : List TimedOperation :=
  [⟨0,.onFailure⟩,⟨1,.onFailure⟩,⟨2,.onFailure⟩,⟨31,.beforeCall⟩,⟨32,.onSuccess⟩,⟨33,.onSuccess⟩]

theorem follows_documentation_default :
    (run observe (new "pg" 2 30 2) openProbeClose).2.map (fun e => e.after.state)=
      [.closed,.isOpen,.isOpen,.halfOpen,.halfOpen,.closed] ∧
    Documented (run observe (new "pg" 2 30 2) openProbeClose).1
      (run observe (new "pg" 2 30 2) openProbeClose).2 ∧
    ∀ before e after, (run observe (new "pg" 2 30 2) openProbeClose).2=before++e::after→
      Transitions before e :=
  ⟨by decide +kernel,
    follows_documentation "pg" 2 30 2 (by decide) (by decide) openProbeClose⟩

/-- The operation is an admission asked for when the quarantine of an opening
at `t` is over. -/
def Releases (t recoveryTimeout : ℚ) (a : TimedOperation) : Prop :=
  a.operation=.beforeCall ∧ t+recoveryTimeout≤a.time

/-- An open breaker stays open with its opening time through everything that
does not release it. -/
theorem open_step {b b' : CircuitBreaker} {t now : ℚ} {operation : BreakerOperation}
    (hs : b.state=.isOpen) (ho : b.openedAt=some t)
    (hr : ¬Releases t b.recoveryTimeout ⟨now,operation⟩) (hm : Moves b now operation b') :
    b'.state=.isOpen ∧ b'.openedAt=some t := by
  cases hm with
  | pass hn => exact absurd hs hn
  | refuse => exact ⟨hs,ho⟩
  | probe _ hover =>
    simp only [remaining,ho,Option.getD_some] at hover
    exact absurd ⟨rfl,by dsimp only; linarith⟩ hr
  | succeed hn => rw [hs] at hn; cases hn
  | probeSucceeds hn => rw [hs] at hn; cases hn
  | close hn => rw [hs] at hn; cases hn
  | lateSuccess => exact ⟨hs,ho⟩
  | fail hn => rw [hs] at hn; cases hn
  | trip hn => rw [hs] at hn; cases hn
  | reopen hn => rw [hs] at hn; cases hn
  | lateFailure => exact ⟨hs,ho⟩

/-- Settings are kept along a run. -/
theorem final_recoveryTimeout (b : CircuitBreaker) (actions : List TimedOperation) :
    (final step b actions).recoveryTimeout=b.recoveryTimeout :=
  final_invariant (I:=fun s => s.recoveryTimeout=b.recoveryTimeout)
    (fun s a h => (settings_step (step_moves s a)).2.1.trans h) rfl actions

/-- An open breaker stays open along a run without a release. -/
theorem open_run {b : CircuitBreaker} {t : ℚ} (hs : b.state=.isOpen) (ho : b.openedAt=some t)
    {actions : List TimedOperation} (hr : ∀ a∈actions, ¬Releases t b.recoveryTimeout a) :
    (final step b actions).state=.isOpen ∧ (final step b actions).openedAt=some t := by
  induction actions generalizing b with
  | nil => exact ⟨hs,ho⟩
  | cons a actions ih =>
    have hm := step_moves b a
    obtain ⟨hs',ho'⟩ := open_step hs ho (hr a List.mem_cons_self) hm
    refine ih hs' ho' ?_
    rw [(settings_step hm).2.1]
    exact fun x hx => hr x (List.mem_cons_of_mem _ hx)

/-- What follows an opening at `t`, by the operations since. -/
structure Quarantined (b : CircuitBreaker) (t : ℚ) (since : List TimedOperation) : Prop where
  /-- Without a release the breaker is open, with the same opening time. -/
  stays : (∀ a∈since, ¬Releases t b.recoveryTimeout a)→
    (final step b since).state=.isOpen ∧ (final step b since).openedAt=some t
  /-- Every admission asked for during the quarantine is refused. -/
  refuses : ∀ now, (∀ a∈since, a.time≤now)→now-t<b.recoveryTimeout→
    ∃ error, (final step b since).beforeCall now=.error error
  /-- The first admission asked for after it is granted and begins probing. -/
  admits : (∀ a∈since, ¬Releases t b.recoveryTimeout a)→∀ now, t+b.recoveryTimeout≤now→
    ∃ probing, (final step b since).beforeCall now=.ok probing ∧ probing.state=.halfOpen

/-- In every run with a clock that does not go back, a breaker that opens is
quarantined from then on, whatever outcomes calls report in the meantime. -/
theorem quarantine (b : CircuitBreaker) (before : List TimedOperation) (opening : TimedOperation)
    (since : List TimedOperation)
    (hs : (final step b before).state≠.isOpen)
    (hs' : (final step b (before++[opening])).state=.isOpen) :
    Quarantined (final step b (before++[opening])) opening.time since := by
  have hopened : (final step b (before++[opening])).openedAt=some opening.time := by
    rw [final,List.foldl_append] at hs' ⊢
    exact opening_step hs hs' (step_moves _ opening)
  generalize final step b (before++[opening])=c at hs' hopened
  refine ⟨fun hr => open_run hs' hopened hr,?_,?_⟩
  · intro now hclock hnow
    have hr : ∀ a∈since, ¬Releases opening.time c.recoveryTimeout a := by
      rintro a ha ⟨-,hover⟩
      have htime := hclock a ha
      linarith
    obtain ⟨hopen,hat⟩ := open_run hs' hopened hr
    refine beforeCall_refused hopen ?_
    rw [remaining,final_recoveryTimeout,hat,Option.getD_some]
    linarith
  · intro hr now hnow
    obtain ⟨hopen,hat⟩ := open_run hs' hopened hr
    refine ⟨_,beforeCall_probe hopen ?_,rfl⟩
    rw [remaining,final_recoveryTimeout,hat,Option.getD_some]
    linarith

/-- A breaker with threshold one opens on its first failure. -/
theorem quarantine_first_failure :
    Quarantined (final step (new "pg" 1 30 2) ([]++[⟨7,.onFailure⟩])) 7
      [⟨8,.onSuccess⟩,⟨9,.onFailure⟩] :=
  quarantine (new "pg" 1 30 2) [] ⟨7,.onFailure⟩ [⟨8,.onSuccess⟩,⟨9,.onFailure⟩]
    (by decide) (by decide)

end McpGateway.BreakerRuns
