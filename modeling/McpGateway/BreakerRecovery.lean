import Mathlib
import McpGateway.StepRun
import McpGateway.CircuitBreakers
import McpGateway.BreakerRuns

/-!
# Recovery of a circuit breaker

A breaker opens on a failure and counts its quarantine from there. Once calls
have not failed for that long, and as long as they do not, it refuses nobody, and
the successes that are reported close it, whichever calls they belong to.
-/

namespace McpGateway.BreakerRecovery

open StepRun CircuitBreakers BreakerRuns

/-- The fields of a breaker come from its history: it opened on a failure, and
counts its probes from zero. -/
structure Founded (b : CircuitBreaker) (h : List TimedOperation) : Prop where
  /-- It opened when a failure was reported. -/
  opened : ∀ t, b.openedAt=some t→∃ a∈h, a.operation=.onFailure ∧ a.time=t
  /-- An open breaker knows when. -/
  timed : b.state=.isOpen→b.openedAt≠none
  /-- Counted probes are not negative. -/
  counted : 0≤b.probeOk

/-- Number of successes that are reported. -/
def successes (ops : List TimedOperation) : ℕ :=
  ops.countP (fun a => decide (a.operation=.onSuccess))

/-- The breaker is closed, or this many successes from it. -/
def Mends (needed : ℕ) (b : CircuitBreaker) : Prop :=
  b.state=.closed ∨ b.state=.halfOpen ∧ b.probeSuccesses≤b.probeOk+needed

section Steps

variable {b b' : CircuitBreaker} {h : List TimedOperation} {now : ℚ}

/-- A constructed breaker has no history. -/
theorem founded_new (serverId : String) (failureThreshold : ℤ) (recoveryTimeout : ℚ)
    (probeSuccesses : ℤ) :
    Founded (new serverId failureThreshold recoveryTimeout probeSuccesses) [] :=
  ⟨fun _ ht => (by cases ht),fun hs => (by cases hs),le_rfl⟩

/-- Every operation becomes part of the history. -/
theorem founded_step (hb : Founded b h) (a : TimedOperation) : Founded (step b a) (h++[a]) := by
  have hm := step_moves b a
  obtain ⟨hopened,htimed,hcounted⟩ := hb
  have hkept : ∀ t, b.openedAt=some t→∃ c∈h++[a], c.operation=.onFailure ∧ c.time=t := by
    intro t ht
    obtain ⟨c,hc,hfail,htime⟩ := hopened t ht
    exact ⟨c,List.mem_append_left _ hc,hfail,htime⟩
  have hnow : a.operation=.onFailure→∀ t, some a.time=some t→
      ∃ c∈h++[a], c.operation=.onFailure ∧ c.time=t := by
    intro hfail t ht
    exact ⟨a,List.mem_append_right _ (List.mem_singleton_self a),hfail,Option.some.inj ht⟩
  generalize hop : a.operation=operation at hm hnow
  generalize step b a=c at hm
  cases hm with
  | pass hs => exact ⟨hkept,htimed,hcounted⟩
  | refuse hs hr => exact ⟨hkept,htimed,hcounted⟩
  | probe hs hr => exact ⟨hkept,fun hopen => (by cases hopen),le_rfl⟩
  | succeed hs => exact ⟨hkept,htimed,hcounted⟩
  | probeSucceeds hs hn => exact ⟨hkept,htimed,add_nonneg hcounted zero_le_one⟩
  | close hs hn =>
    exact ⟨fun _ ht => (by cases ht),fun hopen => (by cases hopen),
      add_nonneg hcounted zero_le_one⟩
  | lateSuccess hs => exact ⟨hkept,htimed,hcounted⟩
  | fail hs hn => exact ⟨hkept,htimed,hcounted⟩
  | trip hs hn => exact ⟨hnow rfl,fun _ hnone => (by cases hnone),hcounted⟩
  | reopen hs => exact ⟨hnow rfl,fun _ hnone => (by cases hnone),hcounted⟩
  | lateFailure hs => exact ⟨hkept,htimed,hcounted⟩

/-- A closed breaker stays closed while nothing fails. -/
theorem closed_step (hs : b.state=.closed) {a : TimedOperation} (ha : a.operation≠.onFailure) :
    (step b a).state=.closed := by
  have hm := step_moves b a
  generalize a.operation=operation at hm ha
  generalize step b a=c at hm
  cases hm with
  | pass hn => exact hs
  | refuse hn hr => exact hs
  | probe hn hr => rw [hs] at hn; cases hn
  | succeed hn => exact hs
  | probeSucceeds hn hc => rw [hs] at hn; cases hn
  | close hn hc => rfl
  | lateSuccess hn => exact hs
  | _ => exact absurd rfl ha

/-- A breaker that is not open stays so while nothing fails, no further from
being closed. A success closes it or brings it nearer. -/
theorem mends_step {needed : ℕ} (hb : Mends needed b) {a : TimedOperation}
    (ha : a.operation≠.onFailure) : (step b a).state=.closed ∨
      a.operation=.beforeCall ∧ Mends needed (step b a) ∨
      a.operation=.onSuccess ∧ ∃ fewer, needed=fewer+1 ∧ 1≤fewer ∧ Mends fewer (step b a) := by
  rcases hb with hs | ⟨hs,hn⟩
  · exact Or.inl (closed_step hs ha)
  · have hm := step_moves b a
    generalize a.operation=operation at hm ha
    generalize step b a=c at hm
    cases hm with
    | pass hp => exact Or.inr (Or.inl ⟨rfl,Or.inr ⟨hs,hn⟩⟩)
    | refuse hp hr => rw [hs] at hp; cases hp
    | probe hp hr => rw [hs] at hp; cases hp
    | succeed hp => rw [hs] at hp; cases hp
    | probeSucceeds hp hc =>
      obtain ⟨fewer,rfl⟩ : ∃ fewer, needed=fewer+1 := ⟨needed-1,by omega⟩
      refine Or.inr (Or.inr ⟨rfl,fewer,rfl,by omega,Or.inr ⟨hs,?_⟩⟩)
      push_cast at hn
      dsimp only
      omega
    | close hp hc => exact Or.inl rfl
    | lateSuccess hp => rw [hs] at hp; cases hp
    | _ => exact absurd rfl ha

end Steps

section Runs

variable {b : CircuitBreaker} {ops : List TimedOperation}

/-- The history of a run. -/
theorem founded_run {h : List TimedOperation} (hb : Founded b h) (ops : List TimedOperation) :
    Founded (final step b ops) (h++ops) := by
  induction ops generalizing b h with
  | nil =>
    rw [List.append_nil]
    exact hb
  | cons a rest ih =>
    have hrest := ih (founded_step hb a)
    rwa [List.append_assoc] at hrest

/-- A closed breaker stays closed while nothing fails. -/
theorem closed_run (hs : b.state=.closed) (hh : ∀ a∈ops, a.operation≠.onFailure) :
    (final step b ops).state=.closed := by
  induction ops generalizing b with
  | nil => exact hs
  | cons a rest ih =>
    have hrest : ∀ c∈rest, c.operation≠.onFailure := fun c hc => hh c (List.mem_cons_of_mem _ hc)
    exact ih (closed_step hs (hh a List.mem_cons_self)) hrest

/-- Enough successes close it while nothing fails. -/
theorem mends_run {needed : ℕ} (hb : Mends needed b) (hh : ∀ a∈ops, a.operation≠.onFailure)
    (hone : 1≤ successes ops) (hall : needed≤ successes ops) :
    (final step b ops).state=.closed := by
  induction ops generalizing b needed with
  | nil => exact absurd hone (by decide)
  | cons a rest ih =>
    have ha := hh a List.mem_cons_self
    have hrest : ∀ c∈rest, c.operation≠.onFailure := fun c hc => hh c (List.mem_cons_of_mem _ hc)
    rcases mends_step hb ha with hclosed | ⟨hop,hmends⟩ | ⟨hop,fewer,rfl,hfew,hmends⟩
    · exact closed_run (b:=step b a) hclosed hrest
    · have hsame : successes (a::rest)=successes rest := by
        refine List.countP_cons_of_neg ?_
        rw [hop]
        decide
      rw [hsame] at hone hall
      exact ih hmends hrest hone hall
    · have hmore : successes (a::rest)=successes rest+1 :=
        List.countP_cons_of_pos (decide_eq_true hop)
      rw [hmore] at hall
      exact ih hmends hrest (by omega) (by omega)

/-- Settings are kept along a run. -/
theorem final_settings (b : CircuitBreaker) (ops : List TimedOperation) :
    (final step b ops).recoveryTimeout=b.recoveryTimeout ∧
      (final step b ops).probeSuccesses=b.probeSuccesses :=
  final_invariant (I:=fun s => s.recoveryTimeout=b.recoveryTimeout ∧
    s.probeSuccesses=b.probeSuccesses)
    (fun s a h => ⟨(settings_step (step_moves s a)).2.1.trans h.1,
      (settings_step (step_moves s a)).2.2.trans h.2⟩) ⟨rfl,rfl⟩ ops

/-- A breaker whose failures are all longer ago than its quarantine admits, and
is then closed or probing. -/
theorem admits_quiet {h : List TimedOperation} (hb : Founded b h) {now : ℚ}
    (hq : ∀ a∈h, a.operation=.onFailure→ a.time+b.recoveryTimeout≤now) :
    ∃ admitted, b.beforeCall now=.ok admitted ∧ admitted=step b ⟨now,.beforeCall⟩ ∧
      Mends b.probeSuccesses.toNat admitted := by
  have hstep : ∀ admitted, b.beforeCall now=.ok admitted→ admitted=step b ⟨now,.beforeCall⟩ := by
    intro admitted ha
    rw [step]
    dsimp only
    rw [ha]
  have henough : b.probeSuccesses≤b.probeOk+b.probeSuccesses.toNat := by
    have hcounted := hb.counted
    omega
  cases hs : b.state with
  | isOpen =>
    obtain ⟨t,ht⟩ := Option.ne_none_iff_exists'.mp (hb.timed hs)
    obtain ⟨a,ha,hfail,rfl⟩ := hb.opened t ht
    have hover : remaining b now≤0 := by
      have hlong := hq a ha hfail
      rw [remaining,ht,Option.getD_some]
      linarith
    have hprobe := beforeCall_probe hs hover
    refine ⟨_,hprobe,hstep _ hprobe,Or.inr ⟨rfl,?_⟩⟩
    dsimp only
    omega
  | halfOpen =>
    have hpass : b.beforeCall now=.ok b := by
      unfold CircuitBreaker.beforeCall
      rw [hs]
      exact if_neg (by decide)
    exact ⟨b,hpass,hstep b hpass,Or.inr ⟨hs,henough⟩⟩
  | closed =>
    have hpass : b.beforeCall now=.ok b := by
      unfold CircuitBreaker.beforeCall
      rw [hs]
      exact if_neg (by decide)
    exact ⟨b,hpass,hstep b hpass,Or.inl hs⟩

/-- What a breaker does while nothing fails. -/
structure Recovers (b : CircuitBreaker) (later : List TimedOperation) : Prop where
  /-- It refuses nobody. -/
  admits : ∀ waiting now rest, later=waiting++⟨now,.beforeCall⟩::rest→
    ∃ admitted, (final step b waiting).beforeCall now=.ok admitted
  /-- After an admission its number of successes, and one at least, close it. -/
  closes : ∀ waiting now rest, later=waiting++⟨now,.beforeCall⟩::rest→
    1≤ successes rest→b.probeSuccesses≤ successes rest→(final step b later).state=.closed
  /-- Once closed it stays closed. -/
  stays : ∀ seen rest, later=seen++rest→(final step b seen).state=.closed→
    (final step b later).state=.closed

/-- Whatever history of overlapping calls a breaker has: when the last failure is
its recovery timeout ago and no more are reported, it refuses nobody and closes
after the configured number of successes, on whichever calls. -/
theorem recovers (serverId : String) (failureThreshold : ℤ) (recoveryTimeout : ℚ)
    (probeSuccesses : ℤ) (before later : List TimedOperation)
    (hquiet : ∀ a∈before, a.operation=.onFailure→∀ c∈later, a.time+recoveryTimeout≤c.time)
    (hhealthy : ∀ a∈later, a.operation≠.onFailure) :
    Recovers
      (final step (new serverId failureThreshold recoveryTimeout probeSuccesses) before) later := by
  have hfounded := founded_run
    (founded_new serverId failureThreshold recoveryTimeout probeSuccesses) before
  rw [List.nil_append] at hfounded
  have htimeout : (final step (new serverId failureThreshold recoveryTimeout probeSuccesses)
      before).recoveryTimeout=recoveryTimeout :=
    (final_settings (new serverId failureThreshold recoveryTimeout probeSuccesses) before).1
  generalize final step (new serverId failureThreshold recoveryTimeout probeSuccesses) before=b
    at hfounded htimeout
  have hadmits : ∀ waiting now rest, later=waiting++⟨now,.beforeCall⟩::rest→
      ∃ admitted, (final step b waiting).beforeCall now=.ok admitted ∧
        admitted=step (final step b waiting) ⟨now,.beforeCall⟩ ∧
        Mends b.probeSuccesses.toNat admitted := by
    intro waiting now rest hsplit
    obtain ⟨hwaited,hneeded⟩ := final_settings b waiting
    rw [←hneeded]
    refine admits_quiet (founded_run hfounded waiting) ?_
    intro a ha hfail
    rw [hwaited,htimeout]
    rcases List.mem_append.mp ha with hold | hnew
    · refine hquiet a hold hfail ⟨now,.beforeCall⟩ ?_
      rw [hsplit]
      exact List.mem_append_right _ List.mem_cons_self
    · refine absurd hfail (hhealthy a ?_)
      rw [hsplit]
      exact List.mem_append_left _ hnew
  refine ⟨?_,?_,?_⟩
  · intro waiting now rest hsplit
    obtain ⟨admitted,hok,-,-⟩ := hadmits waiting now rest hsplit
    exact ⟨admitted,hok⟩
  · intro waiting now rest hsplit hone hall
    obtain ⟨admitted,-,hstep,hmends⟩ := hadmits waiting now rest hsplit
    have hrest : ∀ a∈rest, a.operation≠.onFailure := by
      intro a ha
      refine hhealthy a ?_
      rw [hsplit]
      exact List.mem_append_right _ (List.mem_cons_of_mem _ ha)
    have hclosed := mends_run hmends hrest hone (by omega)
    rw [hsplit,final,List.foldl_append,List.foldl_cons]
    rw [hstep] at hclosed
    exact hclosed
  · intro seen rest hsplit hclosed
    rw [hsplit,final,List.foldl_append]
    refine closed_run hclosed ?_
    intro a ha
    refine hhealthy a ?_
    rw [hsplit]
    exact List.mem_append_right _ ha

theorem recovers_opened :
    Recovers (final step (new "pg" 1 30 2) [⟨7,.onFailure⟩])
      [⟨37,.beforeCall⟩,⟨38,.beforeCall⟩,⟨39,.onSuccess⟩,⟨40,.onSuccess⟩] := by
  refine recovers "pg" 1 30 2 [⟨7,.onFailure⟩]
    [⟨37,.beforeCall⟩,⟨38,.beforeCall⟩,⟨39,.onSuccess⟩,⟨40,.onSuccess⟩] ?_ ?_
  · simp only [List.mem_cons,List.not_mem_nil,or_false]
    rintro a rfl - c (rfl | rfl | rfl | rfl) <;> norm_num
  · decide

end Runs

end McpGateway.BreakerRecovery
