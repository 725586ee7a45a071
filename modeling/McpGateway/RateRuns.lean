import Mathlib
import McpGateway.StepRun
import McpGateway.TokenRefill
import McpGateway.RateLimiting

/-!
# Runs of the rate limiter

Checks of any agents on any tools reach one limiter in any order. A check
reads the bucket of its agent and, when that grants a token, the bucket of
its agent and tool; both are refilled to the time of the check first. The
granted checks of an agent form a ledger of its bucket, which bounds them in
every window of time.
-/

namespace McpGateway.RateRuns

open PyDict PyNumber GatewaySettings StepRun TokenRefill RateLimiting

/-- Configured rate of an agent. -/
abbrev agentRate (cfg : RateLimiterConfig) (agentId : String) : ℚ :=
  overridden cfg.agents agentId "agent_rate" cfg.defaultAgentRate

/-- Configured burst of an agent. -/
abbrev agentBurst (cfg : RateLimiterConfig) (agentId : String) : ℚ :=
  overridden cfg.agents agentId "agent_burst" cfg.defaultAgentBurst

/-- Configured rate of a tool. -/
abbrev toolRate (cfg : RateLimiterConfig) (qualifiedTool : String) : ℚ :=
  overridden cfg.tools qualifiedTool "rate" cfg.defaultToolRate

/-- Configured burst of a tool. -/
abbrev toolBurst (cfg : RateLimiterConfig) (qualifiedTool : String) : ℚ :=
  overridden cfg.tools qualifiedTool "burst" cfg.defaultToolBurst

/-- Every effective rate is positive. -/
structure Positive (cfg : RateLimiterConfig) : Prop where
  /-- Rates of agents. -/
  agentRate : ∀ agentId, 0<agentRate cfg agentId
  /-- Rates of tools. -/
  toolRate : ∀ qualifiedTool, 0<toolRate cfg qualifiedTool

/-- Every effective rate is positive and no effective burst is negative. -/
structure Configured (cfg : RateLimiterConfig) : Prop extends Positive cfg where
  /-- Bursts of agents. -/
  agentBurst : ∀ agentId, 0≤agentBurst cfg agentId
  /-- Bursts of tools. -/
  toolBurst : ∀ qualifiedTool, 0≤toolBurst cfg qualifiedTool

/-- A check with its clock reading. -/
structure TimedCheck where
  /-- Monotonic clock. -/
  time : ℚ
  /-- Who calls. -/
  agentId : String
  /-- What is called. -/
  qualifiedTool : String

deriving instance DecidableEq for RateVerdict

/-- A check with its outcome. -/
structure CheckEvent where
  /-- The check. -/
  check : TimedCheck
  /-- What it returned or raised. -/
  verdict : RateVerdict

/-- The limiter after a check. -/
def step (limiter : RateLimiter) (c : TimedCheck) : RateLimiter :=
  (limiter.check c.time c.agentId c.qualifiedTool).1

/-- A check that reports its outcome. -/
def observe (limiter : RateLimiter) (c : TimedCheck) : RateLimiter×Option CheckEvent :=
  (step limiter c,some ⟨c,(limiter.check c.time c.agentId c.qualifiedTool).2⟩)

/-- A limiter as its constructor leaves it. -/
def start (cfg : RateLimiterConfig) : RateLimiter := {cfg := cfg}

/-- The checks with their outcomes, in order. -/
abbrev outcomes (limiter : RateLimiter) (checks : List TimedCheck) : List CheckEvent :=
  (run observe limiter checks).2

/-- The clock readings do not go back. -/
def Ordered (checks : List TimedCheck) : Prop := checks.Pairwise (fun c d => c.time≤d.time)

/-- The first check has the earliest clock reading. -/
theorem Ordered.head_le {c : TimedCheck} {checks : List TimedCheck} (h : Ordered (c::checks)) :
    ∀ d∈c::checks, c.time≤d.time := by
  intro d hd
  rcases List.mem_cons.mp hd with rfl | hd
  · exact le_rfl
  · exact (List.pairwise_cons.mp h).1 d hd

/-- Outcomes, one check at a time. -/
theorem outcomes_cons (limiter : RateLimiter) (c : TimedCheck) (checks : List TimedCheck) :
    outcomes limiter (c::checks)=
      ⟨c,(limiter.check c.time c.agentId c.qualifiedTool).2⟩::outcomes (step limiter c) checks :=
  rfl

/-- The tokens were taken. -/
def passes : Consumed→Bool
  | .granted => true
  | _ => false

/-- The check returned without raising. -/
def returns : RateVerdict→Bool
  | .granted => true
  | _ => false

/-- A bucket after its refill. -/
def filled (bucket : TokenBucket) (now : ℚ) : TokenBucket :=
  {bucket with
    tokens := refill bucket.capacity bucket.rate bucket.tokens (now-bucket.last),last := now}

/-- A token is taken from a refilled bucket that has one. -/
theorem consume_granted {bucket : TokenBucket} {now : ℚ} (h : 1≤(filled bucket now).tokens) :
    bucket.consume now=
      ({filled bucket now with tokens := (filled bucket now).tokens-1},.granted) := by
  unfold TokenBucket.consume
  exact if_pos h

/-- A bucket without a token is refilled and refuses, naming the wait. -/
theorem consume_refused {bucket : TokenBucket} {now : ℚ} (h : (filled bucket now).tokens<1)
    (hr : bucket.rate≠0) : bucket.consume now=(filled bucket now,
      .refused (roundTo 3 ((1-(filled bucket now).tokens)/bucket.rate))) := by
  unfold TokenBucket.consume
  have hshort : ¬1≤ min bucket.capacity (bucket.tokens+(now-bucket.last)*bucket.rate) :=
    not_le.mpr h
  simp only [if_neg hshort,if_neg hr]
  rfl

/-- What is taken from a bucket depends on its refilled content only. -/
theorem consume_congr {bucket bucket' : TokenBucket} {now : ℚ}
    (h : filled bucket now=filled bucket' now) : bucket.consume now=bucket'.consume now := by
  have hconsume : ∀ b : TokenBucket, b.consume now=
      if 1≤(filled b now).tokens then
        ({filled b now with tokens := (filled b now).tokens-1},.granted)
      else if (filled b now).rate=0 then (filled b now,.divisionByZero)
      else (filled b now,.refused (roundTo 3 ((1-(filled b now).tokens)/(filled b now).rate))) :=
    fun b => rfl
  rw [hconsume,hconsume,h]

/-- Refilling twice is refilling once at the later time. -/
theorem filled_filled {bucket : TokenBucket} (hr : 0≤bucket.rate) {now later : ℚ}
    (hl : now≤later) : filled (filled bucket now) later=filled bucket later := by
  have htwice : refill bucket.capacity bucket.rate
      (refill bucket.capacity bucket.rate bucket.tokens (now-bucket.last)) (later-now)=
      refill bucket.capacity bucket.rate bucket.tokens (later-bucket.last) := by
    rw [refill_refill hr (sub_nonneg.mpr hl),sub_add_sub_cancel']
  exact congrArg (fun tokens => TokenBucket.mk _ _ tokens later) htwice

/-- Outcome of a check from those of its two buckets. -/
def verdict (agentId qualifiedTool : String) (agent tool : Consumed) : RateVerdict :=
  match agent with
  | .refused retry => .exceeded ("agent:"++agentId) retry
  | .divisionByZero => .divisionByZero
  | .granted =>
    match tool with
    | .refused retry => .exceeded ("tool:"++toolKey agentId qualifiedTool) retry
    | .divisionByZero => .divisionByZero
    | .granted => .granted

section Enabled

variable {limiter : RateLimiter} (he : limiter.cfg.enabled=true) (now : ℚ)
  (agentId qualifiedTool : String)

include he

/-- The outcome is that of the two buckets. -/
theorem check_verdict : (limiter.check now agentId qualifiedTool).2=
    verdict agentId qualifiedTool ((limiter.agentBucket agentId now).consume now).2
      ((limiter.toolBucket agentId qualifiedTool now).consume now).2 := by
  unfold RateLimiter.check verdict
  rw [if_neg (by rw [he]; exact Bool.noConfusion)]
  dsimp only
  cases hagent : ((limiter.agentBucket agentId now).consume now).2 with
  | refused retry => rfl
  | divisionByZero => rfl
  | granted =>
    dsimp only
    have hsame : RateLimiter.toolBucket {limiter with
        agentBuckets := limiter.agentBuckets.set agentId
          ((limiter.agentBucket agentId now).consume now).1} agentId qualifiedTool now=
        limiter.toolBucket agentId qualifiedTool now := rfl
    rw [hsame]
    cases ((limiter.toolBucket agentId qualifiedTool now).consume now).2 <;> rfl

/-- The agent's bucket is stored whatever it answers; no other changes. -/
theorem check_agentBuckets : (limiter.check now agentId qualifiedTool).1.agentBuckets=
    limiter.agentBuckets.set agentId ((limiter.agentBucket agentId now).consume now).1 := by
  unfold RateLimiter.check
  rw [if_neg (by rw [he]; exact Bool.noConfusion)]
  dsimp only
  split
  · rfl
  · rfl
  · split <;> rfl

/-- The tool's bucket is read and stored when the agent's grants a token. -/
theorem check_toolBuckets : (limiter.check now agentId qualifiedTool).1.toolBuckets=
    if passes ((limiter.agentBucket agentId now).consume now).2=true then
      limiter.toolBuckets.set (toolKey agentId qualifiedTool)
        ((limiter.toolBucket agentId qualifiedTool now).consume now).1
    else limiter.toolBuckets := by
  unfold RateLimiter.check
  rw [if_neg (by rw [he]; exact Bool.noConfusion)]
  dsimp only
  split
  · rename_i hagent
    rw [hagent]
    rfl
  · rename_i hagent
    rw [hagent]
    rfl
  · rename_i hagent
    rw [hagent]
    split <;> rfl

end Enabled

/-- The settings never change. -/
theorem check_cfg (limiter : RateLimiter) (now : ℚ) (agentId qualifiedTool : String) :
    (limiter.check now agentId qualifiedTool).1.cfg=limiter.cfg := by
  unfold RateLimiter.check
  split
  · rfl
  · dsimp only
    split
    · rfl
    · rfl
    · split <;> rfl

/-- A check keeps the settings. -/
theorem step_cfg (limiter : RateLimiter) (c : TimedCheck) :
    (step limiter c).cfg=limiter.cfg := check_cfg ..

/-- A check of an enabled limiter stores its agent's bucket. -/
theorem step_agentBuckets {limiter : RateLimiter} (he : limiter.cfg.enabled=true)
    (c : TimedCheck) : (step limiter c).agentBuckets=limiter.agentBuckets.set c.agentId
      ((limiter.agentBucket c.agentId c.time).consume c.time).1 := check_agentBuckets he ..

/-- A check of an enabled limiter that its agent can pay for stores the bucket
of its agent and tool. -/
theorem step_toolBuckets {limiter : RateLimiter} (he : limiter.cfg.enabled=true)
    (c : TimedCheck) : (step limiter c).toolBuckets=
      if passes ((limiter.agentBucket c.agentId c.time).consume c.time).2=true then
        limiter.toolBuckets.set (toolKey c.agentId c.qualifiedTool)
          ((limiter.toolBucket c.agentId c.qualifiedTool c.time).consume c.time).1
      else limiter.toolBuckets := check_toolBuckets he ..

/-- A content up to the capacity, known at a past time. -/
structure BucketKept (clock : ℚ) (bucket : TokenBucket) : Prop where
  /-- Tokens flow in. -/
  inflow : 0<bucket.rate
  /-- Tokens are never owed, unless the capacity is. -/
  nonneg : 0≤bucket.capacity→0≤bucket.tokens
  /-- The burst is never exceeded. -/
  capped : bucket.tokens≤bucket.capacity
  /-- The last refill is in the past. -/
  past : bucket.last≤clock

/-- Time passes. -/
theorem BucketKept.mono {clock now : ℚ} {bucket : TokenBucket} (h : BucketKept clock bucket)
    (hnow : clock≤now) : BucketKept now bucket := {h with past := h.past.trans hnow}

/-- A refill keeps the content within its bounds. -/
theorem BucketKept.filled {clock now : ℚ} {bucket : TokenBucket} (h : BucketKept clock bucket)
    (hnow : clock≤now) : BucketKept now (filled bucket now) := by
  have helapsed : 0≤now-bucket.last := by linarith [h.past]
  refine ⟨h.inflow,fun hcapacity => ?_,refill_le_capacity,le_rfl⟩
  exact refill_nonneg hcapacity h.inflow.le (h.nonneg hcapacity) helapsed

/-- Taking a token keeps the content within its bounds and leaves at most
what was not granted. -/
theorem BucketKept.consume {clock now : ℚ} {bucket : TokenBucket} (h : BucketKept clock bucket)
    (hnow : clock≤now) :
    BucketKept now (bucket.consume now).1 ∧
    (bucket.consume now).1.rate=bucket.rate ∧
    (bucket.consume now).1.capacity=bucket.capacity ∧
    (bucket.consume now).1.last=now ∧
    (bucket.consume now).1.tokens+(if passes (bucket.consume now).2=true then 1 else 0)=
      (RateRuns.filled bucket now).tokens := by
  have hfilled := h.filled hnow
  rcases le_or_gt 1 (RateRuns.filled bucket now).tokens with hone | hshort
  · rw [consume_granted hone]
    refine ⟨⟨h.inflow,?_,?_,le_rfl⟩,rfl,rfl,rfl,?_⟩
    · exact fun _ => sub_nonneg.mpr hone
    · exact (sub_le_self _ zero_le_one).trans hfilled.capped
    · simp [passes]
  · rw [consume_refused hshort h.inflow.ne']
    refine ⟨hfilled,rfl,rfl,rfl,?_⟩
    simp [passes]

/-- A new bucket is full. -/
theorem bucketKept_new {rate capacity now : ℚ} (hr : 0<rate) :
    BucketKept now (TokenBucket.new rate capacity now) := ⟨hr,fun hc => hc,le_rfl,le_rfl⟩

/-- The bucket of an agent is within its bounds and configured. -/
structure OwnKept (agentId : String) (clock : ℚ) (limiter : RateLimiter) : Prop where
  /-- The rate of the agent. -/
  rate : 0<agentRate limiter.cfg agentId
  /-- Its bucket, if there is one. -/
  bucket : ∀ bucket, limiter.agentBuckets.get? agentId=some bucket→
    BucketKept clock bucket ∧ bucket.rate=agentRate limiter.cfg agentId ∧
      bucket.capacity=agentBurst limiter.cfg agentId

/-- A new limiter has no bucket of the agent. -/
theorem ownKept_start {cfg : RateLimiterConfig} {agentId : String} (hr : 0<agentRate cfg agentId)
    (clock : ℚ) : OwnKept agentId clock (start cfg) := ⟨hr,fun _ h => (by cases h)⟩

/-- Time passes. -/
theorem OwnKept.mono {agentId : String} {clock now : ℚ} {limiter : RateLimiter}
    (h : OwnKept agentId clock limiter) (hnow : clock≤now) : OwnKept agentId now limiter := by
  refine ⟨h.rate,fun bucket hb => ?_⟩
  obtain ⟨hkept,hconfigured⟩ := h.bucket bucket hb
  exact ⟨hkept.mono hnow,hconfigured⟩

/-- The bucket the agent is charged to. -/
theorem OwnKept.agentBucket {agentId : String} {clock now : ℚ} {limiter : RateLimiter}
    (h : OwnKept agentId clock limiter) (hnow : clock≤now) :
    BucketKept now (limiter.agentBucket agentId now) ∧
    (limiter.agentBucket agentId now).rate=agentRate limiter.cfg agentId ∧
    (limiter.agentBucket agentId now).capacity=agentBurst limiter.cfg agentId := by
  unfold RateLimiter.agentBucket
  cases hb : limiter.agentBuckets.get? agentId with
  | none => exact ⟨bucketKept_new h.rate,rfl,rfl⟩
  | some bucket =>
    obtain ⟨hkept,hconfigured⟩ := h.bucket bucket hb
    exact ⟨hkept.mono hnow,hconfigured⟩

/-- A check, whoever makes it, keeps the bucket within its bounds. -/
theorem OwnKept.step {agentId : String} {clock : ℚ} {limiter : RateLimiter}
    (h : OwnKept agentId clock limiter) (he : limiter.cfg.enabled=true) {c : TimedCheck}
    (hnow : clock≤c.time) : OwnKept agentId c.time (step limiter c) := by
  have hcfg := step_cfg limiter c
  refine ⟨hcfg.symm ▸ h.rate,fun bucket hb => ?_⟩
  rw [step_agentBuckets he,Dict.get?_set] at hb
  rw [hcfg]
  split at hb
  · rename_i hid
    cases hb
    cases hid
    obtain ⟨hbucket,hbucketRate,hbucketCapacity⟩ := h.agentBucket hnow
    obtain ⟨hkept,hrate,hcapacity,-⟩ := hbucket.consume le_rfl
    exact ⟨hkept,hrate.trans hbucketRate,hcapacity.trans hbucketCapacity⟩
  · exact (h.mono hnow).bucket bucket hb

/-- All buckets are within their bounds and configured. -/
structure Kept (clock : ℚ) (limiter : RateLimiter) : Prop where
  /-- The settings. -/
  positive : Positive limiter.cfg
  /-- Buckets of agents. -/
  agents : ∀ agentId, OwnKept agentId clock limiter
  /-- Buckets of tools. -/
  tools : ∀ key bucket, limiter.toolBuckets.get? key=some bucket→
    BucketKept clock bucket ∧ ∃ qualifiedTool, bucket.capacity=toolBurst limiter.cfg qualifiedTool

/-- A new limiter has no buckets. -/
theorem kept_start {cfg : RateLimiterConfig} (hc : Positive cfg) (clock : ℚ) :
    Kept clock (start cfg) :=
  ⟨hc,fun agentId => ownKept_start (hc.agentRate agentId) clock,fun _ _ h => (by cases h)⟩

/-- Time passes. -/
theorem Kept.mono {clock now : ℚ} {limiter : RateLimiter} (h : Kept clock limiter)
    (hnow : clock≤now) : Kept now limiter := by
  refine ⟨h.positive,fun agentId => (h.agents agentId).mono hnow,fun key bucket hb => ?_⟩
  obtain ⟨hkept,hconfigured⟩ := h.tools key bucket hb
  exact ⟨hkept.mono hnow,hconfigured⟩

/-- The bucket a tool is charged to. -/
theorem Kept.toolBucket {clock now : ℚ} {limiter : RateLimiter} (h : Kept clock limiter)
    (hnow : clock≤now) (agentId qualifiedTool : String) :
    BucketKept now (limiter.toolBucket agentId qualifiedTool now) ∧
    ∃ tool, (limiter.toolBucket agentId qualifiedTool now).capacity=
      toolBurst limiter.cfg tool := by
  unfold RateLimiter.toolBucket
  cases hb : limiter.toolBuckets.get? (toolKey agentId qualifiedTool) with
  | none => exact ⟨bucketKept_new (h.positive.toolRate qualifiedTool),qualifiedTool,rfl⟩
  | some bucket =>
    obtain ⟨hkept,hconfigured⟩ := h.tools _ bucket hb
    exact ⟨hkept.mono hnow,hconfigured⟩

/-- A check keeps every bucket within its bounds. -/
theorem Kept.step {clock : ℚ} {limiter : RateLimiter} (h : Kept clock limiter)
    (he : limiter.cfg.enabled=true) {c : TimedCheck} (hnow : clock≤c.time) :
    Kept c.time (step limiter c) := by
  have hcfg := step_cfg limiter c
  obtain ⟨htool,tool,hcapacity⟩ := h.toolBucket hnow c.agentId c.qualifiedTool
  refine ⟨hcfg.symm ▸ h.positive,fun agentId => (h.agents agentId).step he hnow,
    fun key bucket hb => ?_⟩
  rw [step_toolBuckets he] at hb
  rw [hcfg]
  split at hb
  · rw [Dict.get?_set] at hb
    split at hb
    · cases hb
      obtain ⟨hkept,-,hsame,-⟩ := htool.consume le_rfl
      exact ⟨hkept,tool,hsame.trans hcapacity⟩
    · exact (h.mono hnow).tools key bucket hb
  · exact (h.mono hnow).tools key bucket hb

/-- The settings stay along a run. -/
theorem final_cfg (limiter : RateLimiter) (checks : List TimedCheck) :
    (final step limiter checks).cfg=limiter.cfg :=
  final_invariant (I:=fun l : RateLimiter => l.cfg=limiter.cfg)
    (fun l c h => (step_cfg l c).trans h) rfl checks

/-- A run keeps every bucket within its bounds. -/
theorem Kept.final {clock now : ℚ} {limiter : RateLimiter} (h : Kept clock limiter)
    (he : limiter.cfg.enabled=true) {checks : List TimedCheck} (hnow : clock≤now)
    (ho : Ordered checks) (hclock : ∀ c∈checks, clock≤c.time ∧ c.time≤now) :
    Kept now (StepRun.final RateRuns.step limiter checks) := by
  induction checks generalizing limiter clock with
  | nil => exact h.mono hnow
  | cons c checks ih =>
    obtain ⟨hlater,ho⟩ := List.pairwise_cons.mp ho
    obtain ⟨hpast,hfuture⟩ := hclock c List.mem_cons_self
    have hcfg := step_cfg limiter c
    refine ih (h.step he hpast) (hcfg.symm ▸ he) hfuture ho fun d hd => ⟨hlater d hd,?_⟩
    exact (hclock d (List.mem_cons_of_mem _ hd)).2

/-- A new limiter keeps its buckets until any later check. -/
theorem kept_final_start {cfg : RateLimiterConfig} (hc : Positive cfg) (he : cfg.enabled=true)
    {checks : List TimedCheck} {c : TimedCheck} (ho : Ordered (checks++[c])) :
    Kept c.time (final step (start cfg) checks) := by
  obtain ⟨hchecks,-,hlast⟩ := List.pairwise_append.mp ho
  have hpast : ∀ d∈checks, d.time≤c.time := fun d hd => hlast d hd c List.mem_cons_self
  cases checks with
  | nil => exact kept_start hc c.time
  | cons d checks =>
    have hfirst := Ordered.head_le hchecks
    exact (kept_start hc d.time).final he (hpast d List.mem_cons_self) hchecks
      fun x hx => ⟨hfirst x hx,hpast x hx⟩

/-- Every content is between zero and the capacity of its bucket. -/
structure Bounded (limiter : RateLimiter) : Prop where
  /-- Buckets of agents. -/
  agents : ∀ agentId bucket, limiter.agentBuckets.get? agentId=some bucket→
    0≤bucket.tokens ∧ bucket.tokens≤bucket.capacity
  /-- Buckets of agents and tools. -/
  tools : ∀ key bucket, limiter.toolBuckets.get? key=some bucket→
    0≤bucket.tokens ∧ bucket.tokens≤bucket.capacity

/-- Kept buckets are bounded, when no burst is negative. -/
theorem Kept.bounded {clock : ℚ} {limiter : RateLimiter} (h : Kept clock limiter)
    (hc : Configured limiter.cfg) : Bounded limiter := by
  refine ⟨fun agentId bucket hb => ?_,fun key bucket hb => ?_⟩
  · obtain ⟨hkept,-,hcapacity⟩ := (h.agents agentId).bucket bucket hb
    exact ⟨hkept.nonneg (hcapacity ▸ hc.agentBurst agentId),hkept.capped⟩
  · obtain ⟨hkept,tool,hcapacity⟩ := h.tools key bucket hb
    exact ⟨hkept.nonneg (hcapacity ▸ hc.toolBurst tool),hkept.capped⟩

/-- The buckets stay bounded along a run. -/
theorem bounded_run {clock : ℚ} {limiter : RateLimiter} (h : Kept clock limiter)
    (hc : Configured limiter.cfg) (he : limiter.cfg.enabled=true) {checks : List TimedCheck}
    (ho : Ordered checks) (hclock : ∀ c∈checks, clock≤c.time) :
    Always step Bounded limiter checks := by
  induction checks generalizing limiter clock with
  | nil => exact h.bounded hc
  | cons c checks ih =>
    obtain ⟨hlater,ho⟩ := List.pairwise_cons.mp ho
    have hcfg := step_cfg limiter c
    have hnext := h.step he (hclock c List.mem_cons_self)
    exact ⟨h.bounded hc,ih hnext (hcfg.symm ▸ hc) (hcfg.symm ▸ he) ho hlater⟩

/-- The checks of an agent, each with whether it returned. -/
def entriesOf (agentId : String) (events : List CheckEvent) : List (ℚ×Bool) :=
  (events.filter (fun e => decide (e.check.agentId=agentId))).map
    (fun e => (e.check.time,returns e.verdict))

/-- A check that returns has taken a token of the agent's bucket. -/
theorem passes_of_returns {limiter : RateLimiter} (he : limiter.cfg.enabled=true) {now : ℚ}
    {agentId qualifiedTool : String}
    (h : returns (limiter.check now agentId qualifiedTool).2=true) :
    passes ((limiter.agentBucket agentId now).consume now).2=true := by
  rw [check_verdict he] at h
  cases hagent : ((limiter.agentBucket agentId now).consume now).2 with
  | granted => rfl
  | refused retry => rw [hagent] at h; cases h
  | divisionByZero => rw [hagent] at h; cases h

/-- A new bucket is as full at any later time. -/
theorem filled_agentBucket {agentId : String} {clock now : ℚ} {limiter : RateLimiter}
    (h : OwnKept agentId clock limiter) (hnow : clock≤now) :
    filled (limiter.agentBucket agentId clock) now=
      filled (limiter.agentBucket agentId now) now := by
  unfold RateLimiter.agentBucket
  cases hb : limiter.agentBuckets.get? agentId with
  | none =>
    have hrate := h.rate.le
    have hwaited : refill (agentBurst limiter.cfg agentId) (agentRate limiter.cfg agentId)
        (agentBurst limiter.cfg agentId) (now-clock)=agentBurst limiter.cfg agentId :=
      refill_full hrate (sub_nonneg.mpr hnow)
    have hnew : refill (agentBurst limiter.cfg agentId) (agentRate limiter.cfg agentId)
        (agentBurst limiter.cfg agentId) (now-now)=agentBurst limiter.cfg agentId :=
      refill_full hrate (sub_nonneg.mpr le_rfl)
    rw [Option.getD_none,Option.getD_none]
    exact congrArg (fun tokens => TokenBucket.mk _ _ tokens now) (hwaited.trans hnew.symm)
  | some bucket => rfl

/-- A check of an agent is an entry before the ledger of its later checks. -/
theorem ledger_own {clock : ℚ} {limiter : RateLimiter} (h : Kept clock limiter)
    (hc : Configured limiter.cfg) (he : limiter.cfg.enabled=true) {c : TimedCheck}
    (hnow : clock≤c.time)
    {entries : List (ℚ×Bool)}
    (hrest : Ledger (agentBurst limiter.cfg c.agentId) (agentRate limiter.cfg c.agentId)
      ((step limiter c).agentBucket c.agentId c.time).tokens
      ((step limiter c).agentBucket c.agentId c.time).last entries) :
    Ledger (agentBurst limiter.cfg c.agentId) (agentRate limiter.cfg c.agentId)
      (limiter.agentBucket c.agentId clock).tokens (limiter.agentBucket c.agentId clock).last
      ((c.time,returns (limiter.check c.time c.agentId c.qualifiedTool).2)::entries) := by
  have hbucket : (step limiter c).agentBucket c.agentId c.time=
      ((limiter.agentBucket c.agentId c.time).consume c.time).1 := by
    rw [RateLimiter.agentBucket,step_agentBuckets he,Dict.get?_set_self,Option.getD_some]
  obtain ⟨hkept,-,hburst⟩ := (h.agents c.agentId).agentBucket hnow
  obtain ⟨hnext,-,hsame,hlast,hspent⟩ := hkept.consume le_rfl
  obtain ⟨hfirst,hrate,hcapacity⟩ := (h.agents c.agentId).agentBucket le_rfl
  have hnonneg := hnext.nonneg (by rw [hsame,hburst]; exact hc.agentBurst c.agentId)
  rw [hbucket,hlast] at hrest
  refine .entry (hfirst.past.trans hnow) hnonneg ?_ hrest
  have hfilled := congrArg TokenBucket.tokens (filled_agentBucket (h.agents c.agentId) hnow)
  rw [←hspent,filled,hrate,hcapacity] at hfilled
  refine le_trans (add_le_add_right ?_ _) hfilled.ge
  split
  · rename_i hreturns
    rw [passes_of_returns he hreturns]
    exact le_rfl
  · split <;> norm_num

/-- A check of another agent leaves the ledger as it was: a bucket that is
still to be created is full at any time. -/
theorem ledger_other {clock : ℚ} {limiter : RateLimiter} (h : Kept clock limiter)
    (he : limiter.cfg.enabled=true) {c : TimedCheck} (hnow : clock≤c.time) {agentId : String}
    (hne : c.agentId≠agentId) {entries : List (ℚ×Bool)}
    (hrest : Ledger (agentBurst limiter.cfg agentId) (agentRate limiter.cfg agentId)
      ((step limiter c).agentBucket agentId c.time).tokens
      ((step limiter c).agentBucket agentId c.time).last entries) :
    Ledger (agentBurst limiter.cfg agentId) (agentRate limiter.cfg agentId)
      (limiter.agentBucket agentId clock).tokens (limiter.agentBucket agentId clock).last
      entries := by
  have hsame : (step limiter c).agentBuckets.get? agentId=limiter.agentBuckets.get? agentId := by
    rw [step_agentBuckets he,Dict.get?_set_other _ hne]
  rw [RateLimiter.agentBucket,hsame,step_cfg] at hrest
  rw [RateLimiter.agentBucket]
  cases hb : limiter.agentBuckets.get? agentId with
  | none =>
    rw [hb] at hrest
    exact hrest.full_earlier (h.positive.agentRate agentId).le hnow
  | some bucket =>
    rw [hb] at hrest
    exact hrest

/-- The checks of an agent form a ledger of its bucket. -/
theorem ledger_run {clock : ℚ} {limiter : RateLimiter} (h : Kept clock limiter)
    (hc : Configured limiter.cfg) (he : limiter.cfg.enabled=true) {checks : List TimedCheck}
    (ho : Ordered checks) (hclock : ∀ c∈checks, clock≤c.time) (agentId : String) :
    Ledger (agentBurst limiter.cfg agentId) (agentRate limiter.cfg agentId)
      (limiter.agentBucket agentId clock).tokens (limiter.agentBucket agentId clock).last
      (entriesOf agentId (outcomes limiter checks)) := by
  induction checks generalizing limiter clock with
  | nil => exact .nil
  | cons c checks ih =>
    obtain ⟨hlater,ho⟩ := List.pairwise_cons.mp ho
    have hnow := hclock c List.mem_cons_self
    have hcfg := step_cfg limiter c
    have hrest := ih (h.step he hnow) (hcfg.symm ▸ hc) (hcfg.symm ▸ he) ho hlater
    rw [hcfg] at hrest
    rw [outcomes_cons,entriesOf,List.filter_cons]
    split
    · rename_i hid
      cases of_decide_eq_true hid
      exact ledger_own h hc he hnow hrest
    · rename_i hid
      have hne : c.agentId≠agentId := fun heq => hid (decide_eq_true heq)
      exact ledger_other h he hnow hne hrest

/-- Checks of an agent from `t₁` to `t₂` that return. -/
def granted (agentId : String) (t₁ t₂ : ℚ) (events : List CheckEvent) : ℕ :=
  events.countP (fun e => decide (e.check.agentId=agentId ∧ t₁≤e.check.time ∧ e.check.time≤t₂) &&
    returns e.verdict)

/-- The count is read from the ledger of the agent. -/
theorem granted_entriesOf (agentId : String) (t₁ t₂ : ℚ) (events : List CheckEvent) :
    granted agentId t₁ t₂ events=grantedWithin t₁ t₂ (entriesOf agentId events) := by
  rw [granted,grantedWithin,entriesOf,List.countP_map,List.countP_filter]
  refine List.countP_congr fun e _ => ?_
  simp only [Function.comp_apply,Bool.and_eq_true,decide_eq_true_eq]
  tauto

/-- In every run of an enabled limiter with a clock that does not go back,
every content stays between zero and its capacity, and the checks of an agent
that return in a window of time are bounded by its burst and the inflow of
its rate. -/
theorem rate_bounded {cfg : RateLimiterConfig} (hc : Configured cfg) (he : cfg.enabled=true)
    {checks : List TimedCheck} (ho : Ordered checks) :
    Always step Bounded (start cfg) checks ∧
    ∀ agentId t₁ t₂, t₁≤t₂→(granted agentId t₁ t₂ (outcomes (start cfg) checks) : ℚ)≤
      agentBurst cfg agentId+agentRate cfg agentId*(t₂-t₁) := by
  refine ⟨?_,fun agentId t₁ t₂ ht => ?_⟩
  · cases checks with
    | nil => exact (kept_start hc.toPositive 0).bounded hc
    | cons c checks =>
      exact bounded_run (kept_start hc.toPositive c.time) hc he ho ho.head_le
  · have hrate := (hc.agentRate agentId).le
    have hburst := hc.agentBurst agentId
    have hledger : ∃ clock≤t₁, Ledger (agentBurst cfg agentId) (agentRate cfg agentId)
        (agentBurst cfg agentId) clock (entriesOf agentId (outcomes (start cfg) checks)) := by
      cases checks with
      | nil => exact ⟨t₁,le_rfl,.nil⟩
      | cons c checks =>
        refine ⟨min t₁ c.time,min_le_left _ _,
          ledger_run (kept_start hc.toPositive _) hc he ho ?_ agentId⟩
        exact fun d hd => (min_le_right _ _).trans (ho.head_le d hd)
    obtain ⟨clock,hclock,hledger⟩ := hledger
    have hwindow := hledger.grantedWithin_le hburst hrate hburst hclock ht
    rw [granted_entriesOf]
    rw [refill_full hrate (sub_nonneg.mpr hclock)] at hwindow
    exact hwindow

/-- The default settings are positive. -/
theorem configured_default : Configured {} where
  agentRate _ := (by norm_num : (0:ℚ)<10)
  agentBurst _ := (by norm_num : (0:ℚ)≤20)
  toolRate _ := (by norm_num : (0:ℚ)<5)
  toolBurst _ := (by norm_num : (0:ℚ)≤10)

theorem rate_bounded_default :
    Always step Bounded (start {}) [⟨0,"ops","pg.query"⟩,⟨1/2,"ops","pg.query"⟩] ∧
    ∀ agentId t₁ t₂, t₁≤t₂→
      (granted agentId t₁ t₂
        (outcomes (start {}) [⟨0,"ops","pg.query"⟩,⟨1/2,"ops","pg.query"⟩]) : ℚ)≤
      agentBurst {} agentId+agentRate {} agentId*(t₂-t₁) :=
  rate_bounded configured_default rfl (List.pairwise_pair.mpr (by norm_num))

end McpGateway.RateRuns
