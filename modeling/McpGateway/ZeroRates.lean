import Mathlib
import McpGateway.PyDict
import McpGateway.GatewaySettings
import McpGateway.StepRun
import McpGateway.TokenRefill
import McpGateway.RateLimiting
import McpGateway.RateRuns

/-!
# Buckets without an inflow

A configuration may give an agent or a tool the rate zero. Its bucket never
refills, so it grants as many requests as its burst has whole tokens, and the
next one divides by the rate. A run of checks is free of that exception
exactly when no such bucket is asked more often.
-/

namespace McpGateway.ZeroRates

open PyDict GatewaySettings StepRun TokenRefill RateLimiting RateRuns

/-- A bucket without an inflow after a number of requests. -/
structure Spent (burst : ℚ) (requests : ℕ) (bucket : TokenBucket) : Prop where
  /-- Nothing flows in. -/
  rate : bucket.rate=0
  /-- The burst. -/
  capacity : bucket.capacity=burst
  /-- Each request has taken one token while there was one. -/
  tokens : bucket.tokens=burst-(min requests ⌊burst⌋₊ : ℕ)

/-- A new bucket has answered no request. -/
theorem spent_new (burst now : ℚ) : Spent burst 0 (TokenBucket.new 0 burst now) := by
  refine ⟨rfl,rfl,?_⟩
  rw [Nat.zero_min,Nat.cast_zero,sub_zero]
  rfl

/-- A refill adds nothing. -/
theorem Spent.filled {burst : ℚ} {requests : ℕ} {bucket : TokenBucket}
    (h : Spent burst requests bucket) (now : ℚ) :
    (filled bucket now).tokens=burst-(min requests ⌊burst⌋₊ : ℕ) := by
  have hrefill : (RateRuns.filled bucket now).tokens=
      min bucket.capacity (bucket.tokens+(now-bucket.last)*bucket.rate) := rfl
  have hspent : (0 : ℚ)≤(min requests ⌊burst⌋₊ : ℕ) := Nat.cast_nonneg _
  rw [hrefill,h.rate,h.capacity,h.tokens,mul_zero,add_zero]
  exact min_eq_right (by linarith)

/-- A whole token is left while the requests are fewer than the burst has. -/
theorem one_le_left (burst : ℚ) (requests : ℕ) :
    1≤burst-(min requests ⌊burst⌋₊ : ℕ) ↔ requests<⌊burst⌋₊ := by
  constructor
  · intro h
    by_contra hn
    have hall : min requests ⌊burst⌋₊=⌊burst⌋₊ := min_eq_right (not_lt.mp hn)
    have hfloor := Nat.lt_floor_add_one burst
    rw [hall] at h
    linarith
  · intro h
    have hmin : min requests ⌊burst⌋₊=requests := min_eq_left h.le
    have hburst : ((requests+1 : ℕ) : ℚ)≤burst := (Nat.le_floor_iff' (Nat.succ_ne_zero _)).mp h
    rw [hmin]
    push_cast at hburst
    linarith

/-- A request takes a token when there is one and divides by zero otherwise. -/
theorem Spent.consume {burst : ℚ} {requests : ℕ} {bucket : TokenBucket}
    (h : Spent burst requests bucket) (now : ℚ) :
    Spent burst (requests+1) (bucket.consume now).1 ∧
    ((bucket.consume now).2=.divisionByZero ↔ ⌊burst⌋₊≤requests) := by
  have htokens := h.filled now
  rcases lt_or_ge requests ⌊burst⌋₊ with hleft | hgone
  · have hone : 1≤(RateRuns.filled bucket now).tokens :=
      htokens.symm ▸ (one_le_left burst requests).mpr hleft
    rw [consume_granted hone]
    refine ⟨⟨h.rate,h.capacity,?_⟩,fun hz => (by cases hz),fun hle => absurd hle (not_le.mpr hleft)⟩
    have hnow : min requests ⌊burst⌋₊=requests := min_eq_left hleft.le
    have hnext : min (requests+1) ⌊burst⌋₊=requests+1 := min_eq_left hleft
    dsimp only
    rw [htokens,hnow,hnext]
    push_cast
    ring
  · have hshort : ¬1≤(RateRuns.filled bucket now).tokens := by
      rw [htokens,one_le_left]
      exact not_lt.mpr hgone
    have hconsume : bucket.consume now=(RateRuns.filled bucket now,.divisionByZero) := by
      have hcases : bucket.consume now=
          if 1≤(RateRuns.filled bucket now).tokens then
            ({RateRuns.filled bucket now with tokens := (RateRuns.filled bucket now).tokens-1},
              .granted)
          else if bucket.rate=0 then (RateRuns.filled bucket now,.divisionByZero)
          else _ := rfl
      rw [hcases,if_neg hshort,if_pos h.rate]
    rw [hconsume]
    refine ⟨⟨h.rate,h.capacity,?_⟩,fun _ => hgone,fun _ => rfl⟩
    have hnow : min requests ⌊burst⌋₊=⌊burst⌋₊ := min_eq_right hgone
    have hnext : min (requests+1) ⌊burst⌋₊=⌊burst⌋₊ := min_eq_right (hgone.trans (Nat.le_succ _))
    rw [htokens,hnow,hnext]

/-- Requests never change the rate of a bucket. -/
theorem consume_rate (bucket : TokenBucket) (now : ℚ) :
    (bucket.consume now).1.rate=bucket.rate := by
  unfold TokenBucket.consume
  dsimp only
  split
  · rfl
  · split <;> rfl

/-- A bucket with a rate never divides by zero. -/
theorem consume_inflow {bucket : TokenBucket} (h : bucket.rate≠0) (now : ℚ) :
    (bucket.consume now).2≠.divisionByZero := by
  unfold TokenBucket.consume
  dsimp only
  rw [if_neg h]
  split <;> exact Consumed.noConfusion

section Tables

variable (key : TimedCheck→String) (rate burst : TimedCheck→ℚ)

/-- The requests a bucket created for a check can grant, when it is not
refilled. -/
def limit (c : TimedCheck) : Option ℕ := if rate c=0 then some ⌊burst c⌋₊ else none

/-- The stored or new bucket of a check. -/
def asked (table : Dict String TokenBucket) (c : TimedCheck) : TokenBucket :=
  (table.get? (key c)).getD (TokenBucket.new (rate c) (burst c) c.time)

/-- Number of requests under a key. -/
abbrev requestsOf (history : List TimedCheck) (k : String) : ℕ :=
  history.countP (fun d => key d==k)

/-- A bucket created for a check that has answered some requests since. -/
structure Account (first : TimedCheck) (requests : ℕ) (bucket : TokenBucket) : Prop where
  /-- The rate is that of its first request. -/
  inflow : bucket.rate=rate first
  /-- Without an inflow the requests have spent it. -/
  spent : rate first=0→Spent (burst first) requests bucket

/-- The bucket under a key was created for the first request made to it. -/
def Charged (table : Dict String TokenBucket) (history : List TimedCheck) : Prop :=
  ∀ k, match history.find? (fun d => key d==k) with
    | none => table.get? k=none
    | some first => ∃ bucket, table.get? k=some bucket ∧
        Account rate burst first (requestsOf key history k) bucket

variable {key rate burst} {table : Dict String TokenBucket} {history : List TimedCheck}

/-- One request more is accounted for. -/
theorem Account.consume {first : TimedCheck} {requests : ℕ} {bucket : TokenBucket}
    (h : Account rate burst first requests bucket) (now : ℚ) :
    Account rate burst first (requests+1) (bucket.consume now).1 :=
  ⟨(consume_rate bucket now).trans h.inflow,fun hz => ((h.spent hz).consume now).1⟩

/-- The bucket that a check asks has answered the requests under its key. -/
theorem Charged.asked (h : Charged key rate burst table history) (c : TimedCheck) :
    Account rate burst ((history.find? (fun d => key d==key c)).getD c)
      (requestsOf key history (key c)) (asked key rate burst table c) := by
  have hkey := h (key c)
  cases hf : history.find? (fun d => key d==key c) with
  | none =>
    rw [hf] at hkey
    have hnone : requestsOf key history (key c)=0 :=
      List.countP_eq_zero.mpr (List.find?_eq_none.mp hf)
    rw [ZeroRates.asked,hkey,hnone]
    refine ⟨rfl,fun hz => ?_⟩
    have hnew : TokenBucket.new (rate c) (burst c) c.time=
        TokenBucket.new 0 (burst c) c.time := congrArg (TokenBucket.new · _ _) hz
    exact hnew.symm ▸ spent_new (burst c) c.time
  | some first =>
    rw [hf] at hkey
    obtain ⟨bucket,hb,hfirst⟩ := hkey
    rw [ZeroRates.asked,hb]
    exact hfirst

/-- Storing the asked bucket charges its check. -/
theorem Charged.set (h : Charged key rate burst table history) (c : TimedCheck) :
    Charged key rate burst
      (table.set (key c) ((ZeroRates.asked key rate burst table c).consume c.time).1)
      (history++[c]) := by
  intro k
  have hcount : requestsOf key (history++[c]) k=
      requestsOf key history k+if key c=k then 1 else 0 := by
    by_cases hk : key c=k <;> simp [requestsOf,List.countP_append,hk]
  rw [find_first_append,Dict.get?_set,hcount]
  by_cases hk : key c=k
  · subst hk
    have hasked := (h.asked c).consume c.time
    rw [if_pos rfl,if_pos rfl,if_pos rfl]
    cases hf : history.find? (fun d => key d==key c) with
    | none => rw [hf] at hasked; exact ⟨_,rfl,hasked⟩
    | some first => rw [hf] at hasked; exact ⟨_,rfl,hasked⟩
  · rw [if_neg hk,if_neg hk,if_neg hk,Option.or_none,Nat.add_zero]
    exact h k

/-- The asked bucket divides by zero when it has no inflow and its requests
have used it up. -/
theorem Charged.division_iff (h : Charged key rate burst table history) (c : TimedCheck) :
    ((ZeroRates.asked key rate burst table c).consume c.time).2=.divisionByZero ↔
      ¬∀ n, limit rate burst ((history.find? (fun d => key d==key c)).getD c)=some n→
        requestsOf key history (key c)<n := by
  have hasked := h.asked c
  generalize (history.find? (fun d => key d==key c)).getD c=first at hasked ⊢
  by_cases hz : rate first=0
  · rw [((hasked.spent hz).consume c.time).2,limit,if_pos hz]
    simp only [Option.some.injEq,forall_eq',not_lt]
  · have hinflow : (ZeroRates.asked key rate burst table c).rate≠0 := hasked.inflow ▸ hz
    rw [limit,if_neg hz]
    refine ⟨fun hd => absurd hd (consume_inflow hinflow _),fun hn => ?_⟩
    exact absurd (fun _ h => (by cases h)) hn

end Tables

/-- The agent's bucket grants the check a token. -/
def admitted (limiter : RateLimiter) (c : TimedCheck) : Bool :=
  passes ((limiter.agentBucket c.agentId c.time).consume c.time).2

/-- A check that reports itself when it goes on to the bucket of its tool. -/
def reach (limiter : RateLimiter) (c : TimedCheck) : RateLimiter×Option TimedCheck :=
  (step limiter c,if admitted limiter c=true then some c else none)

/-- The checks that go on to the bucket of their tool. -/
abbrev reached (cfg : RateLimiterConfig) (checks : List TimedCheck) : List TimedCheck :=
  (run reach (start cfg) checks).2

/-- Key of the tool bucket of a check. -/
def bucketKey (c : TimedCheck) : String := toolKey c.agentId c.qualifiedTool

section Configuration

variable (cfg : RateLimiterConfig)

/-- Requests an agent without an inflow can make. -/
def agentLimit : TimedCheck→Option ℕ :=
  limit (fun c => agentRate cfg c.agentId) (fun c => agentBurst cfg c.agentId)

/-- Requests a tool bucket without an inflow can answer. -/
def toolLimit : TimedCheck→Option ℕ :=
  limit (fun c => toolRate cfg c.qualifiedTool) (fun c => toolBurst cfg c.qualifiedTool)

/-- No bucket without an inflow is asked more often than its burst has whole
tokens. -/
structure Affordable (checks : List TimedCheck) : Prop where
  /-- Buckets of agents. -/
  agents : WithinLimits TimedCheck.agentId (agentLimit cfg) checks
  /-- Buckets of tools, asked by the checks their agents can pay for. -/
  tools : WithinLimits bucketKey (toolLimit cfg) (reached cfg checks)

/-- Both tables account for the checks so far. -/
structure Accounted (limiter : RateLimiter) (checks : List TimedCheck) : Prop where
  /-- The settings. -/
  configured : limiter.cfg=cfg
  /-- Buckets of agents. -/
  agents : Charged TimedCheck.agentId (fun c => agentRate cfg c.agentId)
    (fun c => agentBurst cfg c.agentId) limiter.agentBuckets checks
  /-- Buckets of tools. -/
  tools : Charged bucketKey (fun c => toolRate cfg c.qualifiedTool)
    (fun c => toolBurst cfg c.qualifiedTool) limiter.toolBuckets (reached cfg checks)

variable {cfg}

/-- The states are those of the run of checks. -/
theorem reach_state (limiter : RateLimiter) (checks : List TimedCheck) :
    (run reach limiter checks).1=final step limiter checks := run_state limiter checks

/-- One check more reaches its tool when its agent can pay. -/
theorem reached_append (checks : List TimedCheck) (c : TimedCheck) :
    reached cfg (checks++[c])=reached cfg checks++
      if admitted (final step (start cfg) checks) c=true then [c] else [] := by
  rw [reached,run_append,reach_state]
  have hsingle : (run reach (final step (start cfg) checks) [c]).2=
      (reach (final step (start cfg) checks) c).2.toList := List.append_nil _
  rw [hsingle,reach]
  split <;> rfl

/-- A run keeps the accounts. -/
theorem accounted_final (he : cfg.enabled=true) (checks : List TimedCheck) :
    Accounted cfg (final step (start cfg) checks) checks := by
  induction checks using List.reverseRecOn with
  | nil => exact ⟨rfl,fun _ => rfl,fun _ => rfl⟩
  | append_singleton checks c ih =>
    obtain ⟨hcfg,hagents,htools⟩ := ih
    have hstep : final step (start cfg) (checks++[c])=
        step (final step (start cfg) checks) c := List.foldl_append
    have hreached : reached cfg (checks++[c])=reached cfg checks++
      if admitted (final step (start cfg) checks) c=true then [c] else [] := reached_append checks c
    rw [hstep]
    generalize final step (start cfg) checks=limiter at hcfg hagents htools hreached
    have henabled : limiter.cfg.enabled=true := hcfg.symm ▸ he
    refine ⟨(step_cfg limiter c).trans hcfg,?_,?_⟩
    · rw [step_agentBuckets henabled]
      subst hcfg
      exact hagents.set c
    · rw [step_toolBuckets henabled,hreached]
      unfold admitted
      subst hcfg
      split
      · exact htools.set c
      · rw [List.append_nil]
        exact htools

/-- A check divides by zero when its agent's bucket does, or that grants a
token and the bucket of the tool does. -/
theorem check_division_iff {limiter : RateLimiter} (he : limiter.cfg.enabled=true)
    (c : TimedCheck) : (limiter.check c.time c.agentId c.qualifiedTool).2=.divisionByZero ↔
      ((limiter.agentBucket c.agentId c.time).consume c.time).2=.divisionByZero ∨
      (admitted limiter c=true ∧
        ((limiter.toolBucket c.agentId c.qualifiedTool c.time).consume c.time).2=
          .divisionByZero) := by
  rw [check_verdict he,admitted]
  unfold verdict
  cases ((limiter.agentBucket c.agentId c.time).consume c.time).2 with
  | refused retry => simp [passes]
  | divisionByZero => simp
  | granted =>
    cases ((limiter.toolBucket c.agentId c.qualifiedTool c.time).consume c.time).2 <;>
      simp [passes]

/-- One check more is affordable when it does not divide by zero. -/
theorem affordable_append (he : cfg.enabled=true) (checks : List TimedCheck) (c : TimedCheck) :
    Affordable cfg (checks++[c]) ↔ Affordable cfg checks ∧
      ((final step (start cfg) checks).check c.time c.agentId c.qualifiedTool).2≠
        .divisionByZero := by
  obtain ⟨hcfg,hagents,htools⟩ := accounted_final he checks
  have hreached : reached cfg (checks++[c])=reached cfg checks++
    if admitted (final step (start cfg) checks) c=true then [c] else [] := reached_append checks c
  generalize final step (start cfg) checks=limiter at hcfg hagents htools hreached
  have henabled : limiter.cfg.enabled=true := hcfg.symm ▸ he
  have hagent := hagents.division_iff c
  have htool := htools.division_iff c
  have happend : Affordable cfg (checks++[c]) ↔
      WithinLimits TimedCheck.agentId (agentLimit cfg) (checks++[c]) ∧
      WithinLimits bucketKey (toolLimit cfg) (reached cfg (checks++[c])) :=
    ⟨fun h => ⟨h.agents,h.tools⟩,fun h => ⟨h.1,h.2⟩⟩
  have hbefore : Affordable cfg checks ↔
      WithinLimits TimedCheck.agentId (agentLimit cfg) checks ∧
      WithinLimits bucketKey (toolLimit cfg) (reached cfg checks) :=
    ⟨fun h => ⟨h.agents,h.tools⟩,fun h => ⟨h.1,h.2⟩⟩
  rw [happend,hbefore,withinLimits_append,hreached,ne_eq,check_division_iff henabled]
  subst hcfg
  have hagentBucket : limiter.agentBucket c.agentId c.time=
      asked TimedCheck.agentId (fun c => agentRate limiter.cfg c.agentId)
        (fun c => agentBurst limiter.cfg c.agentId) limiter.agentBuckets c := rfl
  have htoolBucket : limiter.toolBucket c.agentId c.qualifiedTool c.time=
      asked bucketKey (fun c => toolRate limiter.cfg c.qualifiedTool)
        (fun c => toolBurst limiter.cfg c.qualifiedTool) limiter.toolBuckets c := rfl
  rw [hagentBucket,hagent,htoolBucket,htool,not_or,not_not,not_and,not_not]
  by_cases ha : admitted limiter c=true
  · rw [if_pos ha,withinLimits_append]
    simp only [ha,forall_const]
    exact and_and_and_comm
  · rw [if_neg ha,List.append_nil]
    simp only [ha,Bool.false_eq_true,false_implies,and_true]
    exact and_right_comm

end Configuration

/-- A disabled limiter lets every check pass. -/
theorem check_disabled {limiter : RateLimiter} (h : limiter.cfg.enabled=false) (c : TimedCheck) :
    (limiter.check c.time c.agentId c.qualifiedTool).2=.granted := by
  unfold RateLimiter.check
  rw [if_pos h]

/-- One check more adds its outcome. -/
theorem outcomes_append (limiter : RateLimiter) (checks : List TimedCheck) (c : TimedCheck) :
    outcomes limiter (checks++[c])=outcomes limiter checks++
      [⟨c,((final step limiter checks).check c.time c.agentId c.qualifiedTool).2⟩] := by
  have hstate : (run observe limiter checks).1=final step limiter checks := run_state limiter checks
  rw [outcomes,run_append,hstate]
  rfl

/-- No check of a sequence raises anything but `RateLimitExceeded` exactly
when limiting is disabled or every bucket without an inflow can afford its
requests. -/
theorem noDivision_iff (cfg : RateLimiterConfig) (checks : List TimedCheck) :
    (∀ e∈outcomes (start cfg) checks, e.verdict≠.divisionByZero) ↔
      cfg.enabled=false ∨ Affordable cfg checks := by
  induction checks using List.reverseRecOn with
  | nil =>
    refine ⟨fun _ => Or.inr ⟨fun _ _ _ h => (by cases h),fun _ _ _ h => (by cases h)⟩,?_⟩
    exact fun _ e he => absurd he List.not_mem_nil
  | append_singleton checks c ih =>
    rw [outcomes_append,List.forall_mem_append,ih,List.forall_mem_singleton]
    cases he : cfg.enabled with
    | false =>
      have hcfg : (final step (start cfg) checks).cfg.enabled=false := by
        rw [final_cfg]
        exact he
      rw [check_disabled hcfg]
      exact ⟨fun _ => Or.inl rfl,fun _ => ⟨Or.inl rfl,RateVerdict.noConfusion⟩⟩
    | true =>
      have happend := affordable_append he checks c
      simp only [Bool.true_eq_false,false_or]
      exact happend.symm

theorem second_check_divides :
    ¬∀ e∈outcomes (start {defaultAgentRate := 0,defaultAgentBurst := 1})
      [⟨0,"bot","pg.query"⟩,⟨60,"bot","pg.query"⟩], e.verdict≠.divisionByZero := by
  decide +kernel

end McpGateway.ZeroRates
