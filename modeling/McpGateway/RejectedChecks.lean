import Mathlib
import McpGateway.StepRun
import McpGateway.TokenRefill
import McpGateway.RateLimiting
import McpGateway.RateRuns

/-!
# What a rejected check leaves behind

A rejection by the agent bucket only refills it early, which no later check
can notice. A rejection by the tool bucket has already taken a token from the
agent bucket; as many further checks of the same pair as the bucket held
tokens tell the two limiters apart.
-/

namespace McpGateway.RejectedChecks

open PyDict GatewaySettings StepRun TokenRefill RateLimiting RateRuns

/-- No check from a time on can tell the two limiters apart. -/
structure Same (clock : ℚ) (limiter limiter' : RateLimiter) : Prop where
  /-- Checks are made. -/
  enabled : limiter.cfg.enabled=true
  /-- One configuration. -/
  cfg : limiter.cfg=limiter'.cfg
  /-- The same buckets of tools. -/
  tools : limiter.toolBuckets=limiter'.toolBuckets
  /-- Buckets of agents that give the same answers. -/
  agents : ∀ agentId now, clock≤now→
    (limiter.agentBucket agentId now).consume now=(limiter'.agentBucket agentId now).consume now

/-- Two such limiters answer alike and stay so. -/
theorem Same.observe {clock : ℚ} {limiter limiter' : RateLimiter} (h : Same clock limiter limiter')
    {c : TimedCheck} (hc : clock≤c.time) :
    Same clock (observe limiter c).1 (observe limiter' c).1 ∧
    (observe limiter c).2=(observe limiter' c).2 := by
  have he' : limiter'.cfg.enabled=true := h.cfg ▸ h.enabled
  have hagent := h.agents c.agentId c.time hc
  have htool : limiter.toolBucket c.agentId c.qualifiedTool c.time=
      limiter'.toolBucket c.agentId c.qualifiedTool c.time := by
    rw [RateLimiter.toolBucket,RateLimiter.toolBucket,h.cfg,h.tools]
  have hcfg := step_cfg limiter c
  have hcfg' := step_cfg limiter' c
  refine ⟨⟨hcfg.symm ▸ h.enabled,hcfg.trans (h.cfg.trans hcfg'.symm),?_,?_⟩,?_⟩
  · have htools := step_toolBuckets h.enabled c
    have htools' := step_toolBuckets he' c
    exact htools.trans (by rw [hagent,htool,h.tools]; exact htools'.symm)
  · intro agentId now hnow
    have hb := step_agentBuckets h.enabled c
    have hb' := step_agentBuckets he' c
    by_cases hid : c.agentId=agentId
    · subst hid
      have hstored : (step limiter c).agentBucket c.agentId now=
          (step limiter' c).agentBucket c.agentId now := by
        rw [RateLimiter.agentBucket,RateLimiter.agentBucket,hb,hb',hagent,Dict.get?_set_self,
          Dict.get?_set_self,Option.getD_some,Option.getD_some]
      exact congrArg (fun bucket => bucket.consume now) hstored
    · have hkept : (step limiter c).agentBucket agentId now=limiter.agentBucket agentId now := by
        rw [RateLimiter.agentBucket,RateLimiter.agentBucket,hb,hcfg,Dict.get?_set_other _ hid]
      have hkept' : (step limiter' c).agentBucket agentId now=limiter'.agentBucket agentId now := by
        rw [RateLimiter.agentBucket,RateLimiter.agentBucket,hb',hcfg',Dict.get?_set_other _ hid]
      have hanswer := h.agents agentId now hnow
      exact (congrArg (fun bucket => bucket.consume now) hkept).trans
        (hanswer.trans (congrArg (fun bucket => bucket.consume now) hkept').symm)
  · have hverdict := check_verdict h.enabled c.time c.agentId c.qualifiedTool
    rw [hagent,htool,←check_verdict he'] at hverdict
    exact congrArg (fun verdict => some (CheckEvent.mk c verdict)) hverdict

/-- The agent's bucket, refilled to the time of the check, has no token. -/
def AgentRefuses (limiter : RateLimiter) (c : TimedCheck) : Prop :=
  (filled (limiter.agentBucket c.agentId c.time) c.time).tokens<1

/-- A rejection by the agent bucket leaves a limiter that cannot be told from
the one before. -/
theorem same_of_agentRefuses {clock : ℚ} {limiter : RateLimiter} (h : Kept clock limiter)
    (he : limiter.cfg.enabled=true) {c : TimedCheck} (hc : clock≤c.time)
    (hr : AgentRefuses limiter c) : Same c.time (step limiter c) limiter := by
  obtain ⟨hkept,-⟩ := (h.agents c.agentId).agentBucket hc
  have hconsume := consume_refused hr hkept.inflow.ne'
  have hcfg := step_cfg limiter c
  have hb := step_agentBuckets he c
  have htools := step_toolBuckets he c
  rw [hconsume] at hb htools
  refine ⟨hcfg.symm ▸ he,hcfg,htools.trans (if_neg Bool.noConfusion),?_⟩
  intro agentId now hnow
  by_cases hid : c.agentId=agentId
  · subst hid
    have hstored : (step limiter c).agentBucket c.agentId now=
        filled (limiter.agentBucket c.agentId c.time) c.time := by
      rw [RateLimiter.agentBucket,hb,Dict.get?_set_self,Option.getD_some]
    rw [hstored]
    refine consume_congr ((filled_filled hkept.inflow.le hnow).trans ?_)
    exact filled_agentBucket ((h.agents c.agentId).mono hc) hnow
  · rw [RateLimiter.agentBucket,RateLimiter.agentBucket,hb,hcfg,Dict.get?_set_other _ hid]

/-- The bucket of the agent and tool, refilled to the time of the check, has no token. -/
def ToolRefuses (limiter : RateLimiter) (c : TimedCheck) : Prop :=
  (filled (limiter.toolBucket c.agentId c.qualifiedTool c.time) c.time).tokens<1

/-- A rejection by the tool bucket takes a token of the agent and leaves the
tool bucket without one at that time. -/
theorem toolRefuses_step {clock : ℚ} {limiter : RateLimiter} (h : Kept clock limiter)
    (he : limiter.cfg.enabled=true) {c : TimedCheck} (hc : clock≤c.time)
    (hagent : 1≤(filled (limiter.agentBucket c.agentId c.time) c.time).tokens)
    (htool : ToolRefuses limiter c) :
    (∃ retry, (limiter.check c.time c.agentId c.qualifiedTool).2=
      .exceeded ("tool:"++toolKey c.agentId c.qualifiedTool) retry) ∧
    ToolRefuses (step limiter c) c ∧
    (filled ((step limiter c).agentBucket c.agentId c.time) c.time).tokens=
      (filled (limiter.agentBucket c.agentId c.time) c.time).tokens-1 := by
  obtain ⟨hkept,-⟩ := (h.agents c.agentId).agentBucket hc
  obtain ⟨htoolKept,-⟩ := h.toolBucket hc c.agentId c.qualifiedTool
  have hgrant := consume_granted hagent
  have hrefuse := consume_refused htool htoolKept.inflow.ne'
  have hb := step_agentBuckets he c
  have htools := step_toolBuckets he c
  rw [hgrant] at hb htools
  have hstore := htools.trans (if_pos rfl)
  rw [hrefuse] at hstore
  refine ⟨⟨_,by rw [check_verdict he,hgrant,hrefuse]; rfl⟩,?_,?_⟩
  · have hstored : (step limiter c).toolBucket c.agentId c.qualifiedTool c.time=
        filled (limiter.toolBucket c.agentId c.qualifiedTool c.time) c.time := by
      rw [RateLimiter.toolBucket,hstore,Dict.get?_set_self,Option.getD_some]
    rw [ToolRefuses,hstored,filled_filled htoolKept.inflow.le le_rfl]
    exact htool
  · rw [RateLimiter.agentBucket,hb,Dict.get?_set_self,Option.getD_some]
    have hcapped := (hkept.filled le_rfl).capped
    have hless : (filled (limiter.agentBucket c.agentId c.time) c.time).tokens-1≤
        (limiter.agentBucket c.agentId c.time).capacity := by
      exact (sub_le_self _ zero_le_one).trans hcapped
    rw [filled]
    dsimp only
    have hzero : (filled (limiter.agentBucket c.agentId c.time) c.time).last=c.time := rfl
    rw [hzero,sub_self]
    exact refill_zero hless

/-- The exception names the agent bucket. -/
theorem agentRefuses_verdict {clock : ℚ} {limiter : RateLimiter} (h : Kept clock limiter)
    (he : limiter.cfg.enabled=true) {c : TimedCheck} (hc : clock≤c.time)
    (hr : AgentRefuses limiter c) : ∃ retry,
      (limiter.check c.time c.agentId c.qualifiedTool).2=.exceeded ("agent:"++c.agentId) retry := by
  obtain ⟨hkept,-⟩ := (h.agents c.agentId).agentBucket hc
  rw [check_verdict he,consume_refused hr hkept.inflow.ne']
  exact ⟨_,rfl⟩

/-- The two scopes are told apart by their first letters. -/
theorem scope_ne (key agentId : String) : "tool:"++key≠"agent:"++agentId := by
  intro h
  have hletters := congrArg String.toList h
  rw [String.toList_append,String.toList_append] at hletters
  exact absurd (List.cons.inj hletters).1 (by decide)

/-- A check that one limiter rejects for its tool and the other for its agent
tells them apart. -/
theorem distinguished_now {limiter limiter' : RateLimiter} {c : TimedCheck}
    (h : Kept c.time limiter) (h' : Kept c.time limiter')
    (he : limiter.cfg.enabled=true) (he' : limiter'.cfg.enabled=true)
    (hagent : 1≤(filled (limiter.agentBucket c.agentId c.time) c.time).tokens)
    (htool : ToolRefuses limiter c) (hr : AgentRefuses limiter' c) (later : List TimedCheck) :
    outcomes limiter (c::later)≠outcomes limiter' (c::later) := by
  intro hsame
  obtain ⟨⟨retry,hverdict⟩,-⟩ := toolRefuses_step h he le_rfl hagent htool
  obtain ⟨retry',hverdict'⟩ := agentRefuses_verdict h' he' le_rfl hr
  rw [outcomes_cons,outcomes_cons,hverdict,hverdict'] at hsame
  have hscope := congrArg CheckEvent.verdict (List.cons.inj hsame).1
  exact scope_ne _ _ (RateVerdict.exceeded.inj hscope).1

/-- As many checks of the pair as the fuller agent bucket has tokens tell the
limiters apart when the tool bucket has none. -/
theorem distinguished {limiter limiter' : RateLimiter} {c : TimedCheck}
    (h : Kept c.time limiter) (h' : Kept c.time limiter')
    (he : limiter.cfg.enabled=true) (he' : limiter'.cfg.enabled=true)
    (ht : ToolRefuses limiter c) (ht' : ToolRefuses limiter' c) (tokens : ℕ)
    (hmore : (tokens+1 : ℚ)≤(filled (limiter.agentBucket c.agentId c.time) c.time).tokens)
    (hless : (filled (limiter'.agentBucket c.agentId c.time) c.time).tokens<(tokens+1 : ℚ)) :
    outcomes limiter (List.replicate (tokens+1) c)≠
      outcomes limiter' (List.replicate (tokens+1) c) := by
  induction tokens generalizing limiter limiter' with
  | zero =>
    rw [Nat.cast_zero,zero_add] at hmore hless
    exact distinguished_now h h' he he' hmore ht hless []
  | succ tokens ih =>
    push_cast at hmore hless
    have hone : 1≤(filled (limiter.agentBucket c.agentId c.time) c.time).tokens := by
      have hcount : (0 : ℚ)≤tokens := Nat.cast_nonneg tokens
      linarith
    rcases lt_or_ge (filled (limiter'.agentBucket c.agentId c.time) c.time).tokens 1 with hr | hone'
    · exact distinguished_now h h' he he' hone ht hr _
    · obtain ⟨-,hnext,hlevel⟩ := toolRefuses_step h he le_rfl hone ht
      obtain ⟨-,hnext',hlevel'⟩ := toolRefuses_step h' he' le_rfl hone' ht'
      have hcfg := step_cfg limiter c
      have hcfg' := step_cfg limiter' c
      have hdiffer := ih (h.step he le_rfl) (h'.step he' le_rfl) (hcfg.symm ▸ he)
        (hcfg'.symm ▸ he') hnext hnext' (by linarith) (by linarith)
      intro hsame
      rw [List.replicate_succ,outcomes_cons,outcomes_cons] at hsame
      exact hdiffer (List.cons.inj hsame).2

/-- A rejected check that found the agent's bucket with a token was rejected
by the tool bucket. -/
theorem toolRefuses_of_exceeded {limiter : RateLimiter} (he : limiter.cfg.enabled=true)
    {c : TimedCheck}
    (hagent : 1≤(filled (limiter.agentBucket c.agentId c.time) c.time).tokens)
    {scope : String} {retry : ℚ}
    (hr : (limiter.check c.time c.agentId c.qualifiedTool).2=.exceeded scope retry) :
    ToolRefuses limiter c := by
  by_contra hn
  rw [check_verdict he,consume_granted hagent,consume_granted (not_lt.mp hn)] at hr
  cases hr

/-- A check of a limiter whose buckets are kept is free of charge for every
later sequence of checks exactly when its agent bucket rejects it. -/
theorem free_iff {clock : ℚ} {limiter : RateLimiter} (h : Kept clock limiter)
    (he : limiter.cfg.enabled=true) {rejected : TimedCheck} (hc : clock≤rejected.time)
    {scope : String} {retry : ℚ}
    (hr : (limiter.check rejected.time rejected.agentId rejected.qualifiedTool).2=
      .exceeded scope retry) :
    (∀ later, Ordered (rejected::later)→
      outcomes (step limiter rejected) later=outcomes limiter later) ↔
    AgentRefuses limiter rejected := by
  constructor
  · intro hfree
    by_contra hn
    have hone := not_lt.mp hn
    have htool := toolRefuses_of_exceeded he hone hr
    obtain ⟨-,hnext,hlevel⟩ := toolRefuses_step h he hc hone htool
    have hcfg := step_cfg limiter rejected
    obtain ⟨tokens,hfloor⟩ := Nat.exists_eq_add_of_le' (Nat.le_floor (by simpa using hone) :
      1≤⌊(filled (limiter.agentBucket rejected.agentId rejected.time) rejected.time).tokens⌋₊)
    have hmore := Nat.floor_le (zero_le_one.trans hone)
    have hless := Nat.lt_floor_add_one
      (filled (limiter.agentBucket rejected.agentId rejected.time) rejected.time).tokens
    rw [hfloor] at hmore hless
    push_cast at hmore hless
    refine distinguished (h.mono hc) (h.step he hc) he (hcfg.symm ▸ he) htool hnext tokens hmore
      (by linarith) (hfree _ ?_).symm
    rw [Ordered,←List.replicate_succ]
    exact List.pairwise_replicate.mpr (.inr le_rfl)
  · intro hrefuses later ho
    have hsame := same_of_agentRefuses h he hc hrefuses
    exact run_related (C:=fun c => rejected.time≤c.time) (fun _ _ _ hc h => h.observe hc) hsame
      (List.pairwise_cons.mp ho).1

/-- For every run with positive rates, a rejected check costs nothing exactly
when the bucket of the agent rejects it: every later sequence of checks then
has the outcomes it would have had without it, and a rejection by the tool
bucket changes those of some sequence. -/
theorem rejected_free_iff {cfg : RateLimiterConfig} (hc : Positive cfg)
    {history : List TimedCheck} {rejected : TimedCheck} (ho : Ordered (history++[rejected]))
    {scope : String} {retry : ℚ}
    (hr : ((final step (start cfg) history).check rejected.time rejected.agentId
      rejected.qualifiedTool).2=.exceeded scope retry) :
    (∀ later, Ordered (rejected::later)→
      outcomes (step (final step (start cfg) history) rejected) later=
        outcomes (final step (start cfg) history) later) ↔
    AgentRefuses (final step (start cfg) history) rejected := by
  have hcfg : (final step (start cfg) history).cfg=cfg := final_cfg (start cfg) history
  have he : cfg.enabled=true := by
    by_contra hn
    have hoff : (final step (start cfg) history).cfg.enabled=false :=
      hcfg.symm ▸ Bool.eq_false_of_not_eq_true hn
    rw [RateLimiter.check,if_pos hoff] at hr
    cases hr
  exact free_iff (kept_final_start hc he ho) (hcfg.symm ▸ he) le_rfl hr

/-- One token in the bucket of a tool and two in that of an agent. -/
def scarceTools : RateLimiterConfig := {defaultAgentBurst := 2,defaultToolBurst := 1}

/-- The rates are positive. -/
theorem positive_scarceTools : Positive scarceTools where
  agentRate _ := (by norm_num : (0:ℚ)<10)
  toolRate _ := (by norm_num : (0:ℚ)<5)

/-- The second call of a tool is rejected. -/
theorem scarceTools_rejects : ((final step (start scarceTools) [⟨0,"ops","pg.query"⟩]).check 0
    "ops" "pg.query").2=.exceeded "tool:ops:pg.query" (1/5) := by
  decide +kernel

theorem rejected_free_iff_scarceTools :
    (∀ later, Ordered (⟨0,"ops","pg.query"⟩::later)→
      outcomes (step (final step (start scarceTools) [⟨0,"ops","pg.query"⟩])
        ⟨0,"ops","pg.query"⟩) later=
      outcomes (final step (start scarceTools) [⟨0,"ops","pg.query"⟩]) later) ↔
    AgentRefuses (final step (start scarceTools) [⟨0,"ops","pg.query"⟩]) ⟨0,"ops","pg.query"⟩ :=
  rejected_free_iff positive_scarceTools (List.pairwise_pair.mpr le_rfl) scarceTools_rejects

/-- The second call of a tool is rejected for the tool; afterwards a call of
another tool, which would have been granted, is rejected for the agent. -/
theorem rejected_charges :
    (∃ scope retry, ((final step (start scarceTools) [⟨0,"ops","pg.query"⟩]).check 0 "ops"
      "pg.query").2=.exceeded scope retry) ∧
    ¬∀ later, Ordered (⟨0,"ops","pg.query"⟩::later)→
      outcomes (step (final step (start scarceTools) [⟨0,"ops","pg.query"⟩])
        ⟨0,"ops","pg.query"⟩) later=
      outcomes (final step (start scarceTools) [⟨0,"ops","pg.query"⟩]) later := by
  refine ⟨⟨_,_,scarceTools_rejects⟩,fun hfree => ?_⟩
  have hsame := hfree [⟨0,"ops","pg.list"⟩] (List.pairwise_pair.mpr le_rfl)
  have hreturns := congrArg (List.map (fun e => returns e.verdict)) hsame
  exact absurd hreturns (by decide +kernel)

end McpGateway.RejectedChecks
