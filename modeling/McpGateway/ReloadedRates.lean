import Mathlib
import McpGateway.PyDict
import McpGateway.StepRun
import McpGateway.JsonValue
import McpGateway.GatewaySettings
import McpGateway.CircuitBreakers
import McpGateway.RegistryRuns
import McpGateway.ToolRouting
import McpGateway.ToolAuthorizer
import McpGateway.RateLimiting
import McpGateway.PyRuntime
import McpGateway.Guardrails
import McpGateway.ResultCache
import McpGateway.UpstreamContent
import McpGateway.ToolOrchestrator
import McpGateway.CallMediation
import McpGateway.GatewayRuns
import McpGateway.TokenRefill
import McpGateway.RateRuns

/-!
# Rates across reloads

A reload installs a new limiter, whose buckets are full. Between reloads an
agent spends what its bucket holds and what flows in. What an agent sends
upstream over a whole run is paid from one burst at the start, one more for
each reload, and the inflow of the time that passes.
-/

namespace McpGateway.ReloadedRates

open PyDict StepRun JsonValue GatewaySettings CircuitBreakers RegistryRuns ToolRouting
open ToolAuthorizer RateLimiting PyRuntime Guardrails ResultCache UpstreamContent
open ToolOrchestrator CallMediation GatewayRuns TokenRefill RateRuns

/-- Limits that an agent has at most under a configuration. -/
structure Within (agentId : String) (rate burst : ℚ) (cfg : RateLimiterConfig) : Prop where
  /-- Its tokens flow in. -/
  inflow : 0<agentRate cfg agentId
  /-- It may hold none, but owes none. -/
  capacity : 0≤agentBurst cfg agentId
  /-- Limiting is on. -/
  enabled : cfg.enabled=true
  /-- The rate of the agent. -/
  rate : agentRate cfg agentId≤ rate
  /-- Its burst. -/
  burst : agentBurst cfg agentId≤burst

/-- An effect that sends a call of the agent upstream. -/
def sends (agentId : String) : Effect→Bool
  | .upstream _ _ _ other => other==agentId
  | _ => false

/-- An event that sends a call of the agent upstream. -/
def forwards (agentId : String) : GatewayEvent→Bool
  | .started _ _ _ report => report.effects.any (sends agentId)
  | .finished _ _ _ _ _ => false

/-- Number of reloads of a schedule. -/
def reloads (actions : List GatewayAction) : ℕ :=
  actions.countP (fun a => match a with
    | .reload _ => true
    | _ => false)

/-- Time that passes along a schedule. -/
def elapsed (actions : List GatewayAction) : ℚ :=
  (actions.map (fun a => match a with
    | .tick elapsed => (elapsed : ℚ)
    | _ => 0)).sum

/-- The bucket of an agent holds this much now. -/
def content (agentId : String) (now : ℚ) (limiter : RateLimiter) : ℚ :=
  (filled (limiter.agentBucket agentId now) now).tokens

/-- What the agent can spend at once. -/
def available (agentId : String) (g : Gateway) : ℚ :=
  (g.orchestrator.rateLimiter.map (content agentId g.clock)).getD 0

/-- A limiter with these limits is installed, the agent's bucket within its
bounds. -/
def Limited (agentId : String) (rate burst : ℚ) (g : Gateway) : Prop :=
  ∃ limiter, g.orchestrator.rateLimiter=some limiter ∧ Within agentId rate burst limiter.cfg ∧
    OwnKept agentId g.clock limiter

section Buckets

variable {agentId : String} {now : ℚ} {limiter : RateLimiter}

/-- A bucket that was just refilled holds what it holds. -/
theorem filled_now {bucket : TokenBucket} (h : BucketKept now bucket) (hlast : bucket.last=now) :
    (filled bucket now).tokens=bucket.tokens := by
  have hzero : now-bucket.last=0 := by rw [hlast,sub_self]
  rw [filled,hzero]
  exact refill_zero h.capped

/-- No bucket owes tokens or holds more than the burst. -/
theorem content_bounds (h : OwnKept agentId now limiter)
    (hburst : 0≤agentBurst limiter.cfg agentId) :
    0≤content agentId now limiter ∧ content agentId now limiter≤agentBurst limiter.cfg agentId := by
  obtain ⟨hkept,-,hcapacity⟩ := h.agentBucket le_rfl
  have hfilled := hkept.filled le_rfl
  rw [←hcapacity] at hburst ⊢
  exact ⟨hfilled.nonneg hburst,hfilled.capped⟩

/-- A check takes a token from the agent when it is granted, and none from
other agents. -/
theorem content_check (h : OwnKept agentId now limiter) (he : limiter.cfg.enabled=true)
    (caller qualifiedTool : String) :
    OwnKept agentId now (limiter.check now caller qualifiedTool).1 ∧
    content agentId now (limiter.check now caller qualifiedTool).1+
      (if caller=agentId ∧ (limiter.check now caller qualifiedTool).2=.granted then 1 else 0)≤
        content agentId now limiter := by
  refine ⟨h.step he (c:=⟨now,caller,qualifiedTool⟩) le_rfl,?_⟩
  have hbuckets := check_agentBuckets he now caller qualifiedTool
  have hcfg := check_cfg limiter now caller qualifiedTool
  by_cases hc : caller=agentId
  · subst hc
    obtain ⟨hkept,-,-⟩ := h.agentBucket le_rfl
    obtain ⟨hnext,-,-,hlast,hspent⟩ := hkept.consume le_rfl
    have hbucket : (limiter.check now caller qualifiedTool).1.agentBucket caller now=
        ((limiter.agentBucket caller now).consume now).1 := by
      rw [RateLimiter.agentBucket,hbuckets,Dict.get?_set_self,Option.getD_some]
    rw [content,hbucket,filled_now hnext hlast,content,←hspent]
    refine add_le_add_right ?_ _
    split
    · rename_i hgranted
      have hreturns : returns (limiter.check now caller qualifiedTool).2=true := by
        rw [hgranted.2]
        rfl
      rw [passes_of_returns he hreturns]
      exact le_rfl
    · split <;> norm_num
  · have hsame : (limiter.check now caller qualifiedTool).1.agentBucket agentId now=
        limiter.agentBucket agentId now := by
      rw [RateLimiter.agentBucket,hbuckets,Dict.get?_set_other _ hc,hcfg]
      rfl
    have hnot : ¬(caller=agentId ∧ (limiter.check now caller qualifiedTool).2=.granted) :=
      fun hboth => hc hboth.1
    rw [if_neg hnot,add_zero,content,content,hsame]

/-- Over some time a bucket gains at most its inflow. -/
theorem content_later (h : OwnKept agentId now limiter) {later : ℚ} (hlater : now≤later) :
    content agentId later limiter≤
      content agentId now limiter+agentRate limiter.cfg agentId*(later-now) := by
  obtain ⟨hkept,hrate,-⟩ := h.agentBucket le_rfl
  have hsame := filled_agentBucket h hlater
  rw [content,←hsame,←filled_filled hkept.inflow.le hlater,content,←hrate]
  have hinflow : (filled (filled (limiter.agentBucket agentId now) now) later).tokens≤
      (filled (limiter.agentBucket agentId now) now).tokens+
        (later-now)*(limiter.agentBucket agentId now).rate := refill_le_inflow
  linarith

end Buckets

section Calls

variable (rt : Runtime) (o : Orchestrator) (now : ℚ) (request : CallRequest)

/-- A lookup keeps the limiter. -/
theorem lookupResult_limiter (f : CallFrame) (sent : Json) :
    (lookupResult rt o now f sent).1.rateLimiter=o.rateLimiter := by
  unfold lookupResult
  split
  · rfl
  · split <;> rfl

/-- A call charges the limiter at most once. -/
theorem startCall_limiter :
    (startCall rt o now request).orchestrator.rateLimiter=o.rateLimiter ∨
      ∃ f : CallFrame, f.request=request ∧
        (startCall rt o now request).orchestrator.rateLimiter=(rateGate o now f).1.rateLimiter := by
  have hgates : ∀ f, (gates rt o now f).1=o ∨ (gates rt o now f).1=(rateGate o now f).1 := by
    intro f
    unfold gates
    split
    · exact Or.inl rfl
    · dsimp only
      split <;> exact Or.inr rfl
  unfold startCall
  cases resolve o.registry request.name request.serverId with
  | error e => exact Or.inl rfl
  | ok found =>
    obtain ⟨entry,rawTool⟩ := found
    dsimp only
    split
    · exact Or.inl rfl
    · have hend : ∀ limiter, limiter=(gates rt o now ⟨request,entry,rawTool⟩).1.rateLimiter→
          limiter=o.rateLimiter ∨ ∃ f : CallFrame, f.request=request ∧
            limiter=(rateGate o now f).1.rateLimiter := by
        rintro limiter rfl
        rcases hgates ⟨request,entry,rawTool⟩ with hsame | hcharged
        · exact Or.inl (congrArg Orchestrator.rateLimiter hsame)
        · exact Or.inr ⟨_,rfl,congrArg Orchestrator.rateLimiter hcharged⟩
      split
      · exact hend _ rfl
      · split
        · exact hend _ (lookupResult_limiter rt _ now _ _)
        · exact hend _ (lookupResult_limiter rt _ now _ _)

/-- A call that is sent upstream was granted by the limiter, which it charged. -/
theorem startCall_sent {limiter : RateLimiter} (hl : o.rateLimiter=some limiter)
    {agentId : String} (hs : (startCall rt o now request).effects.any (sends agentId)=true) :
    request.principal.agentId=agentId ∧ ∃ qualified,
      (limiter.check now request.principal.agentId qualified).2=.granted ∧
      (startCall rt o now request).orchestrator.rateLimiter=
        some (limiter.check now request.principal.agentId qualified).1 := by
  obtain ⟨e,he,hsends⟩ := List.any_eq_true.mp hs
  cases e with
  | upstream client tool sent other =>
    obtain ⟨f,reqRedacted,rfl,hmediated,hmiss,-,-,hother⟩ := startCall_upstream_iff.mp he
    rw [←hother]
    refine ⟨beq_iff_eq.mp hsends,f.qualified,?_,?_⟩
    · rw [hother]
      exact hmediated.granted limiter hl
    · rw [startCall_mediated hmediated,hmiss]
      refine (lookupResult_limiter rt _ now f sent).trans ?_
      rw [hother]
      unfold rateGate
      rw [hl]
  | toolCall serverId tool status => cases hsends
  | audit record => cases hsends
  | webhook event payload => cases hsends
  | storeResult qualified arguments value => cases hsends

/-- Whatever becomes of a call, the limiter is untouched or charged for it. -/
theorem startCall_charged {limiter : RateLimiter} (hl : o.rateLimiter=some limiter) :
    (startCall rt o now request).orchestrator.rateLimiter=some limiter ∨ ∃ qualified,
      (startCall rt o now request).orchestrator.rateLimiter=
        some (limiter.check now request.principal.agentId qualified).1 := by
  rcases startCall_limiter rt o now request with hsame | ⟨f,rfl,hcharged⟩
  · exact Or.inl (hsame.trans hl)
  · refine Or.inr ⟨f.qualified,hcharged.trans ?_⟩
    unfold rateGate
    rw [hl]

end Calls

section Runs

variable {agentId : String} {rate burst : ℚ}

/-- What one event costs. -/
def cost (agentId : String) (event : GatewayEvent) : ℚ :=
  if forwards agentId event=true then 1 else 0

/-- What one action brings in. -/
def credit (rate burst : ℚ) : GatewayAction→ℚ
  | .reload _ => burst
  | .tick elapsed => rate*elapsed
  | _ => 0

/-- Reloads keep to the limits. -/
def KeepsTo (agentId : String) (rate burst : ℚ) : GatewayAction→Prop
  | .reload cfg => Within agentId rate burst cfg.rateLimiting
  | _ => True

/-- An action that leaves limiter and clock alone costs nothing. -/
theorem paid_same {g g' : Gateway} (h : Limited agentId rate burst g)
    (hlimiter : g'.orchestrator.rateLimiter=g.orchestrator.rateLimiter)
    (hclock : g'.clock=g.clock) :
    Limited agentId rate burst g' ∧ available agentId g'=available agentId g := by
  unfold Limited available
  rw [hlimiter,hclock]
  exact ⟨h,rfl⟩

/-- The limiter of a gateway that is limited holds a content within its bounds. -/
theorem available_bounds {g : Gateway} (h : Limited agentId rate burst g) :
    0≤available agentId g ∧ available agentId g≤burst := by
  obtain ⟨limiter,hl,hwithin,hkept⟩ := h
  have hbounds := content_bounds hkept hwithin.capacity
  rw [available,hl]
  exact ⟨hbounds.1,hbounds.2.trans hwithin.burst⟩

/-- Time brings in its inflow. -/
theorem paid_tick {g : Gateway} (h : Limited agentId rate burst g) (elapsed : ℚ≥0) :
    Limited agentId rate burst {g with clock := g.clock+elapsed} ∧
      available agentId {g with clock := g.clock+elapsed}≤available agentId g+rate*elapsed := by
  obtain ⟨limiter,hl,hwithin,hkept⟩ := h
  have hpos : (0:ℚ)≤elapsed := elapsed.2
  have hlater : g.clock≤g.clock+elapsed := by linarith
  refine ⟨⟨limiter,hl,hwithin,hkept.mono hlater⟩,?_⟩
  have hinflow := content_later hkept hlater
  have hrate : agentRate limiter.cfg agentId*(elapsed : ℚ)≤rate*elapsed :=
    mul_le_mul_of_nonneg_right hwithin.rate hpos
  rw [available,available,hl]
  rw [add_sub_cancel_left] at hinflow
  exact hinflow.trans (add_le_add_right hrate _)

/-- A reload brings in one burst. -/
theorem paid_reload (rt : Runtime) {g : Gateway} (h : Limited agentId rate burst g)
    {cfg : GatewayConfig} (hc : Within agentId rate burst cfg.rateLimiting) :
    Limited agentId rate burst {g with orchestrator := swapPolicies rt cfg g.orchestrator} ∧
      available agentId {g with orchestrator := swapPolicies rt cfg g.orchestrator}≤
        available agentId g+burst := by
  have hbounds := available_bounds h
  obtain ⟨limiter,hl,hwithin,hkept⟩ := h
  have hburst : 0≤burst := hwithin.capacity.trans hwithin.burst
  have hswap : (swapPolicies rt cfg g.orchestrator).rateLimiter=some limiter ∨
      (swapPolicies rt cfg g.orchestrator).rateLimiter=some (start cfg.rateLimiting) := by
    unfold swapPolicies
    dsimp only
    split
    · exact Or.inl hl
    · exact Or.inr rfl
  have hnext : Limited agentId rate burst
      {g with orchestrator := swapPolicies rt cfg g.orchestrator} := by
    rcases hswap with hsame | hnew
    · exact ⟨limiter,hsame,hwithin,hkept⟩
    · exact ⟨_,hnew,hc,ownKept_start hc.inflow g.clock⟩
  have hlast := (available_bounds hnext).2
  exact ⟨hnext,by linarith [hbounds.1]⟩

/-- A call pays for itself. -/
theorem paid_call (rt : Runtime) {g : Gateway} (h : Limited agentId rate burst g)
    (request : CallRequest) :
    Limited agentId rate burst (GatewayRuns.step rt g (.callStart request)).1 ∧
      available agentId (GatewayRuns.step rt g (.callStart request)).1+
        (((GatewayRuns.step rt g (.callStart request)).2.toList.map (cost agentId)).sum)≤
          available agentId g := by
  obtain ⟨limiter,hl,hwithin,hkept⟩ := h
  have hcheck := fun qualified => content_check hkept hwithin.enabled
    request.principal.agentId qualified
  have hlimited : ∀ qualified,
      (startCall rt g.orchestrator g.clock request).orchestrator.rateLimiter=
        some (limiter.check g.clock request.principal.agentId qualified).1→
      Limited agentId rate burst (GatewayRuns.step rt g (.callStart request)).1 := by
    intro qualified hcharged
    refine ⟨_,hcharged,?_,(hcheck qualified).1⟩
    rw [check_cfg]
    exact hwithin
  have hsum : ((GatewayRuns.step rt g (.callStart request)).2.toList.map (cost agentId)).sum=
      if (startCall rt g.orchestrator g.clock request).effects.any (sends agentId)=true then 1
      else 0 := List.sum_singleton
  have hcontent : ∀ after,
      (startCall rt g.orchestrator g.clock request).orchestrator.rateLimiter=some after→
      available agentId (GatewayRuns.step rt g (.callStart request)).1=
        content agentId g.clock after := by
    intro after hafter
    have hstep : available agentId (GatewayRuns.step rt g (.callStart request)).1=
        (((startCall rt g.orchestrator g.clock request).orchestrator.rateLimiter.map
          (content agentId g.clock)).getD 0) := rfl
    rw [hstep,hafter]
    rfl
  have hbefore : available agentId g=content agentId g.clock limiter := by
    rw [available,hl]
    rfl
  rw [hsum,hbefore]
  by_cases hs : (startCall rt g.orchestrator g.clock request).effects.any (sends agentId)=true
  · obtain ⟨hagent,qualified,hgranted,hcharged⟩ :=
      startCall_sent rt g.orchestrator g.clock request hl hs
    refine ⟨hlimited qualified hcharged,?_⟩
    have hpaid := (hcheck qualified).2
    rw [if_pos ⟨hagent,hgranted⟩] at hpaid
    rw [if_pos hs,hcontent _ hcharged]
    exact hpaid
  · rw [if_neg hs,add_zero]
    rcases startCall_charged rt g.orchestrator g.clock request hl with hsame | ⟨qualified,hcharged⟩
    · exact ⟨⟨limiter,hsame,hwithin,hkept⟩,(hcontent _ hsame).le⟩
    · refine ⟨hlimited qualified hcharged,?_⟩
      rw [hcontent _ hcharged]
      refine le_trans (le_add_of_nonneg_right ?_) (hcheck qualified).2
      split <;> norm_num

/-- Every action pays for its event. -/
theorem paid_step (rt : Runtime) (g : Gateway) (a : GatewayAction)
    (h : Limited agentId rate burst g) (ha : KeepsTo agentId rate burst a) :
    Limited agentId rate burst (GatewayRuns.step rt g a).1 ∧
      available agentId (GatewayRuns.step rt g a).1+
        ((GatewayRuns.step rt g a).2.toList.map (cost agentId)).sum≤
          available agentId g+credit rate burst a := by
  have hquiet : ∀ g' : Gateway, g'.orchestrator.rateLimiter=g.orchestrator.rateLimiter→
      g'.clock=g.clock→Limited agentId rate burst g' ∧
        available agentId g'+0≤available agentId g+0 := by
    intro g' hlimiter hclock
    obtain ⟨hlimited,hsame⟩ := paid_same h hlimiter hclock
    rw [hsame]
    exact ⟨hlimited,le_rfl⟩
  cases a with
  | registry action => exact hquiet _ rfl rfl
  | reload cfg =>
    obtain ⟨hlimited,hpaid⟩ := paid_reload rt h ha
    exact ⟨hlimited,(add_zero _).le.trans hpaid⟩
  | installWebhooks => exact hquiet _ rfl rfl
  | manifest tag =>
    obtain ⟨cache,hwrites⟩ := buildManifest_writes g.orchestrator g.clock tag
    have hlimiter := congrArg Orchestrator.rateLimiter hwrites
    exact hquiet _ hlimiter rfl
  | tick elapsed =>
    obtain ⟨hlimited,hpaid⟩ := paid_tick h elapsed
    exact ⟨hlimited,(add_zero _).le.trans hpaid⟩
  | callStart request =>
    obtain ⟨hlimited,hpaid⟩ := paid_call rt h request
    exact ⟨hlimited,hpaid.trans (add_zero _).ge⟩
  | callFinish index outcome =>
    unfold GatewayRuns.step
    dsimp only
    split
    · exact hquiet _ rfl rfl
    · rename_i call _
      obtain ⟨cache,hwrites⟩ :=
        finishCall_writes rt g.orchestrator g.clock call (clientAnswer rt outcome)
      have hlimiter := congrArg Orchestrator.rateLimiter hwrites
      have hfree : ([GatewayEvent.finished g.clock call g.orchestrator outcome
          (finishCall rt g.orchestrator g.clock call (clientAnswer rt outcome))].map
            (cost agentId)).sum=0 := List.sum_singleton
      rw [Option.toList_some,hfree]
      exact hquiet _ hlimiter rfl

/-- All that a schedule brings in. -/
theorem credit_sum (rate burst : ℚ) (actions : List GatewayAction) :
    (actions.map (credit rate burst)).sum=burst*reloads actions+rate*elapsed actions := by
  induction actions with
  | nil => simp [reloads,elapsed]
  | cons a rest ih =>
    rw [List.map_cons,List.sum_cons,ih]
    unfold reloads elapsed
    rw [List.countP_cons,List.map_cons,List.sum_cons]
    cases a <;> simp only [credit] <;> push_cast <;> ring

/-- All that the events of a run cost. -/
theorem cost_sum (agentId : String) (events : List GatewayEvent) :
    (events.map (cost agentId)).sum=(events.countP (forwards agentId) : ℚ) := by
  induction events with
  | nil => rfl
  | cons event rest ih =>
    rw [List.map_cons,List.sum_cons,ih,List.countP_cons,cost]
    split
    · push_cast
      ring
    · push_cast
      ring

/-- However calls of any agents, answers, registry operations and reloads
interleave: while every configuration keeps an agent to a rate and a burst, the
calls it gets sent upstream over a whole run are at most one burst, one more for
each reload, and the inflow of the time that passes. -/
theorem forwarded_bounded (rt : Runtime) {cfg : GatewayConfig} {cbPolicy : CircuitBreakerPolicy}
    {now : ℚ} {g : Gateway} (hb : boot rt cfg cbPolicy now=.ok g)
    (hc : Within agentId rate burst cfg.rateLimiting) {actions : List GatewayAction}
    (ha : ∀ a∈actions, KeepsTo agentId rate burst a) :
    ((run (GatewayRuns.step rt) g actions).2.countP (forwards agentId) : ℚ)≤
      burst*(1+reloads actions)+rate*elapsed actions := by
  have hstart : Limited agentId rate burst g := by
    unfold boot at hb
    cases hs : SafetyFilter.new rt cfg.guardrails with
    | error text =>
      rw [hs] at hb
      cases hb
    | ok safety =>
      rw [hs] at hb
      cases hb
      exact ⟨start cfg.rateLimiting,rfl,hc,ownKept_start hc.inflow now⟩
  obtain ⟨hlast,hpaid⟩ := run_potential (paid_step rt) hstart ha
  rw [cost_sum,credit_sum] at hpaid
  have hrest := (available_bounds hlast).1
  have hfirst := (available_bounds hstart).2
  linarith

/-- The default limits of an agent. -/
theorem within_default (agentId : String) : Within agentId 10 20 {} where
  inflow := configured_default.agentRate agentId
  capacity := configured_default.agentBurst agentId
  enabled := rfl
  rate := le_rfl
  burst := le_rfl

/-- A gateway of a default configuration. -/
def defaultGateway : Gateway where
  clock := 0
  orchestrator := {
    registry := (RegistryRuns.start {} {}).registry
    authorizer := {}
    redactor := PiiRedactor.Redactor.new asciiRuntime {}
    safety := ⟨{},[]⟩
    rateLimiter := some {cfg := {}}
    audit := true
    schemaValidator := some ⟨true,false⟩
    cache := some {cfg := {}}
    webhookDispatcher := true}

theorem forwarded_bounded_reloaded :
    let actions := [GatewayAction.registry (.register (plainServer "pg")),
      .callStart (plainRequest "pg.search"),.reload {},.tick 2,
      .callStart (plainRequest "pg.search")]
    ((run (GatewayRuns.step asciiRuntime) defaultGateway actions).2.countP (forwards "agent") : ℚ)≤
      20*(1+reloads actions)+10*elapsed actions := by
  have hboot : boot asciiRuntime {} {} 0=.ok defaultGateway := rfl
  refine forwarded_bounded asciiRuntime hboot (within_default "agent") ?_
  intro a ha
  rcases List.mem_cons.mp ha with rfl | ha
  · trivial
  · rcases List.mem_cons.mp ha with rfl | ha
    · trivial
    · rcases List.mem_cons.mp ha with rfl | ha
      · exact within_default "agent"
      · rcases List.mem_pair.mp ha with rfl | rfl <;> trivial

end Runs

end McpGateway.ReloadedRates
