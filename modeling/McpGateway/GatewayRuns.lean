import Mathlib
import McpGateway.PyDict
import McpGateway.StepRun
import McpGateway.JsonValue
import McpGateway.GatewaySettings
import McpGateway.CircuitBreakers
import McpGateway.ToolNaming
import McpGateway.ServerRegistry
import McpGateway.RegistryRuns
import McpGateway.ToolRouting
import McpGateway.ToolAuthorizer
import McpGateway.RateLimiting
import McpGateway.PyRuntime
import McpGateway.PiiRedactor
import McpGateway.Guardrails
import McpGateway.SchemaValidation
import McpGateway.ResultCache
import McpGateway.UpstreamContent
import McpGateway.ToolOrchestrator
import McpGateway.CallMediation

/-!
# Runs of the whole gateway

Calls in flight, registry operations, manifest requests, reloads and the
passing of time interleave freely: a schedule starts and finishes calls in
any order, and an answer may be anything. Each half of a call is an event
with the orchestrator that handled it. Along every run the cache holds only
redacted answers to earlier calls, under their own keys and lifetimes.
-/

namespace McpGateway.GatewayRuns

open PyDict StepRun JsonValue GatewaySettings CircuitBreakers ToolNaming ServerRegistry
open RegistryRuns ToolRouting ToolAuthorizer RateLimiting PyRuntime PiiRedactor Guardrails
open SchemaValidation ResultCache UpstreamContent ToolOrchestrator CallMediation

/-- A running gateway. -/
structure Gateway where
  /-- The monotonic clock. -/
  clock : ℚ
  /-- The orchestrator with its registry. -/
  orchestrator : Orchestrator
  /-- Synchronizations in flight. -/
  syncs : List (String×ℕ) := []
  /-- Calls whose upstream has not answered. -/
  pending : List PendingCall := []

/-- One thing that can happen next. -/
inductive GatewayAction where
  /-- A registry operation. -/
  | registry (action : RegistryAction)
  /-- The policy swap of a reload. -/
  | reload (cfg : GatewayConfig)
  /-- The new webhook dispatcher of a reload. -/
  | installWebhooks
  /-- A manifest request. -/
  | manifest (tag : Option String)
  /-- The passing of time. -/
  | tick (elapsed : ℚ≥0)
  /-- A call up to its upstream request. -/
  | callStart (request : CallRequest)
  /-- The answer to a call in flight. -/
  | callFinish (index : ℕ) (outcome : UpstreamOutcome)

/-- What an observer of tool calls sees, with the orchestrator before it. -/
inductive GatewayEvent where
  /-- A first half. -/
  | started (time : ℚ) (request : CallRequest) (before : Orchestrator)
      (report : CallReport CallProgress)
  /-- A second half. -/
  | finished (time : ℚ) (call : PendingCall) (before : Orchestrator) (outcome : UpstreamOutcome)
      (report : CallReport CallOutcome)

/-- The policy objects of a configuration; a guardrail pattern that does not
compile raises after the authorizer and the redactor are installed. -/
def swapPolicies (rt : Runtime) (cfg : GatewayConfig) (o : Orchestrator) : Orchestrator :=
  let first := {o with authorizer := cfg.auth,redactor := Redactor.new rt cfg.redaction}
  match SafetyFilter.new rt cfg.guardrails with
  | .error _ => first
  | .ok safety =>
    {first with
      safety := safety
      schemaValidator := some
        ⟨cfg.schemaValidation.enabled,cfg.schemaValidation.strictOnMissingSchema⟩
      rateLimiter := some {cfg := cfg.rateLimiting}
      cache := some {cfg := cfg.cache}}

/-- The swap of the policies keeps the registry. -/
theorem swapPolicies_registry (rt : Runtime) (cfg : GatewayConfig) (o : Orchestrator) :
    (swapPolicies rt cfg o).registry=o.registry := by
  unfold swapPolicies
  dsimp only
  split <;> rfl

/-- The gateway of a configuration before its first registration, or the text
of the pattern error that prevents it. -/
def boot (rt : Runtime) (cfg : GatewayConfig) (cbPolicy : CircuitBreakerPolicy) (now : ℚ) :
    Except String Gateway :=
  (SafetyFilter.new rt cfg.guardrails).map (fun safety => {
    clock := now
    orchestrator := {
      registry := (start cfg.naming cbPolicy).registry
      authorizer := cfg.auth
      redactor := Redactor.new rt cfg.redaction
      safety := safety
      rateLimiter := some {cfg := cfg.rateLimiting}
      audit := true
      schemaValidator := some
        ⟨cfg.schemaValidation.enabled,cfg.schemaValidation.strictOnMissingSchema⟩
      cache := some {cfg := cfg.cache}
      webhookDispatcher := true}})

/-- One action and the event it emits. -/
def step (rt : Runtime) (g : Gateway) : GatewayAction→Gateway×Option GatewayEvent
  | .registry action =>
    let next := RegistryRuns.step ⟨g.orchestrator.registry,g.syncs⟩ action
    let orchestrator := {g.orchestrator with registry := next.registry}
    ({g with orchestrator := orchestrator,syncs := next.syncs},none)
  | .reload cfg => ({g with orchestrator := swapPolicies rt cfg g.orchestrator},none)
  | .installWebhooks =>
    ({g with orchestrator := {g.orchestrator with webhookDispatcher := true}},none)
  | .manifest tag => ({g with orchestrator := (buildManifest g.orchestrator g.clock tag).1},none)
  | .tick elapsed => ({g with clock := g.clock+elapsed},none)
  | .callStart request =>
    let report := startCall rt g.orchestrator g.clock request
    let waiting := match report.result with
      | .waiting call => [call]
      | .ended _ => []
    ({g with orchestrator := report.orchestrator,pending := g.pending++waiting},
      some (.started g.clock request g.orchestrator report))
  | .callFinish index outcome =>
    match g.pending[index]? with
    | none => (g,none)
    | some call =>
      let report := finishCall rt g.orchestrator g.clock call (clientAnswer rt outcome)
      ({g with orchestrator := report.orchestrator,pending := g.pending.eraseIdx index},
        some (.finished g.clock call g.orchestrator outcome report))

/-- A call in flight was started: its client was invoked with what redaction
made of the request's arguments. -/
def StartedIn (rt : Runtime) (h : List GatewayEvent) (call : PendingCall) : Prop :=
  ∃ time before report, GatewayEvent.started time call.frame.request before report∈h ∧
    Effect.upstream call.frame.entry.client call.frame.rawTool call.sent
      call.frame.request.principal.agentId∈report.effects ∧
    before.redactor.redact rt .request call.frame.request.arguments=
      .ok (call.sent,call.reqRedacted)

/-- A stored value is the redacted answer to an earlier call with this key,
and expires one lifetime after that answer. -/
def StoredBy (rt : Runtime) (h : List GatewayEvent) (cache : ToolCache ToolManifest) (clock : ℚ)
    (key : String) (entry : CacheEntry Json) : Prop :=
  ∃ time call before outcome report value flag,
    GatewayEvent.finished time call before outcome report∈h ∧ StartedIn rt h call ∧
    ToolCache.resultKey rt call.frame.qualified call.sent=key ∧
    clientAnswer rt outcome=.content value ∧
    before.redactor.redact rt .response value=.ok (entry.value,flag) ∧
    time≤clock ∧ entry.expiresAt=time+cache.toolTtl call.frame.qualified

/-- What the events so far say about the state they led to. -/
structure Explained (rt : Runtime) (g : Gateway) (h : List GatewayEvent) : Prop where
  /-- Calls in flight were started. -/
  pendingStarted : ∀ call∈g.pending, StartedIn rt h call
  /-- Cached results were stored by finished calls. -/
  stored : ∀ cache, g.orchestrator.cache=some cache→∀ key entry,
    cache.resultStore.entries.get? key=some entry→StoredBy rt h cache g.clock key entry

/-- Every result of a later cache is one of an earlier cache with the same
settings. -/
def CacheWithin (earlier later : Option (ToolCache ToolManifest)) : Prop :=
  ∀ c', later=some c'→∀ key entry, c'.resultStore.entries.get? key=some entry→
    ∃ c, earlier=some c ∧ c'.cfg=c.cfg ∧ c.resultStore.entries.get? key=some entry

/-- A cache is within itself. -/
theorem CacheWithin.refl (cache : Option (ToolCache ToolManifest)) : CacheWithin cache cache :=
  fun c h _ _ he => ⟨c,h,rfl,he⟩

/-- More history explains no less. -/
theorem StartedIn.mono {rt : Runtime} {h h' : List GatewayEvent} {call : PendingCall}
    (hs : StartedIn rt h call) (hsub : h⊆h') : StartedIn rt h' call := by
  obtain ⟨time,before,report,hm,hrest⟩ := hs
  exact ⟨time,before,report,hsub hm,hrest⟩

/-- More history, later clocks and equal settings explain no less. -/
theorem StoredBy.mono {rt : Runtime} {h h' : List GatewayEvent}
    {cache cache' : ToolCache ToolManifest} {clock clock' : ℚ} {key : String}
    {entry : CacheEntry Json} (hs : StoredBy rt h cache clock key entry) (hsub : h⊆h')
    (hcfg : cache'.cfg=cache.cfg) (hclock : clock≤clock') :
    StoredBy rt h' cache' clock' key entry := by
  obtain ⟨time,call,before,outcome,report,value,flag,hm,hstart,hkey,hanswer,hred,htime,hexp⟩ := hs
  have httl : cache'.toolTtl call.frame.qualified=cache.toolTtl call.frame.qualified := by
    simp only [ToolCache.toolTtl,hcfg]
  exact ⟨time,call,before,outcome,report,value,flag,hsub hm,hstart.mono hsub,hkey,hanswer,hred,
    htime.trans hclock,by rw [httl]; exact hexp⟩

/-- A step that only shrinks the cache and keeps the calls in flight keeps the
explanation. -/
theorem Explained.shrink {rt : Runtime} {g g' : Gateway} {h h' : List GatewayEvent}
    (he : Explained rt g h) (hsub : h⊆h') (hclock : g.clock≤g'.clock)
    (hpending : ∀ call∈g'.pending, call∈g.pending ∨ StartedIn rt h' call)
    (hcache : CacheWithin g.orchestrator.cache g'.orchestrator.cache) : Explained rt g' h' := by
  refine ⟨?_,?_⟩
  · intro call hc
    rcases hpending call hc with hold | hnew
    · exact (he.pendingStarted call hold).mono hsub
    · exact hnew
  · intro cache' hc' key entry hg
    obtain ⟨cache,hc,hcfg,hentry⟩ := hcache cache' hc' key entry hg
    exact (he.stored cache hc key entry hentry).mono hsub hcfg hclock

/-- A lookup shrinks the cache. -/
theorem lookupResult_within (rt : Runtime) (o : Orchestrator) (now : ℚ) (f : CallFrame)
    (sent : Json) : CacheWithin o.cache (lookupResult rt o now f sent).1.cache := by
  unfold lookupResult
  cases hc : o.cache with
  | none => exact fun c' h => (by rw [hc] at h; cases h)
  | some cache =>
    dsimp only
    split
    · rw [hc]
      exact CacheWithin.refl _
    · intro c' h key entry he
      cases h
      exact ⟨cache,rfl,ToolCache.getResult_cfg _ _ _ _ _,ToolCache.getResult_entries he⟩

/-- The first half of a call shrinks the cache. -/
theorem startCall_within (rt : Runtime) (o : Orchestrator) (now : ℚ) (request : CallRequest) :
    CacheWithin o.cache (startCall rt o now request).orchestrator.cache := by
  rcases mediated_or_none rt o now request with ⟨f,sent,reqRedacted,rfl,hmediated⟩ | hnot
  · have hlook := lookupResult_within rt (rateGate o now f).1 now f sent
    rw [rateGate_cache] at hlook
    rw [startCall_mediated hmediated]
    split <;> exact hlook
  · obtain ⟨outcome,-,-,hcache,-⟩ := startCall_not_mediated hnot
    rw [hcache]
    exact CacheWithin.refl _

/-- A manifest request leaves the results alone. -/
theorem buildManifest_within (o : Orchestrator) (now : ℚ) (tag : Option String) :
    CacheWithin o.cache (buildManifest o now tag).1.cache := by
  have hget : ∀ cache : ToolCache ToolManifest, (cache.getManifest now).1.cfg=cache.cfg ∧
      (cache.getManifest now).1.resultStore=cache.resultStore := by
    intro cache
    unfold ToolCache.getManifest
    split <;> exact ⟨rfl,rfl⟩
  have hset : ∀ (cache : ToolCache ToolManifest) manifest,
      (cache.setManifest manifest now).cfg=cache.cfg ∧
      (cache.setManifest manifest now).resultStore=cache.resultStore := by
    intro cache manifest
    unfold ToolCache.setManifest
    split <;> exact ⟨rfl,rfl⟩
  unfold buildManifest
  split
  · rename_i cache hc
    dsimp only
    split
    · intro c' h key entry he
      cases h
      rw [(hget cache).2] at he
      exact ⟨cache,hc,(hget cache).1,he⟩
    · intro c' h key entry he
      cases h
      rw [(hset _ _).2,(hget cache).2] at he
      exact ⟨cache,hc,(hset _ _).1.trans (hget cache).1,he⟩
  · exact CacheWithin.refl _

/-- A call that waits after its first half was started by it. -/
theorem startCall_started {rt : Runtime} {o : Orchestrator} {now : ℚ} {request : CallRequest}
    {call : PendingCall} (h : (startCall rt o now request).result=.waiting call) :
    call.frame.request=request ∧ Mediated rt o now call.frame call.sent call.reqRedacted ∧
      Effect.upstream call.frame.entry.client call.frame.rawTool call.sent
        request.principal.agentId∈(startCall rt o now request).effects := by
  rcases mediated_or_none rt o now request with ⟨f,sent,reqRedacted,rfl,hmediated⟩ | hnot
  · rw [startCall_mediated hmediated] at h ⊢
    cases hl : (lookupResult rt (rateGate o now f).1 now f sent).2 with
    | some content =>
      rw [hl] at h
      cases h
    | none =>
      rw [hl] at h
      cases h
      exact ⟨rfl,hmediated,List.mem_singleton_self _⟩
  · obtain ⟨outcome,hended,-⟩ := startCall_not_mediated hnot
    rw [hended] at h
    cases h

/-- After storing, a cached result is an old one or the one just stored, under
the call's key and with the tool's lifetime. -/
theorem storeResult_stored {rt : Runtime} {o : Orchestrator} {call : PendingCall} {now : ℚ}
    {clean : Json} {later : ToolCache ToolManifest} {key : String} {entry : CacheEntry Json}
    (hc : (storeResult rt o call now clean).1.cache=some later)
    (hg : later.resultStore.entries.get? key=some entry) :
    ∃ cache, o.cache=some cache ∧ later.cfg=cache.cfg ∧
      (cache.resultStore.entries.get? key=some entry ∨
        ToolCache.resultKey rt call.frame.qualified call.sent=key ∧
          entry=⟨clean,now+cache.toolTtl call.frame.qualified⟩) := by
  unfold storeResult at hc
  cases ho : o.cache with
  | none =>
    rw [ho] at hc
    dsimp only at hc
    rw [ho] at hc
    cases hc
  | some cache =>
    rw [ho] at hc
    dsimp only at hc
    split at hc
    · rw [ho] at hc
      cases hc
      exact ⟨later,rfl,rfl,Or.inl hg⟩
    · cases hc
      unfold ToolCache.setResult at hg ⊢
      split at hg
      · rename_i hoff
        rw [if_pos hoff]
        exact ⟨cache,rfl,rfl,Or.inl hg⟩
      · rename_i hon
        rw [if_neg hon]
        refine ⟨cache,rfl,rfl,?_⟩
        rcases TTLStore.set_entries hg with hold | ⟨hkey,-,hentry⟩
        · exact Or.inl hold
        · exact Or.inr ⟨hkey,hentry⟩

/-- After the second half of a call, a cached result is an old one or this
call's redacted answer under this call's key. -/
theorem finishCall_stored {rt : Runtime} {o : Orchestrator} {now : ℚ} {call : PendingCall}
    {answer : UpstreamAnswer} {later : ToolCache ToolManifest} {key : String}
    {entry : CacheEntry Json}
    (hc : (finishCall rt o now call answer).orchestrator.cache=some later)
    (hg : later.resultStore.entries.get? key=some entry) :
    ∃ cache, o.cache=some cache ∧ later.cfg=cache.cfg ∧
      (cache.resultStore.entries.get? key=some entry ∨
        ∃ value flag, answer=.content value ∧
          o.redactor.redact rt .response value=.ok (entry.value,flag) ∧
          ToolCache.resultKey rt call.frame.qualified call.sent=key ∧
          entry.expiresAt=now+cache.toolTtl call.frame.qualified) := by
  cases answer with
  | upstreamError e => exact ⟨later,hc,rfl,Or.inl hg⟩
  | exception text => exact ⟨later,hc,rfl,Or.inl hg⟩
  | cancelled => exact ⟨later,hc,rfl,Or.inl hg⟩
  | content value =>
    unfold finishCall at hc
    dsimp only at hc
    cases hr : o.redactor.redact rt .response value with
    | error text =>
      rw [hr] at hc
      exact ⟨later,hc,rfl,Or.inl hg⟩
    | ok pair =>
      obtain ⟨clean,flag⟩ := pair
      rw [hr] at hc
      obtain ⟨cache,ho,hcfg,hold | ⟨hkey,rfl⟩⟩ := storeResult_stored hc hg
      · exact ⟨cache,ho,hcfg,Or.inl hold⟩
      · exact ⟨cache,ho,hcfg,Or.inr ⟨value,flag,rfl,hr,hkey,rfl⟩⟩

/-- A policy swap keeps the cache or installs an empty one. -/
theorem swapPolicies_within (rt : Runtime) (cfg : GatewayConfig) (o : Orchestrator) :
    CacheWithin o.cache (swapPolicies rt cfg o).cache := by
  unfold swapPolicies
  dsimp only
  split
  · exact CacheWithin.refl _
  · intro c' hc' key entry he
    cases hc'
    cases he

/-- The start of a call explains the call that waits afterwards. -/
theorem explained_callStart (rt : Runtime) (g : Gateway) (h : List GatewayEvent)
    (request : CallRequest) (he : Explained rt g h) :
    Explained rt (step rt g (.callStart request)).1
      (h++(step rt g (.callStart request)).2.toList) := by
  have hsub : h⊆h++(step rt g (.callStart request)).2.toList := List.subset_append_left _ _
  refine he.shrink hsub (le_refl g.clock) ?_ (startCall_within rt g.orchestrator g.clock request)
  intro call hc
  rcases List.mem_append.mp hc with hold | hnew
  · exact Or.inl hold
  · cases hr : (startCall rt g.orchestrator g.clock request).result with
    | ended outcome =>
      rw [hr] at hnew
      exact absurd hnew List.not_mem_nil
    | waiting call' =>
      rw [hr] at hnew
      rw [List.mem_singleton.mp hnew]
      obtain ⟨hreq,hm,hup⟩ := startCall_started hr
      refine Or.inr ⟨g.clock,g.orchestrator,startCall rt g.orchestrator g.clock request,?_,?_,
        hm.redacted⟩
      · rw [hreq]
        exact List.mem_append_right _ (List.mem_singleton_self _)
      · rw [hreq]
        exact hup

/-- The answer to a call explains the result that it stores. -/
theorem explained_callFinish (rt : Runtime) (g : Gateway) (h : List GatewayEvent) (index : ℕ)
    (outcome : UpstreamOutcome) (he : Explained rt g h) :
    Explained rt (step rt g (.callFinish index outcome)).1
      (h++(step rt g (.callFinish index outcome)).2.toList) := by
  have hsub : h⊆h++(step rt g (.callFinish index outcome)).2.toList := List.subset_append_left _ _
  cases hp : g.pending[index]? with
  | none =>
    simp only [step,hp,Option.toList_none,List.append_nil]
    exact he
  | some call =>
    have hstarted := he.pendingStarted call (List.mem_of_getElem? hp)
    simp only [step,hp,Option.toList_some] at hsub ⊢
    refine ⟨?_,?_⟩
    · intro other ho
      exact (he.pendingStarted other (List.mem_of_mem_eraseIdx ho)).mono hsub
    · intro later hc key entry hg
      obtain ⟨cache,ho,hcfg,hold | ⟨value,flag,hanswer,hred,hkey,hexp⟩⟩ :=
        finishCall_stored hc hg
      · exact (he.stored cache ho key entry hold).mono hsub hcfg (le_refl g.clock)
      · refine ⟨g.clock,call,g.orchestrator,outcome,_,value,flag,
          List.mem_append_right _ (List.mem_singleton_self _),hstarted.mono hsub,hkey,hanswer,
          hred,le_refl g.clock,?_⟩
        have httl : later.toolTtl call.frame.qualified=cache.toolTtl call.frame.qualified := by
          simp only [ToolCache.toolTtl,hcfg]
        rw [httl]
        exact hexp

/-- Every action keeps the state explained by the events so far. -/
theorem explained_step (rt : Runtime) (g : Gateway) (h : List GatewayEvent) (a : GatewayAction)
    (he : Explained rt g h) : Explained rt (step rt g a).1 (h++(step rt g a).2.toList) := by
  have hsub : h⊆h++(step rt g a).2.toList := List.subset_append_left _ _
  cases a with
  | registry action =>
    exact he.shrink hsub (le_refl g.clock) (fun _ hc => Or.inl hc)
      (CacheWithin.refl g.orchestrator.cache)
  | reload cfg =>
    exact he.shrink hsub (le_refl g.clock) (fun _ hc => Or.inl hc)
      (swapPolicies_within rt cfg g.orchestrator)
  | installWebhooks =>
    exact he.shrink hsub (le_refl g.clock) (fun _ hc => Or.inl hc)
      (CacheWithin.refl g.orchestrator.cache)
  | manifest tag =>
    exact he.shrink hsub (le_refl g.clock) (fun _ hc => Or.inl hc)
      (buildManifest_within g.orchestrator g.clock tag)
  | tick elapsed =>
    have hpos : (0 : ℚ)≤elapsed := elapsed.2
    have hclock : g.clock≤g.clock+elapsed := by linarith
    exact he.shrink hsub hclock (fun _ hc => Or.inl hc) (CacheWithin.refl g.orchestrator.cache)
  | callStart request => exact explained_callStart rt g h request he
  | callFinish index outcome => exact explained_callFinish rt g h index outcome he

/-- A booted gateway needs no explanation. -/
theorem explained_boot {rt : Runtime} {cfg : GatewayConfig} {cbPolicy : CircuitBreakerPolicy}
    {now : ℚ} {g : Gateway} (hb : boot rt cfg cbPolicy now=.ok g) : Explained rt g [] := by
  unfold boot at hb
  cases hs : SafetyFilter.new rt cfg.guardrails with
  | error text =>
    rw [hs] at hb
    cases hb
  | ok safety =>
    rw [hs] at hb
    cases hb
    refine ⟨fun _ hc => absurd hc List.not_mem_nil,?_⟩
    intro cache hc key entry hg
    cases hc
    cases hg

/-- The first half of a call writes the limiter and the cache. -/
theorem startCall_writes (rt : Runtime) (o : Orchestrator) (now : ℚ) (request : CallRequest) :
    ∃ limiter cache, (startCall rt o now request).orchestrator=
      {o with rateLimiter := limiter,cache := cache} := by
  have hlook : ∀ limiter f sent, ∃ cache,
      (lookupResult rt {o with rateLimiter := limiter} now f sent).1=
        {o with rateLimiter := limiter,cache := cache} := by
    intro limiter f sent
    unfold lookupResult
    split
    · exact ⟨o.cache,rfl⟩
    · split
      · exact ⟨o.cache,rfl⟩
      · exact ⟨_,rfl⟩
  unfold startCall
  cases resolve o.registry request.name request.serverId with
  | error e => exact ⟨o.rateLimiter,o.cache,rfl⟩
  | ok found =>
    obtain ⟨entry,rawTool⟩ := found
    dsimp only
    split
    · exact ⟨o.rateLimiter,o.cache,rfl⟩
    · obtain ⟨limiter,hgates⟩ := gates_frame rt o now ⟨request,entry,rawTool⟩
      rw [hgates]
      split
      · exact ⟨limiter,o.cache,rfl⟩
      · rename_i sent reqRedacted _
        obtain ⟨cache,hcache⟩ := hlook limiter ⟨request,entry,rawTool⟩ sent
        refine ⟨limiter,cache,?_⟩
        rw [←hcache]
        split <;> rfl

/-- The second half of a call writes the cache. -/
theorem finishCall_writes (rt : Runtime) (o : Orchestrator) (now : ℚ) (call : PendingCall)
    (answer : UpstreamAnswer) :
    ∃ cache, (finishCall rt o now call answer).orchestrator={o with cache := cache} := by
  have hstore : ∀ clean, ∃ cache,
      (storeResult rt o call now clean).1={o with cache := cache} := by
    intro clean
    unfold storeResult
    split
    · exact ⟨o.cache,rfl⟩
    · split
      · exact ⟨o.cache,rfl⟩
      · exact ⟨_,rfl⟩
  cases answer with
  | upstreamError e => exact ⟨o.cache,rfl⟩
  | exception text => exact ⟨o.cache,rfl⟩
  | cancelled => exact ⟨o.cache,rfl⟩
  | content value =>
    unfold finishCall
    dsimp only
    split
    · exact ⟨o.cache,rfl⟩
    · exact hstore _

/-- A manifest request writes the cache. -/
theorem buildManifest_writes (o : Orchestrator) (now : ℚ) (tag : Option String) :
    ∃ cache, (buildManifest o now tag).1={o with cache := cache} := by
  unfold buildManifest
  split
  · dsimp only
    split
    · exact ⟨_,rfl⟩
    · exact ⟨_,rfl⟩
  · exact ⟨o.cache,rfl⟩

/-- The action is no swap of the policies. -/
def KeepsPolicies : GatewayAction→Prop
  | .reload _ => False
  | _ => True

/-- Any other action writes the registry, the limiter, the cache and the
dispatcher. -/
theorem step_writes (rt : Runtime) (g : Gateway) {a : GatewayAction} (h : KeepsPolicies a) :
    ∃ registry limiter cache dispatcher, (step rt g a).1.orchestrator={g.orchestrator with
      registry := registry
      rateLimiter := limiter
      cache := cache
      webhookDispatcher := dispatcher} := by
  cases a with
  | registry action => exact ⟨_,_,_,_,rfl⟩
  | reload cfg => exact h.elim
  | installWebhooks => exact ⟨_,_,_,_,rfl⟩
  | manifest tag =>
    obtain ⟨cache,hwrites⟩ := buildManifest_writes g.orchestrator g.clock tag
    exact ⟨_,_,cache,_,hwrites⟩
  | tick elapsed => exact ⟨_,_,_,_,rfl⟩
  | callStart request =>
    obtain ⟨limiter,cache,hwrites⟩ := startCall_writes rt g.orchestrator g.clock request
    exact ⟨_,limiter,cache,_,hwrites⟩
  | callFinish index outcome =>
    unfold step
    dsimp only
    split
    · exact ⟨_,_,_,_,rfl⟩
    · rename_i call _
      obtain ⟨cache,hwrites⟩ :=
        finishCall_writes rt g.orchestrator g.clock call (clientAnswer rt outcome)
      exact ⟨_,_,cache,_,hwrites⟩

end McpGateway.GatewayRuns
