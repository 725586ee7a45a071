import Mathlib
import McpGateway.PyDict
import McpGateway.StepRun
import McpGateway.JsonValue
import McpGateway.JsonEncoding
import McpGateway.GatewaySettings
import McpGateway.CircuitBreakers
import McpGateway.ToolNaming
import McpGateway.RegistryRuns
import McpGateway.ToolRouting
import McpGateway.ToolAuthorizer
import McpGateway.PyRuntime
import McpGateway.PiiRedactor
import McpGateway.Guardrails
import McpGateway.ResultCache
import McpGateway.UpstreamContent
import McpGateway.ToolOrchestrator
import McpGateway.CallMediation
import McpGateway.GatewayRuns

/-!
# Provenance of cached results

A result served from the cache is the redacted answer to an earlier call of
the same run with the same qualified name and the same arguments, no older
than the lifetime of that name. The key names no server, so the earlier call
may have gone to another server with the same prefix.
-/

namespace McpGateway.CacheProvenance

open PyDict StepRun JsonValue JsonEncoding GatewaySettings CircuitBreakers ToolNaming RegistryRuns
open ToolRouting ToolAuthorizer PyRuntime PiiRedactor Guardrails ResultCache UpstreamContent
open ToolOrchestrator CallMediation GatewayRuns

/-- The result served to a mediated call is the redacted answer to an earlier
started call whose qualified name is the same and whose sent arguments are
related, and it is not older than the lifetime of that name. -/
def ServedFrom (rt : Runtime) (same : Json→Json→Prop) (earlier : List GatewayEvent) (time : ℚ)
    (request : CallRequest) (before : Orchestrator) (result : ToolCallResult) : Prop :=
  ∃ f sent reqRedacted cache, f.request=request ∧
    Mediated rt before time f sent reqRedacted ∧ before.cache=some cache ∧
    result.serverId=f.entry.server.id ∧ result.tool=f.rawTool ∧
    ∃ answered call o outcome report value flag,
      GatewayEvent.finished answered call o outcome report∈earlier ∧ StartedIn rt earlier call ∧
      call.frame.qualified=f.qualified ∧ same call.sent sent ∧
      clientAnswer rt outcome=.content value ∧
      o.redactor.redact rt .response value=.ok (result.content,flag) ∧
      answered≤time ∧ time≤answered+cache.toolTtl f.qualified

/-- Every result that a first half returns is served from an earlier call. -/
def AllServed (rt : Runtime) (same : Json→Json→Prop) (events : List GatewayEvent) : Prop :=
  ∀ earlier later time request before report result,
    events=earlier++GatewayEvent.started time request before report::later→
    report.result=.ended (.returned result)→
      ServedFrom rt same earlier time request before result

/-- Two argument values are equal up to the order of members at any depth,
numbers by their printed form. -/
def SameArguments (rt : Runtime) (a b : Json) : Prop := spell rt.reprFloat a=spell rt.reprFloat b

/-- The value is the redaction of the arguments of a call of the run. -/
def SentIn (rt : Runtime) (events : List GatewayEvent) (v : Json) : Prop :=
  ∃ time request before report flag, GatewayEvent.started time request before report∈events ∧
    before.redactor.redact rt .request request.arguments=.ok (v,flag)

/-- No two encodings of arguments of the run share their truncated digest. -/
def NoCollision (rt : Runtime) (events : List GatewayEvent) : Prop :=
  ∀ a b, SentIn rt events a→SentIn rt events b→argsHash rt a=argsHash rt b→
    a.dumps rt.reprFloat=b.dumps rt.reprFloat

/-- A result that a first half returns was found in the cache. -/
theorem startCall_returned {rt : Runtime} {o : Orchestrator} {now : ℚ} {request : CallRequest}
    {result : ToolCallResult}
    (h : (startCall rt o now request).result=.ended (.returned result)) :
    ∃ f sent reqRedacted cache, f.request=request ∧ Mediated rt o now f sent reqRedacted ∧
      o.cache=some cache ∧ result.serverId=f.entry.server.id ∧ result.tool=f.rawTool ∧
      (cache.getResult rt f.qualified sent now).2=some result.content := by
  obtain ⟨f,sent,reqRedacted,content,hf,hmediated,hlooked,rfl⟩ := startCall_found h
  obtain ⟨cache,hc,-,hget⟩ := lookupResult_some hlooked
  exact ⟨f,sent,reqRedacted,cache,hf,hmediated,hc,rfl,rfl,hget⟩

/-- A cached result of an explained gateway is served from an earlier call
with an equal digest. -/
theorem served_of_explained {rt : Runtime} {g : Gateway} {h : List GatewayEvent}
    (he : Explained rt g h) {request : CallRequest} {result : ToolCallResult}
    (hr : (startCall rt g.orchestrator g.clock request).result=.ended (.returned result)) :
    ServedFrom rt (fun a b => argsHash rt a=argsHash rt b) h g.clock request g.orchestrator
      result := by
  obtain ⟨f,sent,reqRedacted,cache,hf,hm,hc,hserver,htool,hget⟩ := startCall_returned hr
  obtain ⟨entry,hentry,hvalue,hlive⟩ := ToolCache.getResult_some hget
  obtain ⟨answered,call,o,outcome,report,value,flag,hfin,hstart,hkey,hanswer,hred,htime,hexp⟩ :=
    he.stored cache hc _ entry hentry
  obtain ⟨hq,hhash⟩ := ToolCache.resultKey_inj rt hkey
  rw [hvalue] at hred
  have hage : g.clock≤answered+cache.toolTtl f.qualified := by
    rw [←hq,←hexp]
    exact hlive
  exact ⟨f,sent,reqRedacted,cache,hf,hm,hc,hserver,htool,answered,call,o,outcome,report,value,
    flag,hfin,hstart,hq,hhash,hanswer,hred,htime,hage⟩

/-- So is every cached result that a step emits. -/
theorem served_of_emitted {rt : Runtime} {g : Gateway} {h : List GatewayEvent}
    {a : GatewayAction} (he : Explained rt g h) {time : ℚ} {request : CallRequest}
    {before : Orchestrator} {report : CallReport CallProgress} {result : ToolCallResult}
    (ho : (step rt g a).2=some (.started time request before report))
    (hres : report.result=.ended (.returned result)) :
    ServedFrom rt (fun a b => argsHash rt a=argsHash rt b) h time request before result := by
  cases a with
  | callStart request' =>
    cases ho
    exact served_of_explained he hres
  | callFinish index outcome =>
    simp only [GatewayRuns.step] at ho
    split at ho <;> cases ho
  | registry action => cases ho
  | reload cfg => cases ho
  | installWebhooks => cases ho
  | manifest tag => cases ho
  | tick elapsed => cases ho

/-- In every run, a result served from the cache was produced by an earlier
upstream call of the run with the same qualified name and, as far as digests
of the run do not collide, the same redacted arguments, at most one lifetime
of that name ago. -/
theorem cached_provenance (rt : Runtime) (cfg : GatewayConfig) (cbPolicy : CircuitBreakerPolicy)
    (now : ℚ) (g : Gateway) (hb : boot rt cfg cbPolicy now=.ok g) (actions : List GatewayAction)
    (hsha : NoCollision rt (run (step rt) g actions).2) :
    AllServed rt (SameArguments rt) (run (step rt) g actions).2 := by
  intro earlier later time request before report result hsplit hres
  have hserved := run_event (J:=Explained rt)
    (Q:=fun h e => ∀ time request before report result, e=.started time request before report→
      report.result=.ended (.returned result)→
      ServedFrom rt (fun a b => argsHash rt a=argsHash rt b) h time request before result)
    (explained_step rt)
    (fun _ _ _ _ he ho _ _ _ _ _ hev hres => served_of_emitted he (ho.trans (by rw [hev])) hres)
    (explained_boot hb) actions hsplit time request before report result rfl hres
  rw [List.nil_append] at hserved
  obtain ⟨f,sent,reqRedacted,cache,hf,hm,hc,hserver,htool,answered,call,o,outcome,rep,value,flag,
    hfin,hstart,hq,hhash,hanswer,hred,htime,hage⟩ := hserved
  have hsub : earlier⊆(run (step rt) g actions).2 := by
    rw [hsplit]
    exact List.subset_append_left _ _
  have hcall : SentIn rt (run (step rt) g actions).2 call.sent := by
    obtain ⟨t,b,r,hmem,-,hredact⟩ := hstart
    exact ⟨t,_,b,r,_,hsub hmem,hredact⟩
  have hthis : SentIn rt (run (step rt) g actions).2 sent := by
    have hredact := hm.redacted
    rw [hf] at hredact
    refine ⟨time,request,before,report,reqRedacted,?_,hredact⟩
    rw [hsplit]
    exact List.mem_append_right _ List.mem_cons_self
  have hencoded := hsha _ _ hcall hthis hhash
  have hsame : SameArguments rt call.sent sent :=
    (dumps_eq_iff rt.reprFloat_numeral call.sent sent).mp hencoded
  exact ⟨f,sent,reqRedacted,cache,hf,hm,hc,hserver,htool,answered,call,o,outcome,rep,value,flag,
    hfin,hstart,hq,hsame,hanswer,hred,htime,hage⟩

/-- Results returned by first halves, in order. -/
def cachedResults (events : List GatewayEvent) : List ToolCallResult :=
  events.filterMap (fun e => match e with
    | .started _ _ _ ⟨_,_,.ended (.returned result)⟩ => some result
    | _ => none)

/-- Servers whose upstreams answered, in order. -/
def answeredServers (events : List GatewayEvent) : List String :=
  events.filterMap (fun e => match e with
    | .finished _ call _ _ _ => some call.frame.entry.server.id
    | _ => none)

/-- Arguments that the calls started were to send, in order. -/
def sentArguments (rt : Runtime) (events : List GatewayEvent) : List Json :=
  events.filterMap (fun e => match e with
    | .started _ request before _ =>
      ((before.redactor.redact rt .request request.arguments).toOption).map Prod.fst
    | _ => none)

/-- Only these have to be told apart by their digests. -/
theorem noCollision_of_sent {rt : Runtime} {events : List GatewayEvent}
    (h : ∀ a∈sentArguments rt events, ∀ b∈sentArguments rt events,
      argsHash rt a=argsHash rt b→a.dumps rt.reprFloat=b.dumps rt.reprFloat) :
    NoCollision rt events := by
  have hsent : ∀ v, SentIn rt events v→v∈sentArguments rt events := by
    intro v hv
    obtain ⟨time,request,before,report,flag,hmem,hred⟩ := hv
    have hvalue : ((before.redactor.redact rt .request request.arguments).toOption).map Prod.fst=
        some v := by
      rw [hred]
      rfl
    exact List.mem_filterMap.mpr ⟨_,hmem,hvalue⟩
  intro a b ha hb
  exact h a (hsent a ha) b (hsent b hb)

/-- A configuration that caches every result for a minute and limits nothing. -/
def cachingConfig : GatewayConfig where
  rateLimiting := {enabled := false}
  schemaValidation := {enabled := false}
  cache := {defaultToolTtl := 60}

/-- Its gateway. -/
def cachingGateway : Gateway where
  clock := 0
  orchestrator := {
    registry := (start {} {}).registry
    authorizer := {}
    redactor := Redactor.new asciiRuntime {}
    safety := ⟨{},[]⟩
    rateLimiter := some {cfg := {enabled := false}}
    audit := true
    schemaValidator := some ⟨false,false⟩
    cache := some {cfg := {defaultToolTtl := 60}}
    webhookDispatcher := true}

/-- A request for tool `t` of a given server. -/
def serverRequest (serverId : String) : CallRequest :=
  {plainRequest "t" with serverId := some serverId}

/-- One server answers, then a call to a server with the same prefix starts. -/
def sharedPrefixRun (first second : String) : List GatewayAction :=
  [.registry (.register {id := "a",toolPrefix := some "p"}),
    .registry (.register {id := "b",toolPrefix := some "p"}),
    .callStart (serverRequest first),.callFinish 0 (.answered ⟨[.text "A"],false⟩),
    .callStart (serverRequest second)]

theorem cached_provenance_same_server :
    ((cachedResults (run (step asciiRuntime) cachingGateway (sharedPrefixRun "a" "a")).2).map
      ToolCallResult.content=[.str "A"]) ∧
    AllServed asciiRuntime (SameArguments asciiRuntime)
      (run (step asciiRuntime) cachingGateway (sharedPrefixRun "a" "a")).2 :=
  ⟨by decide +kernel,cached_provenance asciiRuntime cachingConfig {} 0 cachingGateway rfl
    (sharedPrefixRun "a" "a") (noCollision_of_sent (by decide +kernel))⟩

/-- A result of one server is served for another server with its prefix,
whose upstream was never called. -/
theorem cached_from_other_server :
    ∃ result∈cachedResults (run (step asciiRuntime) cachingGateway (sharedPrefixRun "a" "b")).2,
      result.serverId="b" ∧ "b"∉answeredServers
        (run (step asciiRuntime) cachingGateway (sharedPrefixRun "a" "b")).2 := by
  decide +kernel

end McpGateway.CacheProvenance
