import Mathlib
import McpGateway.PyDict
import McpGateway.StepRun
import McpGateway.JsonValue
import McpGateway.GatewaySettings
import McpGateway.CircuitBreakers
import McpGateway.ServerRegistry
import McpGateway.RegistryRuns
import McpGateway.ToolRouting
import McpGateway.ToolAuthorizer
import McpGateway.PyRuntime
import McpGateway.PiiRedactor
import McpGateway.Guardrails
import McpGateway.ResultCache
import McpGateway.UpstreamContent
import McpGateway.ToolOrchestrator
import McpGateway.CallMediation
import McpGateway.GatewayRuns
import McpGateway.CacheProvenance

/-!
# Sharing of results between agents

A result is either the redacted answer to the request sent on its caller's own
behalf, or it is shared from the cache. The key of the cache names no agent,
so a tool that the operator marks as cacheable shares its results among
agents, on servers that are told the agent's identity as well.
-/

namespace McpGateway.ResultSharing

open PyDict StepRun JsonValue GatewaySettings CircuitBreakers ServerRegistry RegistryRuns
open ToolRouting ToolAuthorizer PyRuntime PiiRedactor Guardrails ResultCache UpstreamContent
open ToolOrchestrator CallMediation GatewayRuns CacheProvenance

/-- The result of a finished call is the redacted answer to the request that
was sent on behalf of its caller. -/
def OwnAnswer (rt : Runtime) (earlier : List GatewayEvent) (call : PendingCall)
    (before : Orchestrator) (outcome : UpstreamOutcome) (result : ToolCallResult) : Prop :=
  result.cached=false ∧ StartedIn rt earlier call ∧
    ∃ value flag, clientAnswer rt outcome=.content value ∧
      before.redactor.redact rt .response value=.ok (result.content,flag)

/-- The result is the redacted answer to an earlier call, of whichever agent,
with the same qualified name and digest of the sent arguments; the tool is not
mutable, has a positive lifetime, and the answer is not older than that. -/
def SharedAnswer (rt : Runtime) (earlier : List GatewayEvent) (time : ℚ) (request : CallRequest)
    (before : Orchestrator) (result : ToolCallResult) : Prop :=
  result.cached=true ∧ ∃ f sent reqRedacted cache, f.request=request ∧
    Mediated rt before time f sent reqRedacted ∧ before.cache=some cache ∧
    f.mutable=false ∧ 0<cache.toolTtl f.qualified ∧
    ∃ answered call o outcome report value flag,
      GatewayEvent.finished answered call o outcome report∈earlier ∧ StartedIn rt earlier call ∧
      call.frame.qualified=f.qualified ∧ argsHash rt call.sent=argsHash rt sent ∧
      clientAnswer rt outcome=.content value ∧
      o.redactor.redact rt .response value=.ok (result.content,flag) ∧
      answered≤time ∧ time≤answered+cache.toolTtl f.qualified

/-- What an event says about the result it hands to a caller. -/
def Attributed (rt : Runtime) (earlier : List GatewayEvent) : GatewayEvent→Prop
  | .started time request before report =>
    ∀ result, report.result=.ended (.returned result)→
      SharedAnswer rt earlier time request before result
  | .finished _ call before outcome report =>
    ∀ result, report.result=.returned result→ OwnAnswer rt earlier call before outcome result

/-- Only a tool that is not mutable and has a positive lifetime is answered
from the cache. -/
theorem startCall_shared {rt : Runtime} {o : Orchestrator} {now : ℚ} {request : CallRequest}
    {result : ToolCallResult}
    (h : (startCall rt o now request).result=.ended (.returned result)) :
    result.cached=true ∧ ∃ f sent reqRedacted cache, f.request=request ∧
      Mediated rt o now f sent reqRedacted ∧ o.cache=some cache ∧ f.mutable=false ∧
      0<cache.toolTtl f.qualified := by
  obtain ⟨f,sent,reqRedacted,content,hf,hm,hlooked,rfl⟩ := startCall_found h
  obtain ⟨cache,hc,hmutable,hget⟩ := lookupResult_some hlooked
  refine ⟨rfl,f,sent,reqRedacted,cache,hf,hm,hc,hmutable,?_⟩
  by_contra hpos
  unfold ToolCache.getResult at hget
  rw [if_pos (Or.inr (not_lt.mp hpos))] at hget
  cases hget

/-- A returned answer is the redaction of the upstream's content. -/
theorem finishCall_returned {rt : Runtime} {o : Orchestrator} {now : ℚ} {call : PendingCall}
    {answer : UpstreamAnswer} {result : ToolCallResult}
    (h : (finishCall rt o now call answer).result=.returned result) :
    ∃ value flag, answer=.content value ∧
      o.redactor.redact rt .response value=.ok (result.content,flag) := by
  cases answer with
  | upstreamError e => cases h
  | exception text => cases h
  | cancelled => cases h
  | content value =>
    unfold finishCall at h
    dsimp only at h
    cases hr : o.redactor.redact rt .response value with
    | error text =>
      rw [hr] at h
      cases h
    | ok pair =>
      rw [hr] at h
      cases h
      exact ⟨value,pair.2,rfl,hr⟩

/-- The events of an explained gateway attribute what they hand out. -/
theorem attributed_step (rt : Runtime) (g : Gateway) (h : List GatewayEvent) (a : GatewayAction)
    (e : GatewayEvent) (he : Explained rt g h) (ho : (step rt g a).2=some e) :
    Attributed rt h e := by
  cases a with
  | callStart request =>
    cases ho
    intro result hres
    obtain ⟨hcached,f,sent,reqRedacted,cache,hf,hm,hc,hmutable,hpos⟩ := startCall_shared hres
    obtain ⟨f',sent',flag',cache',hf',hm',hc',-,-,hanswer⟩ := served_of_explained he hres
    obtain ⟨rfl,-,-⟩ := mediated_unique hm' hm (hf.trans hf'.symm)
    rw [hc] at hc'
    cases hc'
    exact ⟨hcached,f,sent',flag',cache,hf',hm',hc,hmutable,hpos,hanswer⟩
  | callFinish index outcome =>
    simp only [GatewayRuns.step] at ho
    split at ho
    · cases ho
    · rename_i call hcall
      cases ho
      intro result hres
      obtain ⟨value,flag,hanswer,hredact⟩ := finishCall_returned hres
      exact ⟨finishCall_fresh hres,he.pendingStarted call (List.mem_of_getElem? hcall),value,flag,
        hanswer,hredact⟩
  | registry action => cases ho
  | reload cfg => cases ho
  | installWebhooks => cases ho
  | manifest tag => cases ho
  | tick elapsed => cases ho

/-- Every event attributes what it hands out, given the events before it. -/
def AllAttributed (rt : Runtime) (events : List GatewayEvent) : Prop :=
  ∀ earlier later e, events=earlier++e::later→Attributed rt earlier e

/-- In every run, whatever a caller receives is the redacted answer to the
request sent on its own behalf, or shared from the cache. -/
theorem results_attributed (rt : Runtime) (cfg : GatewayConfig)
    (cbPolicy : CircuitBreakerPolicy) (now : ℚ) (g : Gateway)
    (hb : boot rt cfg cbPolicy now=.ok g) (actions : List GatewayAction) :
    AllAttributed rt (run (step rt) g actions).2 := by
  intro earlier later e hsplit
  have hattributed := run_event (J:=Explained rt) (Q:=Attributed rt) (explained_step rt)
    (attributed_step rt) (explained_boot hb) actions hsplit
  rwa [List.nil_append] at hattributed

/-- A server that is told the agent of every call. -/
def identityServer : UpstreamServer where
  id := "a"
  serverAuth := some {forwardAgentIdHeader := some "X-Agent"}

/-- A request of a given agent for tool `t` of that server. -/
def agentRequest (agentId : String) : CallRequest where
  principal := ⟨agentId,[]⟩
  name := "t"
  arguments := .obj []
  serverId := some "a"

/-- The first agent's call is answered, then the second agent makes the same
call. -/
def sharingRun (first second : String) : List GatewayAction :=
  [.registry (.register identityServer),.callStart (agentRequest first),
    .callFinish 0 (.answered ⟨[.text "A"],false⟩),.callStart (agentRequest second)]

/-- Agents with the content handed to them, in order. -/
def received (events : List GatewayEvent) : List (String×Json) :=
  events.filterMap (fun e => match e with
    | .started _ request _ ⟨_,_,.ended (.returned result)⟩ =>
      some (request.principal.agentId,result.content)
    | .finished _ call _ _ ⟨_,_,.returned result⟩ =>
      some (call.frame.request.principal.agentId,result.content)
    | _ => none)

/-- Agents on whose behalf an upstream was called, in order. -/
def calledFor (events : List GatewayEvent) : List String :=
  events.flatMap (fun e => match e with
    | .started _ _ _ report => report.effects.filterMap (fun effect => match effect with
      | .upstream _ _ _ agentId => some agentId
      | _ => none)
    | .finished _ _ _ _ _ => [])

theorem results_attributed_shared :
    received (run (step asciiRuntime) cachingGateway (sharingRun "x" "x")).2=
      [("x",.str "A"),("x",.str "A")] ∧
    AllAttributed asciiRuntime (run (step asciiRuntime) cachingGateway (sharingRun "x" "x")).2 :=
  ⟨by decide +kernel,results_attributed asciiRuntime cachingConfig {} 0 cachingGateway rfl
    (sharingRun "x" "x")⟩

/-- An agent receives the content that the server produced for another agent;
without the other agent's call it would have received nothing yet. -/
theorem shared_between_agents :
    received (run (step asciiRuntime) cachingGateway (sharingRun "x" "y")).2=
      [("x",.str "A"),("y",.str "A")] ∧
    calledFor (run (step asciiRuntime) cachingGateway (sharingRun "x" "y")).2=["x"] ∧
    received (run (step asciiRuntime) cachingGateway
      [.registry (.register identityServer),.callStart (agentRequest "y")]).2=[] ∧
    calledFor (run (step asciiRuntime) cachingGateway
      [.registry (.register identityServer),.callStart (agentRequest "y")]).2=["y"] := by
  decide +kernel

end McpGateway.ResultSharing
