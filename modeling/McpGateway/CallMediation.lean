import Mathlib
import McpGateway.PyDict
import McpGateway.StepRun
import McpGateway.JsonValue
import McpGateway.GatewaySettings
import McpGateway.ToolNaming
import McpGateway.ServerRegistry
import McpGateway.RegistryRuns
import McpGateway.ToolRouting
import McpGateway.ToolAuthorizer
import McpGateway.RateLimiting
import McpGateway.PyRuntime
import McpGateway.PiiRedactor
import McpGateway.Guardrails
import McpGateway.SchemaValidation
import McpGateway.ResultCache
import McpGateway.UpstreamContent
import McpGateway.ToolOrchestrator

/-!
# Complete mediation of tool calls

A call is mediated when routing and every gate accept it. The first half of
a mediated call is the cache lookup and, on a miss, one invocation of the
resolved client with the redacted arguments; the first half of any other call
ends there, reports at most, and leaves the cache alone.
-/

namespace McpGateway.CallMediation

open PyDict StepRun JsonValue GatewaySettings ToolNaming ServerRegistry RegistryRuns ToolRouting
open ToolAuthorizer RateLimiting PyRuntime PiiRedactor Guardrails SchemaValidation ResultCache
open UpstreamContent ToolOrchestrator

/-- Every gate accepts the call, for the tool and arguments it concerns. -/
structure Mediated (rt : Runtime) (o : Orchestrator) (now : ℚ) (f : CallFrame) (sent : Json)
    (reqRedacted : Bool) : Prop where
  /-- Routing resolves the request to this entry and raw tool. -/
  resolved : resolve o.registry f.request.name f.request.serverId=.ok (f.entry,f.rawTool)
  /-- The resolved server is enabled. -/
  enabled : f.entry.server.enabled=true
  /-- The principal is authorized for exactly this raw tool and its mutability. -/
  authorized : authorizeToolCall o.authorizer f.request.principal f.rawTool f.qualified
    (decide (f.rawTool∈f.entry.server.mutableTools))=.ok ()
  /-- The rate limiter, if any, grants the call. -/
  granted : ∀ limiter, o.rateLimiter=some limiter→
    (limiter.check now f.request.principal.agentId f.qualified).2=.granted
  /-- The guardrails accept the raw tool with the arguments as received. -/
  guarded : o.safety.check rt f.rawTool f.request.arguments=.ok ()
  /-- The schema validator, if any, accepts the arguments. -/
  valid : ∀ validator, o.schemaValidator=some validator→
    validator.validate rt f.rawTool f.request.arguments (inputSchema f)=.ok ()
  /-- What is sent is the redaction of the arguments. -/
  redacted : o.redactor.redact rt .request f.request.arguments=.ok (sent,reqRedacted)

/-- Effects that neither call an upstream nor write the cache. -/
def IsReport : Effect→Prop
  | .upstream _ _ _ _ => False
  | .storeResult _ _ _ => False
  | _ => True

/-- All that auditing emits is the given record. -/
theorem emitAudit_mem {o : Orchestrator} {record : AuditRecord} {e : Effect}
    (h : e∈emitAudit o record) : e=.audit record := by
  unfold emitAudit at h
  split at h
  · exact List.mem_singleton.mp h
  · exact absurd h List.not_mem_nil

/-- All that a dispatch emits is the one event, with the common fields first. -/
theorem dispatch_mem {o : Orchestrator} {f : CallFrame} {event : String}
    {fields : List (String×Json)} {e : Effect} (h : e∈dispatch o f event fields) :
    e=.webhook event (.obj ([("agent_id",.str f.request.principal.agentId),
      ("server_id",.str f.entry.server.id),("tool",.str f.rawTool)]++fields)) := by
  unfold dispatch at h
  split at h
  · exact List.mem_singleton.mp h
  · exact absurd h List.not_mem_nil

/-- All that storing a result emits is the one cache write. -/
theorem storeResult_mem {rt : Runtime} {o : Orchestrator} {call : PendingCall} {now : ℚ}
    {clean : Json} {e : Effect} (h : e∈(storeResult rt o call now clean).2) :
    e=.storeResult call.frame.qualified call.sent clean := by
  unfold storeResult at h
  split at h
  · exact absurd h List.not_mem_nil
  · split at h
    · exact absurd h List.not_mem_nil
    · exact List.mem_singleton.mp h

/-- An emitted audit record is a report. -/
theorem emitAudit_report {o : Orchestrator} {record : AuditRecord} {e : Effect}
    (h : e∈emitAudit o record) : IsReport e := by
  rw [emitAudit_mem h]
  trivial

/-- A dispatched event is a report. -/
theorem dispatch_report {o : Orchestrator} {f : CallFrame} {event : String}
    {fields : List (String×Json)} {e : Effect} (h : e∈dispatch o f event fields) :
    IsReport e := by
  rw [dispatch_mem h]
  trivial

/-- A refused call only reports. -/
theorem refusalEffects_report (o : Orchestrator) (f : CallFrame) (refusal : Refusal) :
    ∀ e∈refusalEffects o f refusal, IsReport e := by
  intro e he
  cases refusal with
  | crash text => exact absurd he List.not_mem_nil
  | authorization error =>
    rcases List.mem_cons.mp he with rfl | he
    · trivial
    · exact emitAudit_report he
  | rateLimit scope =>
    rcases List.mem_cons.mp he with rfl | he
    · trivial
    · exact emitAudit_report he
  | guardrail violation =>
    rcases List.mem_append.mp he with he | he
    · rcases List.mem_cons.mp he with rfl | he
      · trivial
      · exact emitAudit_report he
    · exact dispatch_report he
  | schema error =>
    rcases List.mem_append.mp he with he | he
    · rcases List.mem_cons.mp he with rfl | he
      · trivial
      · exact emitAudit_report he
    · exact dispatch_report he

/-- The rate gate changes nothing but the limiter. -/
theorem rateGate_frame (o : Orchestrator) (now : ℚ) (f : CallFrame) :
    ∃ limiter, (rateGate o now f).1={o with rateLimiter := limiter} := by
  unfold rateGate
  split
  · exact ⟨o.rateLimiter,rfl⟩
  · exact ⟨_,rfl⟩

/-- The rate gate leaves the cache alone. -/
theorem rateGate_cache (o : Orchestrator) (now : ℚ) (f : CallFrame) :
    (rateGate o now f).1.cache=o.cache := by
  obtain ⟨limiter,hframe⟩ := rateGate_frame o now f
  rw [hframe]

/-- The content gates do not notice the charge of the rate gate. -/
theorem contentGates_rateGate (rt : Runtime) (o : Orchestrator) (now : ℚ) (f : CallFrame) :
    contentGates rt (rateGate o now f).1 f=contentGates rt o f := by
  obtain ⟨limiter,hframe⟩ := rateGate_frame o now f
  rw [hframe]
  rfl

/-- The rate gate grants when the installed limiter does. -/
theorem rateGate_granted_iff (o : Orchestrator) (now : ℚ) (f : CallFrame) :
    (rateGate o now f).2=.granted ↔ ∀ limiter, o.rateLimiter=some limiter→
      (limiter.check now f.request.principal.agentId f.qualified).2=.granted := by
  unfold rateGate
  cases h : o.rateLimiter with
  | none => exact ⟨fun _ _ hl => (by cases hl),fun _ => rfl⟩
  | some limiter =>
    constructor
    · intro hg other hl
      cases hl
      exact hg
    · exact fun hg => hg limiter rfl

/-- The schema gate accepts when the installed validator does. -/
theorem schemaGate_ok_iff (rt : Runtime) (o : Orchestrator) (f : CallFrame) :
    schemaGate rt o f=.ok () ↔ ∀ validator, o.schemaValidator=some validator→
      validator.validate rt f.rawTool f.request.arguments (inputSchema f)=.ok () := by
  unfold schemaGate
  cases h : o.schemaValidator with
  | none => exact ⟨fun _ _ hl => (by cases hl),fun _ => rfl⟩
  | some validator =>
    constructor
    · intro hg other hl
      cases hl
      exact hg
    · exact fun hg => hg validator rfl

/-- The content gates accept exactly when each of them does. -/
theorem contentGates_ok_iff (rt : Runtime) (o : Orchestrator) (f : CallFrame) (sent : Json)
    (reqRedacted : Bool) :
    contentGates rt o f=.ok (sent,reqRedacted) ↔
      o.safety.check rt f.rawTool f.request.arguments=.ok () ∧ schemaGate rt o f=.ok () ∧
      o.redactor.redact rt .request f.request.arguments=.ok (sent,reqRedacted) := by
  unfold contentGates
  cases hs : o.safety.check rt f.rawTool f.request.arguments with
  | error v => simp
  | ok u =>
    cases hv : schemaGate rt o f with
    | error failure => cases failure <;> simp
    | ok w =>
      cases hr : o.redactor.redact rt .request f.request.arguments with
      | error text => simp
      | ok pair => simp

/-- The gates accept exactly when all of them do. -/
theorem gates_ok_iff (rt : Runtime) (o : Orchestrator) (now : ℚ) (f : CallFrame) (sent : Json)
    (reqRedacted : Bool) :
    (gates rt o now f).2=.ok (sent,reqRedacted) ↔
      authorizeToolCall o.authorizer f.request.principal f.rawTool f.qualified f.mutable=.ok () ∧
      (rateGate o now f).2=.granted ∧ contentGates rt o f=.ok (sent,reqRedacted) := by
  have hcontent := contentGates_rateGate rt o now f
  unfold gates
  cases ha : authorizeToolCall o.authorizer f.request.principal f.rawTool f.qualified
      f.mutable with
  | error e => simp
  | ok u =>
    dsimp only
    rw [hcontent]
    cases hl : (rateGate o now f).2 with
    | granted => simp
    | exceeded scope retry => simp
    | divisionByZero => simp

/-- The gates, whatever they decide, change nothing but the limiter, and an
authorization denial not even that. -/
theorem gates_frame (rt : Runtime) (o : Orchestrator) (now : ℚ) (f : CallFrame) :
    ∃ limiter, (gates rt o now f).1={o with rateLimiter := limiter} := by
  have hrate := rateGate_frame o now f
  unfold gates
  split
  · exact ⟨o.rateLimiter,rfl⟩
  · dsimp only
    split <;> exact hrate

/-- Accepting gates leave exactly the limiter's charge. -/
theorem gates_state {rt : Runtime} {o : Orchestrator} {now : ℚ} {f : CallFrame}
    (ha : authorizeToolCall o.authorizer f.request.principal f.rawTool f.qualified
      f.mutable=.ok ()) : (gates rt o now f).1=(rateGate o now f).1 := by
  unfold gates
  rw [ha]
  dsimp only
  split <;> rfl

/-- A frame is mediated when it is resolved to an enabled server and the gates
accept it. -/
theorem mediated_iff (rt : Runtime) (o : Orchestrator) (now : ℚ) (f : CallFrame) (sent : Json)
    (reqRedacted : Bool) :
    Mediated rt o now f sent reqRedacted ↔
      resolve o.registry f.request.name f.request.serverId=.ok (f.entry,f.rawTool) ∧
      f.entry.server.enabled=true ∧ (gates rt o now f).2=.ok (sent,reqRedacted) := by
  rw [gates_ok_iff,contentGates_ok_iff,rateGate_granted_iff,schemaGate_ok_iff]
  constructor
  · intro h
    exact ⟨h.resolved,h.enabled,h.authorized,h.granted,h.guarded,h.valid,h.redacted⟩
  · intro h
    obtain ⟨hr,he,ha,hg,hs,hv,hd⟩ := h
    exact ⟨hr,he,ha,hg,hs,hv,hd⟩

/-- A request is mediated in some frame or in none. -/
theorem mediated_or_none (rt : Runtime) (o : Orchestrator) (now : ℚ) (request : CallRequest) :
    (∃ f sent reqRedacted, f.request=request ∧ Mediated rt o now f sent reqRedacted) ∨
      ∀ f sent reqRedacted, f.request=request→¬Mediated rt o now f sent reqRedacted := by
  by_cases hm : ∃ f sent reqRedacted, f.request=request ∧ Mediated rt o now f sent reqRedacted
  · exact Or.inl hm
  · exact Or.inr fun f sent reqRedacted hf h => hm ⟨f,sent,reqRedacted,hf,h⟩

/-- Routing and gates determine the frame of a mediated request. -/
theorem mediated_unique {rt : Runtime} {o : Orchestrator} {now : ℚ} {f f' : CallFrame}
    {sent sent' : Json} {reqRedacted reqRedacted' : Bool}
    (h : Mediated rt o now f sent reqRedacted) (h' : Mediated rt o now f' sent' reqRedacted')
    (hf : f'.request=f.request) : f'=f ∧ sent'=sent ∧ reqRedacted'=reqRedacted := by
  have hresolved := h'.resolved
  rw [hf,h.resolved] at hresolved
  have hredacted := h'.redacted
  rw [hf,h.redacted] at hredacted
  obtain ⟨hentry,hraw⟩ := Prod.mk.inj (Except.ok.inj hresolved)
  obtain ⟨hsent,hflag⟩ := Prod.mk.inj (Except.ok.inj hredacted)
  obtain ⟨request,entry,rawTool⟩ := f
  obtain ⟨request',entry',rawTool'⟩ := f'
  cases hf
  cases hentry
  cases hraw
  exact ⟨rfl,hsent.symm,hflag.symm⟩

/-- The rate gate changes nothing that a lookup finds. -/
theorem lookupResult_rateGate (rt : Runtime) (o : Orchestrator) (now : ℚ) (f : CallFrame)
    (sent : Json) :
    (lookupResult rt (rateGate o now f).1 now f sent).2=(lookupResult rt o now f sent).2 := by
  unfold lookupResult
  rw [rateGate_cache]
  cases o.cache with
  | none => rfl
  | some cache =>
    dsimp only
    split <;> rfl

/-- Only a tool that is not mutable is looked up, in the installed cache. -/
theorem lookupResult_some {rt : Runtime} {o : Orchestrator} {now : ℚ} {f : CallFrame}
    {sent content : Json} (h : (lookupResult rt o now f sent).2=some content) :
    ∃ cache, o.cache=some cache ∧ f.mutable=false ∧
      (cache.getResult rt f.qualified sent now).2=some content := by
  unfold lookupResult at h
  cases hc : o.cache with
  | none =>
    rw [hc] at h
    cases h
  | some cache =>
    rw [hc] at h
    dsimp only at h
    split at h
    · cases h
    · rename_i hmutable
      exact ⟨cache,rfl,Bool.eq_false_iff.mpr hmutable,h⟩

/-- The first half of a mediated call is its cache lookup and, on a miss, one
invocation of the resolved client. -/
theorem startCall_mediated {rt : Runtime} {o : Orchestrator} {now : ℚ} {f : CallFrame}
    {sent : Json} {reqRedacted : Bool} (h : Mediated rt o now f sent reqRedacted) :
    startCall rt o now f.request=
      match (lookupResult rt (rateGate o now f).1 now f sent).2 with
      | some content =>
        ⟨(lookupResult rt (rateGate o now f).1 now f sent).1,[],.ended (.returned
          ⟨f.entry.server.id,f.rawTool,content,false,0,reqRedacted,true⟩)⟩
      | none =>
        ⟨(lookupResult rt (rateGate o now f).1 now f sent).1,
          [.upstream f.entry.client f.rawTool sent f.request.principal.agentId],
          .waiting ⟨f,sent,reqRedacted,now⟩⟩ := by
  have hgates := ((mediated_iff _ _ _ _ _ _).mp h).2.2
  have hstate : (gates rt o now f).1=(rateGate o now f).1 := gates_state h.authorized
  unfold startCall
  rw [h.resolved]
  dsimp only
  rw [if_neg (by rw [h.enabled]; exact Bool.noConfusion),hgates]
  dsimp only
  generalize (gates rt o now f).1=state at hstate ⊢
  subst hstate
  rfl

/-- The first half of a call that is not mediated ends without a result,
calls no upstream and keeps the cache. -/
theorem startCall_not_mediated {rt : Runtime} {o : Orchestrator} {now : ℚ}
    {request : CallRequest}
    (h : ∀ f sent reqRedacted, f.request=request→¬Mediated rt o now f sent reqRedacted) :
    ∃ outcome, (startCall rt o now request).result=.ended outcome ∧
      (∀ result, outcome≠.returned result) ∧
      (startCall rt o now request).orchestrator.cache=o.cache ∧
      ∀ e∈(startCall rt o now request).effects, IsReport e := by
  unfold startCall
  cases hr : resolve o.registry request.name request.serverId with
  | error e =>
    exact ⟨_,rfl,fun _ he => (by cases he),rfl,fun _ he => absurd he List.not_mem_nil⟩
  | ok found =>
    obtain ⟨entry,rawTool⟩ := found
    dsimp only
    split
    · exact ⟨_,rfl,fun _ he => (by cases he),rfl,fun _ he => absurd he List.not_mem_nil⟩
    · rename_i henabled
      cases hg : (gates rt o now ⟨request,entry,rawTool⟩).2 with
      | ok pair =>
        obtain ⟨sent,reqRedacted⟩ := pair
        have henabled' : entry.server.enabled=true := by simpa using henabled
        exact absurd ((mediated_iff rt o now ⟨request,entry,rawTool⟩ sent reqRedacted).mpr
          ⟨hr,henabled',hg⟩) (h _ _ _ rfl)
      | error refusal =>
        obtain ⟨limiter,hframe⟩ := gates_frame rt o now ⟨request,entry,rawTool⟩
        refine ⟨_,rfl,?_,by rw [hframe],?_⟩
        · cases refusal <;> exact fun _ he => (by cases he)
        · exact refusalEffects_report _ _ refusal

/-- A result that the first half of a call returns was found in the cache. -/
theorem startCall_found {rt : Runtime} {o : Orchestrator} {now : ℚ} {request : CallRequest}
    {result : ToolCallResult}
    (h : (startCall rt o now request).result=.ended (.returned result)) :
    ∃ f sent reqRedacted content, f.request=request ∧ Mediated rt o now f sent reqRedacted ∧
      (lookupResult rt o now f sent).2=some content ∧
      result=⟨f.entry.server.id,f.rawTool,content,false,0,reqRedacted,true⟩ := by
  rcases mediated_or_none rt o now request with ⟨f,sent,reqRedacted,rfl,hmediated⟩ | hnot
  · rw [startCall_mediated hmediated,lookupResult_rateGate] at h
    cases hl : (lookupResult rt o now f sent).2 with
    | none =>
      rw [hl] at h
      cases h
    | some content =>
      rw [hl] at h
      cases h
      exact ⟨f,sent,reqRedacted,content,rfl,hmediated,hl,rfl⟩
  · obtain ⟨outcome,hended,hnone,-⟩ := startCall_not_mediated hnot
    rw [hended] at h
    cases h
    exact absurd rfl (hnone result)

/-- The second half of a call invokes no upstream. -/
theorem finishCall_effects {rt : Runtime} {o : Orchestrator} {now : ℚ} {call : PendingCall}
    {answer : UpstreamAnswer} {client : ClientRef} {tool agentId : String} {sent : Json} :
    Effect.upstream client tool sent agentId∉(finishCall rt o now call answer).effects := by
  have hfailure : ∀ status text,
      Effect.upstream client tool sent agentId∉failureEffects o call now status text := by
    intro status text h
    rcases List.mem_append.mp h with h | h
    · rcases List.mem_cons.mp h with h | h
      · cases h
      · exact emitAudit_report h
    · exact dispatch_report h
  intro h
  cases answer with
  | upstreamError e => exact hfailure _ _ h
  | exception text => exact hfailure _ _ h
  | cancelled => exact absurd h List.not_mem_nil
  | content value =>
    unfold finishCall at h
    dsimp only at h
    cases hr : o.redactor.redact rt .response value with
    | error text =>
      rw [hr] at h
      cases List.mem_singleton.mp h
    | ok pair =>
      rw [hr] at h
      dsimp only at h
      rcases List.mem_append.mp h with h | h
      · rcases List.mem_append.mp h with h | h
        · rcases List.mem_cons.mp h with h | h
          · cases h
          · cases storeResult_mem h
        · exact emitAudit_report h
      · exact dispatch_report h

/-- A result of the second half is not a cached one. -/
theorem finishCall_fresh {rt : Runtime} {o : Orchestrator} {now : ℚ} {call : PendingCall}
    {answer : UpstreamAnswer} {result : ToolCallResult}
    (h : (finishCall rt o now call answer).result=.returned result) : result.cached=false := by
  cases answer with
  | upstreamError e => cases h
  | exception text => cases h
  | cancelled => cases h
  | content value =>
    unfold finishCall at h
    dsimp only at h
    split at h
    · cases h
    · cases h
      rfl

/-- The client invocations of a whole call are those of its first half. -/
theorem callTool_upstream {rt : Runtime} {o : Orchestrator} {now : ℚ} {request : CallRequest}
    {interlude : Interlude} {client : ClientRef} {tool agentId : String} {sent : Json} :
    Effect.upstream client tool sent agentId∈(callTool rt o now request interlude).effects ↔
      Effect.upstream client tool sent agentId∈(startCall rt o now request).effects := by
  unfold callTool
  dsimp only
  cases (startCall rt o now request).result with
  | ended outcome => exact Iff.rfl
  | waiting call =>
    rw [List.mem_append]
    exact or_iff_left finishCall_effects

/-- The first half invokes a client exactly for a mediated call that the
cache does not answer, with the redacted arguments. -/
theorem startCall_upstream_iff {rt : Runtime} {o : Orchestrator} {now : ℚ}
    {request : CallRequest} {client : ClientRef} {tool agentId : String} {sent : Json} :
    Effect.upstream client tool sent agentId∈(startCall rt o now request).effects ↔
      ∃ f reqRedacted, f.request=request ∧ Mediated rt o now f sent reqRedacted ∧
        (lookupResult rt (rateGate o now f).1 now f sent).2=none ∧
        client=f.entry.client ∧ tool=f.rawTool ∧ agentId=request.principal.agentId := by
  constructor
  · intro he
    rcases mediated_or_none rt o now request with ⟨f,sent',reqRedacted,rfl,hmediated⟩ | hnot
    · rw [startCall_mediated hmediated] at he
      cases hl : (lookupResult rt (rateGate o now f).1 now f sent').2 with
      | some content =>
        rw [hl] at he
        exact absurd he List.not_mem_nil
      | none =>
        rw [hl] at he
        cases List.mem_singleton.mp he
        exact ⟨f,reqRedacted,rfl,hmediated,hl,rfl,rfl,rfl⟩
    · obtain ⟨outcome,-,-,-,hreport⟩ := startCall_not_mediated hnot
      exact (hreport _ he).elim
  · rintro ⟨f,reqRedacted,rfl,hmediated,hl,rfl,rfl,rfl⟩
    rw [startCall_mediated hmediated,hl]
    exact List.mem_singleton_self _

/-- A cached result belongs to a mediated call. -/
theorem callTool_cached {rt : Runtime} {o : Orchestrator} {now : ℚ} {request : CallRequest}
    {interlude : Interlude} {result : ToolCallResult}
    (hres : (callTool rt o now request interlude).result=.returned result)
    (hcached : result.cached=true) :
    ∃ f sent reqRedacted, f.request=request ∧ Mediated rt o now f sent reqRedacted ∧
      result.serverId=f.entry.server.id ∧ result.tool=f.rawTool := by
  unfold callTool at hres
  dsimp only at hres
  rcases mediated_or_none rt o now request with ⟨f,sent,reqRedacted,rfl,hmediated⟩ | hnot
  · rw [startCall_mediated hmediated] at hres
    cases hl : (lookupResult rt (rateGate o now f).1 now f sent).2 with
    | some content =>
      rw [hl] at hres
      cases hres
      exact ⟨f,sent,reqRedacted,rfl,hmediated,rfl,rfl⟩
    | none =>
      rw [hl] at hres
      dsimp only at hres
      have hfresh := finishCall_fresh hres
      rw [hfresh] at hcached
      cases hcached
  · obtain ⟨outcome,hended,hnone,-⟩ := startCall_not_mediated hnot
    rw [hended] at hres
    exact absurd hres (hnone result)

/-- A call that is not mediated ends with its first half. -/
theorem callTool_not_mediated {rt : Runtime} {o : Orchestrator} {now : ℚ}
    {request : CallRequest} {interlude : Interlude}
    (h : ∀ f sent reqRedacted, f.request=request→¬Mediated rt o now f sent reqRedacted) :
    (∀ e∈(callTool rt o now request interlude).effects, IsReport e) ∧
    (∀ result, (callTool rt o now request interlude).result≠.returned result) ∧
    (callTool rt o now request interlude).orchestrator.cache=o.cache := by
  obtain ⟨outcome,hended,hnone,hcache,hreport⟩ := startCall_not_mediated h
  unfold callTool
  dsimp only
  rw [hended]
  exact ⟨hreport,hnone,hcache⟩

/-- A denied call leaves the orchestrator as it was. -/
theorem callTool_denied {rt : Runtime} {o : Orchestrator} {now : ℚ} {f : CallFrame}
    {interlude : Interlude} {error : AuthorizationError}
    (hr : resolve o.registry f.request.name f.request.serverId=.ok (f.entry,f.rawTool))
    (ha : authorizeToolCall o.authorizer f.request.principal f.rawTool f.qualified
      f.mutable=.error error) : (callTool rt o now f.request interlude).orchestrator=o := by
  have hgates : gates rt o now f=(o,.error (.authorization error)) := by
    unfold gates
    rw [ha]
  have hstart : (startCall rt o now f.request).orchestrator=o ∧
      ∃ outcome, (startCall rt o now f.request).result=.ended outcome := by
    unfold startCall
    rw [hr]
    dsimp only
    split
    · exact ⟨rfl,_,rfl⟩
    · rw [hgates]
      exact ⟨rfl,_,rfl⟩
  obtain ⟨hsame,outcome,hended⟩ := hstart
  unfold callTool
  dsimp only
  rw [hended]
  exact hsame

/-- Complete mediation: an invoked upstream and a cached result belong to a
mediated call; any other call invokes nothing, returns nothing and leaves the
cache as it was; a denied call leaves the whole orchestrator as it was, its
rate limiter included. -/
theorem callTool_mediated (rt : Runtime) (o : Orchestrator) (now : ℚ) (request : CallRequest)
    (interlude : Interlude) :
    (∀ client tool sent agentId,
      Effect.upstream client tool sent agentId∈(callTool rt o now request interlude).effects→
        ∃ f reqRedacted, f.request=request ∧ Mediated rt o now f sent reqRedacted ∧
          client=f.entry.client ∧ tool=f.rawTool ∧ agentId=request.principal.agentId) ∧
    (∀ result, (callTool rt o now request interlude).result=.returned result→
      result.cached=true→
        ∃ f sent reqRedacted, f.request=request ∧ Mediated rt o now f sent reqRedacted ∧
          result.serverId=f.entry.server.id ∧ result.tool=f.rawTool) ∧
    ((∀ f sent reqRedacted, f.request=request→¬Mediated rt o now f sent reqRedacted)→
      (∀ e∈(callTool rt o now request interlude).effects, IsReport e) ∧
      (∀ result, (callTool rt o now request interlude).result≠.returned result) ∧
      (callTool rt o now request interlude).orchestrator.cache=o.cache) ∧
    (∀ (f : CallFrame) error, f.request=request→
      resolve o.registry request.name request.serverId=.ok (f.entry,f.rawTool)→
      authorizeToolCall o.authorizer request.principal f.rawTool f.qualified
        (decide (f.rawTool∈f.entry.server.mutableTools))=.error error→
        (callTool rt o now request interlude).orchestrator=o) := by
  refine ⟨?_,fun _ => callTool_cached,callTool_not_mediated,?_⟩
  · intro client tool sent agentId he
    obtain ⟨f,reqRedacted,hf,hm,-,hrest⟩ := startCall_upstream_iff.mp (callTool_upstream.mp he)
    exact ⟨f,reqRedacted,hf,hm,hrest⟩
  · intro f error hf hr ha
    subst hf
    exact callTool_denied hr ha

/-- An orchestrator over the registry a schedule builds, with default policies
and no optional component. -/
def plainOrchestrator (actions : List RegistryAction) : Orchestrator where
  registry := (final step (start {} {}) actions).registry
  authorizer := {}
  redactor := Redactor.new asciiRuntime {}
  safety := ⟨{},[]⟩

/-- A request of an unrestricted agent without arguments. -/
def plainRequest (name : String) : CallRequest where
  principal := ⟨"agent",[]⟩
  name := name
  arguments := .obj []

theorem callTool_mediated_reached :
    ∃ f reqRedacted, f.request=plainRequest "a.t" ∧
      Mediated asciiRuntime (plainOrchestrator (oneSync {name := "t"})) 0 f (.obj []) reqRedacted ∧
      (⟨0,plainServer "a"⟩ : ClientRef)=f.entry.client ∧ "t"=f.rawTool ∧ "agent"="agent" :=
  (callTool_mediated asciiRuntime (plainOrchestrator (oneSync {name := "t"})) 0
    (plainRequest "a.t") (fun o => (o,0,.cancelled))).1 ⟨0,plainServer "a"⟩ "t" (.obj []) "agent"
    (List.mem_singleton_self _)

end McpGateway.CallMediation
