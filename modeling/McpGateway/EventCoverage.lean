import Mathlib
import McpGateway.PyDict
import McpGateway.PyNumber
import McpGateway.StepRun
import McpGateway.JsonValue
import McpGateway.GatewaySettings
import McpGateway.ToolNaming
import McpGateway.ServerRegistry
import McpGateway.RegistryRuns
import McpGateway.ToolRouting
import McpGateway.ToolAuthorizer
import McpGateway.RateLimiting
import McpGateway.PyRuntime
import McpGateway.PiiRedactor
import McpGateway.Guardrails
import McpGateway.SchemaValidation
import McpGateway.ResultCache
import McpGateway.UpstreamContent
import McpGateway.ToolOrchestrator
import McpGateway.CallMediation

/-!
# Events of tool calls

The dispatcher documents one event for each outcome of a call. The pipeline
dispatches an event for a guardrail match, invalid arguments, a failed request
and a fresh result. Authorization denials, exceeded rate limits, cache hits,
crashed gates and cancelled calls end without any.
-/

namespace McpGateway.EventCoverage

open PyDict PyNumber StepRun JsonValue GatewaySettings ToolNaming ServerRegistry RegistryRuns
open ToolRouting ToolAuthorizer RateLimiting PyRuntime PiiRedactor Guardrails SchemaValidation
open ResultCache UpstreamContent ToolOrchestrator CallMediation

/-- Events handed to the dispatcher, in order. -/
def dispatched (effects : List Effect) : List (String×Json) :=
  effects.filterMap (fun e => match e with
    | .webhook event payload => some (event,payload)
    | _ => none)

/-- The documented event of a refusal. -/
def refusalEvent : Refusal→String
  | .authorization _ => "auth_deny"
  | .rateLimit _ => "rate_limit"
  | .guardrail _ => "guardrail_block"
  | .schema _ => "schema_invalid"
  | .crash _ => "tool_call_error"

/-- The documented event of a call that the gates let through. A cancelled
call has none. -/
def outcomeEvent : CallOutcome→Option String
  | .returned _ => some "tool_call_ok"
  | .raised _ => some "tool_call_error"
  | .crashed _ => some "tool_call_error"
  | .cancelled => none

/-- The documented event of a call. -/
def documentedEvent (rt : Runtime) (o : Orchestrator) (now : ℚ) (f : CallFrame)
    (outcome : CallOutcome) : Option String :=
  match (gates rt o now f).2 with
  | .error refusal => some (refusalEvent refusal)
  | .ok _ => outcomeEvent outcome

/-- Exactly one event is dispatched, and it is the documented one. -/
def RaisesDocumented (rt : Runtime) (o : Orchestrator) (now : ℚ) (f : CallFrame)
    (report : CallReport CallOutcome) : Prop :=
  ∃ event payload, dispatched report.effects=[(event,payload)] ∧
    documentedEvent rt o now f report.result=some event

/-- Authorization and the rate limiter, if any, accept the call. -/
structure Admitted (o : Orchestrator) (now : ℚ) (f : CallFrame) : Prop where
  /-- The principal is authorized. -/
  authorized : authorizeToolCall o.authorizer f.request.principal f.rawTool f.qualified
    f.mutable=.ok ()
  /-- The call is within its limits. -/
  granted : ∀ limiter, o.rateLimiter=some limiter→
    (limiter.check now f.request.principal.agentId f.qualified).2=.granted

/-- A guardrail matches, or none does and the schema finds violations. -/
def ContentRefused (rt : Runtime) (o : Orchestrator) (f : CallFrame) : Prop :=
  (∃ violation, o.safety.check rt f.rawTool f.request.arguments=.error violation) ∨
    o.safety.check rt f.rawTool f.request.arguments=.ok () ∧
      ∃ validator error, o.schemaValidator=some validator ∧
        validator.validate rt f.rawTool f.request.arguments (inputSchema f)=.error (.invalid error)

/-- Guardrails, schema and redaction accept the arguments and no result is
cached for them. -/
structure Forwarded (rt : Runtime) (o : Orchestrator) (now : ℚ) (f : CallFrame) (sent : Json)
    (reqRedacted : Bool) : Prop where
  /-- No guardrail matches. -/
  guarded : o.safety.check rt f.rawTool f.request.arguments=.ok ()
  /-- The schema validator, if any, accepts. -/
  valid : ∀ validator, o.schemaValidator=some validator→
    validator.validate rt f.rawTool f.request.arguments (inputSchema f)=.ok ()
  /-- The redacted arguments are sent. -/
  redacted : o.redactor.redact rt .request f.request.arguments=.ok (sent,reqRedacted)
  /-- The cache, if it is asked, has nothing. -/
  missed : ∀ cache, o.cache=some cache→f.mutable=false→
    (cache.getResult rt f.qualified sent now).2=none

/-- The request failed, or its answer can be redacted. -/
def AnswerHandled (rt : Runtime) (o : Orchestrator) : UpstreamAnswer→Prop
  | .upstreamError _ => True
  | .exception _ => True
  | .cancelled => False
  | .content value => ∃ clean respRedacted, o.redactor.redact rt .response value=
      .ok (clean,respRedacted)

@[simp] theorem dispatched_append (first second : List Effect) :
    dispatched (first++second)=dispatched first++dispatched second := List.filterMap_append

@[simp] theorem dispatched_toolCall (f : CallFrame) (status : String) (rest : List Effect) :
    dispatched (f.toolCall status::rest)=dispatched rest := rfl

/-- An audit record is no event. -/
@[simp] theorem dispatched_emitAudit (o : Orchestrator) (record : AuditRecord) :
    dispatched (emitAudit o record)=[] := by
  unfold emitAudit
  split <;> rfl

/-- A cache write is no event. -/
@[simp] theorem dispatched_storeResult (rt : Runtime) (o : Orchestrator) (call : PendingCall)
    (now : ℚ) (clean : Json) : dispatched (storeResult rt o call now clean).2=[] := by
  unfold storeResult
  split
  · rfl
  · split <;> rfl

/-- With a dispatcher attached a dispatch is the one event. -/
theorem dispatched_dispatch {o : Orchestrator} (hw : o.webhookDispatcher=true) (f : CallFrame)
    (event : String) (fields : List (String×Json)) :
    dispatched (dispatch o f event fields)=
      [(event,.obj ([("agent_id",.str f.request.principal.agentId),
        ("server_id",.str f.entry.server.id),("tool",.str f.rawTool)]++fields))] := by
  rw [dispatch,if_pos hw]
  rfl

/-- The refusals whose handler dispatches. -/
def refusalDispatches : Refusal→Bool
  | .guardrail _ => true
  | .schema _ => true
  | _ => false

/-- A refusal raises its documented event exactly when its handler dispatches. -/
theorem dispatched_refusal {o : Orchestrator} (hw : o.webhookDispatcher=true) (f : CallFrame)
    (refusal : Refusal) :
    (∃ payload, dispatched (refusalEffects o f refusal)=[(refusalEvent refusal,payload)]) ↔
      refusalDispatches refusal=true := by
  cases refusal with
  | authorization error => simp [refusalEffects,refusalDispatches]
  | rateLimit scope => simp [refusalEffects,refusalDispatches]
  | guardrail violation =>
    simp [refusalEffects,refusalDispatches,dispatched_dispatch hw,refusalEvent]
  | schema error =>
    simp [refusalEffects,refusalDispatches,dispatched_dispatch hw,refusalEvent]
  | crash text => simp [refusalEffects,refusalDispatches,dispatched]

/-- The content gates refuse with a dispatching handler exactly when a
guardrail or the schema refuses. -/
theorem contentGates_dispatches_iff (rt : Runtime) (o : Orchestrator) (f : CallFrame) :
    (∃ refusal, contentGates rt o f=.error refusal ∧ refusalDispatches refusal=true) ↔
      ContentRefused rt o f := by
  unfold contentGates ContentRefused
  cases hs : o.safety.check rt f.rawTool f.request.arguments with
  | error violation => simp [refusalDispatches]
  | ok u =>
    have hschema : (∃ error, schemaGate rt o f=.error (.invalid error)) ↔
        ∃ validator error, o.schemaValidator=some validator ∧
          validator.validate rt f.rawTool f.request.arguments (inputSchema f)=
            .error (.invalid error) := by
      unfold schemaGate
      cases o.schemaValidator with
      | none => simp
      | some validator => simp
    rw [←hschema]
    cases hv : schemaGate rt o f with
    | error failure => cases failure <;> simp [refusalDispatches]
    | ok w =>
      cases hd : o.redactor.redact rt .request f.request.arguments with
      | error text => simp [refusalDispatches]
      | ok pair => simp

/-- Authorization and the rate gate accept exactly an admitted call. -/
theorem admitted_iff (o : Orchestrator) (now : ℚ) (f : CallFrame) :
    Admitted o now f ↔ authorizeToolCall o.authorizer f.request.principal f.rawTool f.qualified
      f.mutable=.ok () ∧ (rateGate o now f).2=.granted := by
  rw [rateGate_granted_iff]
  exact ⟨fun h => ⟨h.authorized,h.granted⟩,fun h => ⟨h.1,h.2⟩⟩

/-- The gates refuse with a dispatching handler exactly when an admitted call
is refused for its content. -/
theorem gates_dispatches_iff (rt : Runtime) (o : Orchestrator) (now : ℚ) (f : CallFrame) :
    (∃ refusal, (gates rt o now f).2=.error refusal ∧ refusalDispatches refusal=true) ↔
      Admitted o now f ∧ ContentRefused rt o f := by
  have hcontent := contentGates_rateGate rt o now f
  rw [admitted_iff,←contentGates_dispatches_iff]
  unfold gates
  cases ha : authorizeToolCall o.authorizer f.request.principal f.rawTool f.qualified
      f.mutable with
  | error e => simp [refusalDispatches]
  | ok u =>
    dsimp only
    rw [hcontent]
    cases hl : (rateGate o now f).2 with
    | granted => simp
    | exceeded scope retry => simp [refusalDispatches]
    | divisionByZero => simp [refusalDispatches]

/-- The cache has nothing for a call exactly when it is not asked or misses. -/
theorem lookupResult_none_iff (rt : Runtime) (o : Orchestrator) (now : ℚ) (f : CallFrame)
    (sent : Json) :
    (lookupResult rt o now f sent).2=none ↔ ∀ cache, o.cache=some cache→f.mutable=false→
      (cache.getResult rt f.qualified sent now).2=none := by
  unfold lookupResult
  cases hc : o.cache with
  | none => simp
  | some cache =>
    cases hm : f.mutable with
    | true => simp
    | false => simp

/-- A lookup keeps the dispatcher. -/
theorem lookupResult_dispatcher (rt : Runtime) (o : Orchestrator) (now : ℚ) (f : CallFrame)
    (sent : Json) : (lookupResult rt o now f sent).1.webhookDispatcher=o.webhookDispatcher := by
  unfold lookupResult
  cases o.cache with
  | none => rfl
  | some cache =>
    dsimp only
    split <;> rfl

/-- The rate gate keeps the dispatcher. -/
theorem rateGate_dispatcher (o : Orchestrator) (now : ℚ) (f : CallFrame) :
    (rateGate o now f).1.webhookDispatcher=o.webhookDispatcher := by
  obtain ⟨limiter,hframe⟩ := rateGate_frame o now f
  rw [hframe]

/-- The gates accept and the cache misses exactly for an admitted call that is
forwarded. -/
theorem forwarded_iff (rt : Runtime) (o : Orchestrator) (now : ℚ) (f : CallFrame) (sent : Json)
    (reqRedacted : Bool) :
    (gates rt o now f).2=.ok (sent,reqRedacted) ∧ (lookupResult rt o now f sent).2=none ↔
      Admitted o now f ∧ Forwarded rt o now f sent reqRedacted := by
  rw [gates_ok_iff,contentGates_ok_iff,schemaGate_ok_iff,admitted_iff,lookupResult_none_iff]
  constructor
  · rintro ⟨⟨ha,hl,hs,hv,hd⟩,hm⟩
    exact ⟨⟨ha,hl⟩,hs,hv,hd,hm⟩
  · rintro ⟨⟨ha,hl⟩,hs,hv,hd,hm⟩
    exact ⟨⟨ha,hl,hs,hv,hd⟩,hm⟩

/-- The second half raises its documented event exactly when the request
failed or its answer can be redacted. -/
theorem finishCall_dispatched {rt : Runtime} {o : Orchestrator} (hw : o.webhookDispatcher=true)
    (now : ℚ) (call : PendingCall) (answer : UpstreamAnswer) :
    (∃ event payload, dispatched (finishCall rt o now call answer).effects=[(event,payload)] ∧
      outcomeEvent (finishCall rt o now call answer).result=some event) ↔
      AnswerHandled rt o answer := by
  cases answer with
  | upstreamError e =>
    simp [finishCall,failureEffects,dispatched_dispatch hw,outcomeEvent,AnswerHandled]
  | exception text =>
    simp [finishCall,failureEffects,dispatched_dispatch hw,outcomeEvent,AnswerHandled]
  | cancelled => simp [finishCall,dispatched,AnswerHandled]
  | content value =>
    unfold finishCall AnswerHandled
    dsimp only
    cases hr : o.redactor.redact rt .response value with
    | error text => simp [dispatched,CallFrame.toolCall]
    | ok pair =>
      obtain ⟨clean,respRedacted⟩ := pair
      simp [dispatched_dispatch hw,outcomeEvent]

section routed

variable {rt : Runtime} {o : Orchestrator} {now : ℚ} {f : CallFrame}

/-- A refused call ends with its refusal. -/
theorem callTool_refused
    (hr : resolve o.registry f.request.name f.request.serverId=.ok (f.entry,f.rawTool))
    (he : f.entry.server.enabled=true) {refusal : Refusal}
    (hg : (gates rt o now f).2=.error refusal) (interlude : Interlude) :
    callTool rt o now f.request interlude=⟨(gates rt o now f).1,
      refusalEffects (gates rt o now f).1 f refusal,refusalOutcome refusal⟩ := by
  have hstart : startCall rt o now f.request=⟨(gates rt o now f).1,
      refusalEffects (gates rt o now f).1 f refusal,.ended (refusalOutcome refusal)⟩ := by
    unfold startCall
    rw [hr]
    dsimp only
    rw [if_neg (by rw [he]; exact Bool.noConfusion),hg]
  rw [callTool,hstart]

/-- A call answered by the cache dispatches nothing. -/
theorem callTool_hit {sent content : Json} {reqRedacted : Bool}
    (h : Mediated rt o now f sent reqRedacted)
    (hl : (lookupResult rt o now f sent).2=some content) (interlude : Interlude) :
    (callTool rt o now f.request interlude).effects=[] := by
  have hstart := startCall_mediated h
  rw [lookupResult_rateGate,hl] at hstart
  rw [callTool,hstart]

/-- A forwarded call reports what its second half reports, in the state and
with the answer found there. -/
theorem callTool_forwarded {sent : Json} {reqRedacted : Bool}
    (h : Mediated rt o now f sent reqRedacted)
    (hl : (lookupResult rt o now f sent).2=none) (interlude : Interlude) :
    let found := interlude (lookupResult rt (rateGate o now f).1 now f sent).1
    let second := finishCall rt found.1 found.2.1 ⟨f,sent,reqRedacted,now⟩ found.2.2
    dispatched (callTool rt o now f.request interlude).effects=dispatched second.effects ∧
      (callTool rt o now f.request interlude).result=second.result := by
  have hstart := startCall_mediated h
  rw [lookupResult_rateGate,hl] at hstart
  dsimp only
  rw [callTool,hstart]
  exact ⟨rfl,rfl⟩

/-- A refused call raises its event exactly when it was admitted and its
content is refused. -/
theorem raises_refused_iff (hw : o.webhookDispatcher=true)
    (hr : resolve o.registry f.request.name f.request.serverId=.ok (f.entry,f.rawTool))
    (he : f.entry.server.enabled=true) {refusal : Refusal}
    (hg : (gates rt o now f).2=.error refusal) (interlude : Interlude) :
    RaisesDocumented rt o now f (callTool rt o now f.request interlude) ↔
      Admitted o now f ∧ ContentRefused rt o f := by
  have hrefused := gates_dispatches_iff rt o now f
  have hstate : (gates rt o now f).1.webhookDispatcher=true := by
    obtain ⟨limiter,hframe⟩ := gates_frame rt o now f
    rw [hframe]
    exact hw
  have hevent := dispatched_refusal hstate f refusal
  simp only [hg,Except.error.injEq,exists_eq_left'] at hrefused
  unfold RaisesDocumented documentedEvent
  rw [callTool_refused hr he hg interlude,hg,←hrefused,←hevent]
  constructor
  · rintro ⟨event,payload,hdispatched,hdocumented⟩
    cases hdocumented
    exact ⟨payload,hdispatched⟩
  · rintro ⟨payload,hdispatched⟩
    exact ⟨refusalEvent refusal,payload,hdispatched,rfl⟩

/-- A call that the cache answers raises nothing. -/
theorem raises_hit {sent content : Json} {reqRedacted : Bool}
    (h : Mediated rt o now f sent reqRedacted)
    (hl : (lookupResult rt o now f sent).2=some content) (interlude : Interlude) :
    ¬RaisesDocumented rt o now f (callTool rt o now f.request interlude) := by
  rintro ⟨event,payload,hdispatched,-⟩
  rw [callTool_hit h hl interlude] at hdispatched
  cases hdispatched

/-- A forwarded call raises its event exactly when the answer is handled. -/
theorem raises_forwarded_iff (hw : o.webhookDispatcher=true) {sent : Json} {reqRedacted : Bool}
    (h : Mediated rt o now f sent reqRedacted)
    (hl : (lookupResult rt o now f sent).2=none) {interlude : Interlude}
    (hi : ∀ state, state.webhookDispatcher=true→(interlude state).1.webhookDispatcher=true) :
    RaisesDocumented rt o now f (callTool rt o now f.request interlude) ↔
      let found := interlude (lookupResult rt (rateGate o now f).1 now f sent).1
      AnswerHandled rt found.1 found.2.2 := by
  have hattached : (lookupResult rt (rateGate o now f).1 now f sent).1.webhookDispatcher=true := by
    rw [lookupResult_dispatcher,rateGate_dispatcher,hw]
  have hgates := ((mediated_iff _ _ _ _ _ _).mp h).2.2
  obtain ⟨heffects,hresult⟩ := callTool_forwarded h hl interlude
  unfold RaisesDocumented documentedEvent
  rw [heffects,hresult,hgates]
  exact finishCall_dispatched (hi _ hattached) _ _ _

end routed

/-- A call that is routed to an enabled server raises exactly the documented
event of its outcome when authorization and the rate limiter accept it and
either its content is refused or it is forwarded and the answer is handled. -/
theorem raisesDocumented_iff (rt : Runtime) {o : Orchestrator} (hw : o.webhookDispatcher=true)
    (now : ℚ) {f : CallFrame}
    (hr : resolve o.registry f.request.name f.request.serverId=.ok (f.entry,f.rawTool))
    (he : f.entry.server.enabled=true) {interlude : Interlude}
    (hi : ∀ state, state.webhookDispatcher=true→(interlude state).1.webhookDispatcher=true) :
    RaisesDocumented rt o now f (callTool rt o now f.request interlude) ↔
      Admitted o now f ∧ (ContentRefused rt o f ∨
        ∃ sent reqRedacted, Forwarded rt o now f sent reqRedacted ∧
          let found := interlude (lookupResult rt (rateGate o now f).1 now f sent).1
          AnswerHandled rt found.1 found.2.2) := by
  have hforwarded := forwarded_iff rt o now f
  cases hg : (gates rt o now f).2 with
  | error refusal =>
    rw [raises_refused_iff hw hr he hg interlude]
    constructor
    · exact fun h => ⟨h.1,.inl h.2⟩
    · rintro ⟨hadmitted,hcontent | ⟨sent,reqRedacted,hsent,-⟩⟩
      · exact ⟨hadmitted,hcontent⟩
      · have hok := ((hforwarded sent reqRedacted).mpr ⟨hadmitted,hsent⟩).1
        rw [hg] at hok
        cases hok
  | ok pair =>
    obtain ⟨sent,reqRedacted⟩ := pair
    have hm : Mediated rt o now f sent reqRedacted := (mediated_iff _ _ _ _ _ _).mpr ⟨hr,he,hg⟩
    have hcontent : ¬(Admitted o now f ∧ ContentRefused rt o f) := by
      rw [←gates_dispatches_iff rt o now f,hg]
      rintro ⟨refusal,hother,-⟩
      cases hother
    have hsame : ∀ sent' reqRedacted', Admitted o now f→Forwarded rt o now f sent' reqRedacted'→
        sent'=sent ∧ (lookupResult rt o now f sent).2=none := by
      intro sent' reqRedacted' hadmitted hsent
      obtain ⟨hok,hmiss⟩ := (hforwarded sent' reqRedacted').mpr ⟨hadmitted,hsent⟩
      rw [hg] at hok
      cases hok
      exact ⟨rfl,hmiss⟩
    cases hl : (lookupResult rt o now f sent).2 with
    | some content =>
      refine iff_of_false (raises_hit hm hl interlude) ?_
      rintro ⟨hadmitted,hrefusal | ⟨sent',reqRedacted',hsent,-⟩⟩
      · exact hcontent ⟨hadmitted,hrefusal⟩
      · obtain ⟨-,hmiss⟩ := hsame sent' reqRedacted' hadmitted hsent
        rw [hl] at hmiss
        cases hmiss
    | none =>
      obtain ⟨hadmitted,hsent⟩ := (hforwarded sent reqRedacted).mp ⟨hg,hl⟩
      rw [raises_forwarded_iff hw hm hl hi]
      constructor
      · exact fun h => ⟨hadmitted,.inr ⟨sent,reqRedacted,hsent,h⟩⟩
      · rintro ⟨-,hrefusal | ⟨sent',reqRedacted',hother,hanswer⟩⟩
        · exact absurd ⟨hadmitted,hrefusal⟩ hcontent
        · obtain ⟨rfl,-⟩ := hsame sent' reqRedacted' hadmitted hother
          exact hanswer

/-- A gateway with a dispatcher and one tool. -/
def eventOrchestrator : Orchestrator :=
  {plainOrchestrator (oneSync {name := "t"}) with webhookDispatcher := true}

/-- A call of that tool by an agent with one permission. -/
def eventFrame (permission : String) : CallFrame :=
  ⟨⟨⟨"agent",[permission]⟩,"a.t",.obj [],none,none⟩,oneSyncEntry {name := "t"} "a.t","t"⟩

theorem raisesDocumented_failed_request :
    let f := eventFrame "a.t"
    let interlude : Interlude := fun state => (state,1,.exception "boom")
    eventOrchestrator.webhookDispatcher=true ∧
      resolve eventOrchestrator.registry f.request.name f.request.serverId=
        .ok (f.entry,f.rawTool) ∧
      f.entry.server.enabled=true ∧
      (RaisesDocumented asciiRuntime eventOrchestrator 0 f
          (callTool asciiRuntime eventOrchestrator 0 f.request interlude) ↔
        Admitted eventOrchestrator 0 f ∧ (ContentRefused asciiRuntime eventOrchestrator f ∨
          ∃ sent reqRedacted, Forwarded asciiRuntime eventOrchestrator 0 f sent reqRedacted ∧
            let found := interlude
              (lookupResult asciiRuntime (rateGate eventOrchestrator 0 f).1 0 f sent).1
            AnswerHandled asciiRuntime found.1 found.2.2)) :=
  ⟨rfl,rfl,rfl,raisesDocumented_iff asciiRuntime (o:=eventOrchestrator) rfl 0
    (f:=eventFrame "a.t") rfl rfl (fun _ h => h)⟩

theorem denial_raises_nothing :
    let f := eventFrame "other.t"
    let report := callTool asciiRuntime eventOrchestrator 0 f.request
      (fun state => (state,1,.exception "boom"))
    eventOrchestrator.webhookDispatcher=true ∧
      resolve eventOrchestrator.registry f.request.name f.request.serverId=
        .ok (f.entry,f.rawTool) ∧
      f.entry.server.enabled=true ∧
      documentedEvent asciiRuntime eventOrchestrator 0 f report.result=some "auth_deny" ∧
      dispatched report.effects=[] ∧
      ¬RaisesDocumented asciiRuntime eventOrchestrator 0 f report := by
  have hnothing : dispatched (callTool asciiRuntime eventOrchestrator 0
      (eventFrame "other.t").request (fun state => (state,1,.exception "boom"))).effects=[] := rfl
  refine ⟨rfl,rfl,rfl,rfl,hnothing,?_⟩
  rintro ⟨event,payload,hdispatched,-⟩
  rw [hnothing] at hdispatched
  cases hdispatched

end McpGateway.EventCoverage
