import Mathlib
import McpGateway.PyText
import McpGateway.PyDict
import McpGateway.StepRun
import McpGateway.JsonValue
import McpGateway.GatewaySettings
import McpGateway.ServerRegistry
import McpGateway.RegistryRuns
import McpGateway.ToolRouting
import McpGateway.ToolAuthorizer
import McpGateway.RateLimiting
import McpGateway.PyRuntime
import McpGateway.PiiRedactor
import McpGateway.Guardrails
import McpGateway.SchemaValidation
import McpGateway.ResultCache
import McpGateway.UpstreamContent
import McpGateway.ToolOrchestrator
import McpGateway.CallMediation
import McpGateway.GatewayRuns
import McpGateway.CallAccounting

/-!
# What a call leaves behind

The caller sees a status, the operator sees counters and audit records. The
answer alone tells how many records there are and what they say, and over a
run the counters and the records of each label differ by the answers that
could not be redacted.
-/

namespace McpGateway.CallTrails

open PyText PyDict StepRun JsonValue GatewaySettings ServerRegistry RegistryRuns ToolRouting
open ToolAuthorizer RateLimiting PyRuntime PiiRedactor Guardrails SchemaValidation ResultCache
open UpstreamContent ToolOrchestrator CallMediation GatewayRuns CallAccounting

/-- Status of the response of `POST /v1/tools/call`; a cancelled call has
none. -/
def statusCode : CallOutcome→Option ℕ
  | .returned _ => some 200
  | .raised error => some error.code
  | .crashed _ => some 500
  | .cancelled => none

/-- `detail` of the response. -/
def detail : CallOutcome→Option String
  | .returned _ => none
  | .raised error => some error.message
  | .crashed _ => some "Internal Server Error"
  | .cancelled => none

/-- The status that the response to a call has when its record says this. -/
def documentedCode : String→Option ℕ
  | "ok" => some 200
  | "auth_denied" => some 403
  | "rate_limited" => some 429
  | "guardrail_blocked" => some 422
  | "schema_invalid" => some 422
  | "upstream_error" => some 502
  | "error" => some 500
  | _ => none

/-- The detail that the response has when the record says this. -/
def documentedDetail (record : AuditRecord) : Option String :=
  if record.status="upstream_error" then
    record.errorDetail.map (fun text => "upstream error: "++text)
  else record.errorDetail

/-- A record tells the same as the answer. -/
structure Tells (f : CallFrame) (record : AuditRecord) (outcome : CallOutcome) : Prop where
  /-- Who called, and with what. -/
  caller : record.agentId=f.request.principal.agentId ∧
    record.requestId=orText f.request.requestId "unknown" ∧
    record.arguments=f.request.arguments
  /-- What was called. -/
  target : record.serverId=f.entry.server.id ∧ record.toolName=f.rawTool ∧
    record.qualifiedName=f.entry.server.effectivePrefix++"."++f.rawTool ∧
    (record.mutable=true ↔ f.rawTool∈f.entry.server.mutableTools)
  /-- The status of the response. -/
  code : (documentedCode record.status).isSome=true ∧
    documentedCode record.status=statusCode outcome
  /-- Its detail. -/
  reason : documentedDetail record=detail outcome
  /-- Whether it is an error. -/
  error : record.isError=true ↔ statusCode outcome≠some 200
  /-- Whether authorization or the limiter refused it, or content did. -/
  flags : (record.authDenied=true ↔ statusCode outcome=some 403) ∧
    (record.rateLimited=true ↔ statusCode outcome=some 429) ∧
    (record.guardrailBlocked=true→statusCode outcome=some 422)

/-- Answers with a record: those behind routing that are neither taken from the
cache nor left to an exception nobody catches. -/
def leavesRecord : CallOutcome→Bool
  | .returned result => !result.cached
  | .raised error => !(error.code==404 || error.code==503)
  | .crashed _ => false
  | .cancelled => false

/-- A label of the call counter, or the corresponding part of a record. -/
structure Label where
  /-- Server. -/
  serverId : String
  /-- Raw tool name. -/
  tool : String
  /-- Status. -/
  status : String
  deriving DecidableEq

/-- Labels of the counter increments, in order. -/
def labels (effects : List Effect) : List Label :=
  effects.filterMap (fun e => match e with
    | .toolCall serverId tool status => some ⟨serverId,tool,status⟩
    | _ => none)

/-- The label of a record. -/
def recordLabel (record : AuditRecord) : Label := ⟨record.serverId,record.toolName,record.status⟩

@[simp] theorem labels_append (first second : List Effect) :
    labels (first++second)=labels first++labels second := List.filterMap_append

@[simp] theorem labels_toolCall (f : CallFrame) (status : String) (rest : List Effect) :
    labels (f.toolCall status::rest)=⟨f.entry.server.id,f.rawTool,status⟩::labels rest := rfl

/-- An emitted record has no label. -/
@[simp] theorem labels_emitAudit (o : Orchestrator) (record : AuditRecord) :
    labels (emitAudit o record)=[] := by
  unfold emitAudit
  split <;> rfl

/-- A dispatched event has no label. -/
@[simp] theorem labels_dispatch (o : Orchestrator) (f : CallFrame) (event : String)
    (fields : List (String×Json)) : labels (dispatch o f event fields)=[] := by
  unfold dispatch
  split <;> rfl

/-- A cache write has no label. -/
@[simp] theorem labels_storeResult (rt : Runtime) (o : Orchestrator) (call : PendingCall) (now : ℚ)
    (clean : Json) : labels (storeResult rt o call now clean).2=[] := by
  unfold storeResult
  split
  · rfl
  · split <;> rfl

/-- What the end of a call leaves behind, with or without an audit store, and the
labels that no record matches; the call is routed to a frame. -/
structure Trail (attached : Bool) (routed : CallFrame→Prop) (effects : List Effect)
    (outcome : CallOutcome) (unmatched : List Label) : Prop where
  /-- Every record tells the same as the answer. -/
  truthful : ∀ record∈audited effects, ∃ f, routed f ∧ Tells f record outcome
  /-- The answer tells whether there is a record. -/
  kept : attached=true→(audited effects).length=if leavesRecord outcome=true then 1 else 0
  /-- Counters and records agree. -/
  matched : attached=true→labels effects=(audited effects).map recordLabel++unmatched

/-- A handler leaves one increment and one record with the same label, among
effects that are neither. -/
theorem trail_handler {o : Orchestrator} (f : CallFrame) (record : AuditRecord)
    {stored rest : List Effect} {outcome : CallOutcome} (htells : Tells f record outcome)
    (hleaves : leavesRecord outcome=true) (hstored : audited stored=[] ∧ labels stored=[])
    (hrest : audited rest=[] ∧ labels rest=[]) :
    Trail o.audit (·=f) (f.toolCall record.status::stored++emitAudit o record++rest) outcome
      [] := by
  have haudited : audited (f.toolCall record.status::stored++emitAudit o record++rest)=
      if o.audit=true then [record] else [] := by
    simp only [audited_append,audited_toolCall,audited_emitAudit,hstored.1,hrest.1,
      List.nil_append,List.append_nil]
  have hlabels : labels (f.toolCall record.status::stored++emitAudit o record++rest)=
      [⟨f.entry.server.id,f.rawTool,record.status⟩] := by
    simp only [labels_append,labels_toolCall,labels_emitAudit,hstored.2,hrest.2,List.append_nil]
  refine ⟨fun other ho => ?_,fun ha => ?_,fun ha => ?_⟩
  · rw [haudited] at ho
    split at ho
    · rw [List.mem_singleton.mp ho]
      exact ⟨f,rfl,htells⟩
    · exact absurd ho List.not_mem_nil
  · rw [haudited,if_pos ha,if_pos hleaves]
    rfl
  · rw [haudited,if_pos ha,hlabels,List.map_singleton,List.append_nil,recordLabel,
      htells.target.1,htells.target.2.1]

/-- A handler without an event. -/
theorem trail_recorder {o : Orchestrator} (f : CallFrame) (record : AuditRecord)
    {outcome : CallOutcome} (htells : Tells f record outcome)
    (hleaves : leavesRecord outcome=true) :
    Trail o.audit (·=f) (f.toolCall record.status::emitAudit o record) outcome [] := by
  have htrail : Trail o.audit (·=f)
      (f.toolCall record.status::[]++emitAudit o record++[]) outcome [] :=
    trail_handler f record htells hleaves ⟨rfl,rfl⟩ ⟨rfl,rfl⟩
  rwa [List.append_nil] at htrail

/-- An end without a trace. -/
theorem trail_silent {attached : Bool} {routed : CallFrame→Prop} {outcome : CallOutcome}
    (hleaves : leavesRecord outcome=false) : Trail attached routed [] outcome [] := by
  refine ⟨fun record hr => absurd hr List.not_mem_nil,fun _ => ?_,fun _ => rfl⟩
  rw [hleaves]
  rfl

/-- A record of a failed call that keeps the locals of the call tells the same
as an answer with its status and detail. -/
theorem tells_failure {f : CallFrame} {record : AuditRecord} {outcome : CallOutcome} (code : ℕ)
    (hlocals : {record with
      status := "ok"
      isError := false
      errorDetail := none
      latencyMs := 0
      guardrailBlocked := false
      authDenied := false
      rateLimited := false
      redacted := false}=f.auditRecord)
    (hcode : documentedCode record.status=some code) (hanswer : statusCode outcome=some code)
    (hreason : documentedDetail record=detail outcome) (herror : record.isError=true)
    (hne : code≠200)
    (hflags : (record.authDenied=true ↔ code=403) ∧ (record.rateLimited=true ↔ code=429) ∧
      (record.guardrailBlocked=true→code=422)) : Tells f record outcome := by
  obtain ⟨requestId,agentId,serverId,toolName,qualifiedName,mutable,arguments⟩ := record
  unfold CallFrame.auditRecord at hlocals
  injection hlocals with hrequest hagent hserver htool hqualified hmutable harguments
  have hlisted : mutable=true ↔ f.rawTool∈f.entry.server.mutableTools := by
    have hsame : mutable=f.mutable := hmutable
    rw [hsame]
    exact decide_eq_true_iff
  refine ⟨⟨hagent,hrequest,harguments⟩,⟨hserver,htool,hqualified,hlisted⟩,⟨?_,?_⟩,hreason,?_,?_⟩
  · rw [hcode]
    rfl
  · rw [hcode,hanswer]
  · rw [hanswer,Ne,Option.some_inj]
    exact ⟨fun _ => hne,fun _ => herror⟩
  · rw [hanswer,Option.some_inj,Option.some_inj,Option.some_inj]
    exact hflags

/-- Nothing is neither counted nor recorded. -/
theorem unlabelled_nil : audited []=[] ∧ labels []=[] := ⟨rfl,rfl⟩

/-- A dispatched event is neither counted nor recorded. -/
theorem unlabelled_dispatch (o : Orchestrator) (f : CallFrame) (event : String)
    (fields : List (String×Json)) :
    audited (dispatch o f event fields)=[] ∧ labels (dispatch o f event fields)=[] :=
  ⟨audited_dispatch o f event fields,labels_dispatch o f event fields⟩

/-- A refused call leaves what its handler reports. -/
theorem trail_refused (o : Orchestrator) (f : CallFrame) (refusal : Refusal) :
    Trail o.audit (·=f) (refusalEffects o f refusal) (refusalOutcome refusal) [] := by
  cases refusal with
  | crash text => exact trail_silent rfl
  | authorization error =>
    exact trail_recorder f {f.auditRecord with
      status := "auth_denied",isError := true,errorDetail := some error.message,
      authDenied := true}
      (tells_failure 403 rfl rfl rfl rfl rfl (by decide)
        ⟨by simp,by simp [CallFrame.auditRecord],by simp [CallFrame.auditRecord]⟩) rfl
  | rateLimit scope =>
    exact trail_recorder f {f.auditRecord with
      status := "rate_limited",isError := true,errorDetail := some (rateLimitMessage scope),
      rateLimited := true}
      (tells_failure 429 rfl rfl rfl rfl rfl (by decide)
        ⟨by simp [CallFrame.auditRecord],by simp,by simp [CallFrame.auditRecord]⟩) rfl
  | guardrail violation =>
    exact trail_handler f {f.auditRecord with
      status := "guardrail_blocked",isError := true,errorDetail := some violation.message,
      guardrailBlocked := true}
      (tells_failure 422 rfl rfl rfl rfl rfl (by decide)
        ⟨by simp [CallFrame.auditRecord],by simp [CallFrame.auditRecord],fun _ => rfl⟩)
      rfl unlabelled_nil (unlabelled_dispatch o f _ _)
  | schema error =>
    exact trail_handler f {f.auditRecord with
      status := "schema_invalid",isError := true,errorDetail := some error.message}
      (tells_failure 422 rfl rfl rfl rfl rfl (by decide)
        ⟨by simp [CallFrame.auditRecord],by simp [CallFrame.auditRecord],fun _ => rfl⟩)
      rfl unlabelled_nil (unlabelled_dispatch o f _ _)

/-- The labels of an answer whose redaction raised, which is counted but not
recorded. -/
def unmatchedLabels (call : PendingCall) : CallOutcome→List Label
  | .crashed _ => [⟨call.frame.entry.server.id,call.frame.rawTool,"ok"⟩]
  | _ => []

/-- The second half of a call leaves a record unless it crashes or is cancelled. -/
theorem trail_finished (rt : Runtime) (o : Orchestrator) (now : ℚ) (call : PendingCall)
    (answer : UpstreamAnswer) :
    Trail o.audit (·=call.frame) (finishCall rt o now call answer).effects
      (finishCall rt o now call answer).result
      (unmatchedLabels call (finishCall rt o now call answer).result) := by
  cases answer with
  | upstreamError e =>
    exact trail_handler call.frame {call.frame.auditRecord with
      status := "upstream_error",isError := true,errorDetail := some e.message
      latencyMs := latency call now}
      (tells_failure 502 rfl rfl rfl rfl rfl (by decide)
        ⟨by simp [CallFrame.auditRecord],by simp [CallFrame.auditRecord],
          by simp [CallFrame.auditRecord]⟩)
      rfl unlabelled_nil (unlabelled_dispatch o call.frame _ _)
  | exception text =>
    exact trail_handler call.frame {call.frame.auditRecord with
      status := "error",isError := true,errorDetail := some text
      latencyMs := latency call now}
      (tells_failure 500 rfl rfl rfl rfl rfl (by decide)
        ⟨by simp [CallFrame.auditRecord],by simp [CallFrame.auditRecord],
          by simp [CallFrame.auditRecord]⟩)
      rfl unlabelled_nil (unlabelled_dispatch o call.frame _ _)
  | cancelled => exact trail_silent rfl
  | content value =>
    unfold finishCall
    dsimp only
    split
    · refine ⟨fun record hr => absurd hr List.not_mem_nil,fun _ => rfl,fun _ => rfl⟩
    · rename_i clean respRedacted hred
      refine trail_handler call.frame {call.frame.auditRecord with
        latencyMs := latency call now,redacted := call.reqRedacted || respRedacted} ?_ rfl
        ⟨audited_storeResult rt o call now clean,labels_storeResult rt o call now clean⟩
        (unlabelled_dispatch o call.frame _ _)
      exact ⟨⟨rfl,rfl,rfl⟩,⟨rfl,rfl,rfl,decide_eq_true_iff⟩,⟨rfl,rfl⟩,rfl,
        by simp [CallFrame.auditRecord,statusCode],
        by simp [CallFrame.auditRecord,statusCode]⟩

/-- Routing fails with one status. -/
theorem resolve_code {reg : Registry} {name : String} {serverId : Option String}
    {e : OrchestrationError} (h : resolve reg name serverId=.error e) : e.code=404 := by
  unfold resolve at h
  split at h <;> split at h <;> cases h <;> rfl

/-- The registry resolves the request to the entry and the raw tool of the
frame. -/
def Resolves (o : Orchestrator) (request : CallRequest) (f : CallFrame) : Prop :=
  f.request=request ∧ resolve o.registry request.name request.serverId=.ok (f.entry,f.rawTool)

/-- The first half of a call either ends with its trail or leaves none yet. -/
theorem trail_started (rt : Runtime) (o : Orchestrator) (now : ℚ) (request : CallRequest) :
    (∀ outcome, (startCall rt o now request).result=.ended outcome→
      Trail o.audit (Resolves o request) (startCall rt o now request).effects outcome []) ∧
    (∀ call, (startCall rt o now request).result=.waiting call→
      audited (startCall rt o now request).effects=[] ∧
      labels (startCall rt o now request).effects=[]) := by
  unfold startCall
  cases hr : resolve o.registry request.name request.serverId with
  | error e =>
    refine ⟨fun outcome he => ?_,fun call hw => (by cases hw)⟩
    cases he
    refine trail_silent ?_
    rw [leavesRecord,resolve_code hr]
    rfl
  | ok found =>
    obtain ⟨entry,rawTool⟩ := found
    dsimp only
    split
    · refine ⟨fun outcome he => ?_,fun call hw => (by cases hw)⟩
      cases he
      exact trail_silent rfl
    · split
      · rename_i refusal hrefused
        refine ⟨fun outcome he => ?_,fun call hw => (by cases hw)⟩
        cases he
        have htrail := trail_refused (gates rt o now ⟨request,entry,rawTool⟩).1
          ⟨request,entry,rawTool⟩ refusal
        rw [gates_audit] at htrail
        refine ⟨fun record hrecord => ?_,htrail.kept,htrail.matched⟩
        obtain ⟨f,rfl,htells⟩ := htrail.truthful record hrecord
        exact ⟨_,⟨rfl,hr⟩,htells⟩
      · split
        · refine ⟨fun outcome he => ?_,fun call hw => (by cases hw)⟩
          cases he
          exact trail_silent rfl
        · exact ⟨fun outcome he => (by cases he),fun _ _ => ⟨rfl,rfl⟩⟩

section Runs

/-- What an event did. -/
def effects : GatewayEvent→List Effect
  | .started _ _ _ report => report.effects
  | .finished _ _ _ _ report => report.effects

/-- The frame that an event is about: what its request is resolved to, or what
the call in flight was resolved to when it started. -/
def Routed : GatewayEvent→CallFrame→Prop
  | .started _ request before _,f => Resolves before request f
  | .finished _ call _ _ _,f => f=call.frame

/-- The answer to the caller, unless its call goes on. -/
def answered : GatewayEvent→Option CallOutcome
  | .started _ _ _ ⟨_,_,.ended outcome⟩ => some outcome
  | .started _ _ _ ⟨_,_,.waiting _⟩ => none
  | .finished _ _ _ _ report => some report.result

/-- Labels of an event that no record matches. -/
def unmatched : GatewayEvent→List Label
  | .started _ _ _ _ => []
  | .finished _ call _ _ report => unmatchedLabels call report.result

/-- What the answer of an event says about its effects. -/
structure Faithful (event : GatewayEvent) : Prop where
  /-- Every record tells the same as the answer, of the call as it was routed. -/
  truthful : ∀ record∈audited (effects event), ∃ f outcome, Routed event f ∧
    answered event=some outcome ∧ Tells f record outcome
  /-- The answer tells whether there is a record. -/
  kept : (audited (effects event)).length=
    if (answered event).any leavesRecord=true then 1 else 0
  /-- Counters and records agree. -/
  matched : labels (effects event)=(audited (effects event)).map recordLabel++unmatched event

/-- A gateway keeps its audit store. -/
theorem gateway_audit (rt : Runtime) (g : Gateway) (a : GatewayAction) :
    (GatewayRuns.step rt g a).1.orchestrator.audit=g.orchestrator.audit := by
  have hkept : KeepsPolicies a→
      (GatewayRuns.step rt g a).1.orchestrator.audit=g.orchestrator.audit := by
    intro hkeep
    obtain ⟨registry,limiter,cache,dispatcher,hwrites⟩ := step_writes rt g hkeep
    rw [hwrites]
  cases a with
  | reload cfg =>
    unfold GatewayRuns.step swapPolicies
    dsimp only
    split <;> rfl
  | _ => exact hkept trivial

/-- Every event of a gateway with an audit store is faithful. -/
theorem faithful_emit {rt : Runtime} {g : Gateway} {a : GatewayAction} {event : GatewayEvent}
    (hattached : g.orchestrator.audit=true) (he : (GatewayRuns.step rt g a).2=some event) :
    Faithful event := by
  cases a with
  | registry action => cases he
  | reload cfg => cases he
  | installWebhooks => cases he
  | manifest tag => cases he
  | tick elapsed => cases he
  | callStart request =>
    cases he
    obtain ⟨hended,hwaiting⟩ := trail_started rt g.orchestrator g.clock request
    revert hended hwaiting
    generalize startCall rt g.orchestrator g.clock request=report
    obtain ⟨o,done,result⟩ := report
    intro hended hwaiting
    cases result with
    | ended outcome =>
      have htrail := hended outcome rfl
      refine ⟨fun record hr => ?_,htrail.kept hattached,htrail.matched hattached⟩
      obtain ⟨f,hf,htells⟩ := htrail.truthful record hr
      exact ⟨f,outcome,hf,rfl,htells⟩
    | waiting call =>
      obtain ⟨haudited,hlabels⟩ := hwaiting call rfl
      dsimp only at haudited hlabels
      refine ⟨fun record hr => ?_,?_,?_⟩
      · rw [effects,haudited] at hr
        exact absurd hr List.not_mem_nil
      · rw [effects,haudited]
        rfl
      · rw [effects,haudited,hlabels]
        rfl
  | callFinish index outcome =>
    unfold GatewayRuns.step at he
    dsimp only at he
    split at he
    · cases he
    · rename_i call _
      cases he
      have htrail := trail_finished rt g.orchestrator g.clock call (clientAnswer rt outcome)
      refine ⟨fun record hr => ?_,htrail.kept hattached,htrail.matched hattached⟩
      obtain ⟨f,hf,htells⟩ := htrail.truthful record hr
      exact ⟨f,_,hf,rfl,htells⟩

/-- A call was in flight at the beginning, or was resolved to its frame when it
started. -/
def Begun (g : Gateway) (h : List GatewayEvent) (call : PendingCall) : Prop :=
  call∈g.pending ∨ ∃ time before report,
    GatewayEvent.started time call.frame.request before report∈h ∧
      Resolves before call.frame.request call.frame

/-- Every call of a state, and every one that was answered, has begun. -/
structure AllBegun (g now : Gateway) (h : List GatewayEvent) : Prop where
  /-- Calls in flight. -/
  pending : ∀ call∈now.pending, Begun g h call
  /-- Answered calls. -/
  finished : ∀ time call before outcome report,
    GatewayEvent.finished time call before outcome report∈h→ Begun g h call

/-- A call that has begun stays so. -/
theorem Begun.mono {g : Gateway} {h : List GatewayEvent} {call : PendingCall} (hb : Begun g h call)
    (emitted : List GatewayEvent) : Begun g (h++emitted) call := by
  rcases hb with hold | ⟨time,before,report,hm,hresolved⟩
  · exact Or.inl hold
  · exact Or.inr ⟨time,before,report,List.mem_append_left _ hm,hresolved⟩

/-- Every step keeps it that all calls have begun. -/
theorem allBegun_step (rt : Runtime) {g : Gateway} (now : Gateway) (h : List GatewayEvent)
    (a : GatewayAction) (hj : AllBegun g now h) :
    AllBegun g (GatewayRuns.step rt now a).1 (h++(GatewayRuns.step rt now a).2.toList) := by
  have hquiet : ∀ next : Gateway, next.pending=now.pending→AllBegun g next (h++[]) := by
    intro next hsame
    rw [List.append_nil]
    exact ⟨fun call hc => hj.pending call (hsame ▸ hc),hj.finished⟩
  cases a with
  | registry action => exact hquiet _ rfl
  | reload cfg => exact hquiet _ rfl
  | installWebhooks => exact hquiet _ rfl
  | manifest tag => exact hquiet _ rfl
  | tick elapsed => exact hquiet _ rfl
  | callStart request =>
    refine ⟨fun call hc => ?_,fun time call before outcome report hf => ?_⟩
    · rcases List.mem_append.mp hc with hold | hnew
      · exact (hj.pending call hold).mono _
      · cases hr : (startCall rt now.orchestrator now.clock request).result with
        | ended outcome =>
          rw [hr] at hnew
          exact absurd hnew List.not_mem_nil
        | waiting started =>
          rw [hr] at hnew
          obtain rfl := List.mem_singleton.mp hnew
          obtain ⟨rfl,hmediated,-⟩ := startCall_started hr
          exact Or.inr ⟨_,_,_,List.mem_append_right _ (List.mem_singleton_self _),rfl,
            hmediated.resolved⟩
    · rcases List.mem_append.mp hf with hold | hnew
      · exact (hj.finished _ _ _ _ _ hold).mono _
      · cases List.mem_singleton.mp hnew
  | callFinish index outcome =>
    unfold GatewayRuns.step
    dsimp only
    split
    · exact hquiet _ rfl
    · rename_i call hcall
      refine ⟨fun other ho => ?_,fun time other before outcome report hf => ?_⟩
      · exact (hj.pending other (List.mem_of_mem_eraseIdx ho)).mono _
      · rcases List.mem_append.mp hf with hold | hnew
        · exact (hj.finished _ _ _ _ _ hold).mono _
        · cases List.mem_singleton.mp hnew
          exact (hj.pending call (List.mem_of_getElem? hcall)).mono _

/-- Faithful events balance under every label. -/
theorem balance_of_faithful {events : List GatewayEvent} (h : ∀ event∈events, Faithful event)
    (label : Label) :
    (events.flatMap (fun e => labels (effects e))).count label=
      ((events.flatMap (fun e => audited (effects e))).map recordLabel).count label+
        (events.flatMap unmatched).count label := by
  induction events with
  | nil => rfl
  | cons event rest ih =>
    have hrest := ih (fun e he => h e (List.mem_cons_of_mem _ he))
    have hevent := (h event List.mem_cons_self).matched
    rw [List.flatMap_cons,List.flatMap_cons,List.flatMap_cons,hevent]
    simp only [List.count_append,List.map_append]
    omega

/-- Over every run of calls, reloads and registry operations with an audit
store: the answer to each call determines how many records it leaves and agrees
with them in status, detail, flags, caller, arguments and target, which is what
the registry resolved the request to when the call started; and under every
label the counter of calls exceeds the records by exactly the answers whose
redaction raised. -/
theorem trails_agree (rt : Runtime) (g : Gateway) (hattached : g.orchestrator.audit=true)
    (actions : List GatewayAction) :
    let events := (run (GatewayRuns.step rt) g actions).2
    (∀ event∈events, Faithful event) ∧
    (∀ time call before outcome report,
      GatewayEvent.finished time call before outcome report∈events→ Begun g events call) ∧
    ∀ label,
      (events.flatMap (fun e => labels (effects e))).count label=
        ((events.flatMap (fun e => audited (effects e))).map recordLabel).count label+
          (events.flatMap unmatched).count label := by
  have hstep : ∀ (g : Gateway) h a, (g.orchestrator.audit=true ∧ ∀ event∈h, Faithful event)→
      (GatewayRuns.step rt g a).1.orchestrator.audit=true ∧
        ∀ event∈h++(GatewayRuns.step rt g a).2.toList, Faithful event := by
    intro g h a hj
    refine ⟨(gateway_audit rt g a).trans hj.1,fun event he => ?_⟩
    rcases List.mem_append.mp he with hold | hnew
    · exact hj.2 event hold
    · exact faithful_emit hj.1 (Option.mem_toList.mp hnew)
  have hrun := run_invariant (J:=fun (g : Gateway) h => g.orchestrator.audit=true ∧
    ∀ event∈h, Faithful event) hstep
    ⟨hattached,fun event he => absurd he List.not_mem_nil⟩ actions
  have hbegun := run_invariant (J:=AllBegun g) (allBegun_step rt)
    ⟨fun call hc => Or.inl hc,fun _ _ _ _ _ hf => absurd hf List.not_mem_nil⟩ actions
  rw [List.nil_append] at hrun hbegun
  exact ⟨hrun.2,hbegun.finished,balance_of_faithful hrun.2⟩

/-- A gateway with one server and an audit store. -/
def auditedGateway : Gateway where
  clock := 0
  orchestrator := {plainOrchestrator [.register (plainServer "pg")] with audit := true}

theorem trails_agree_answered :
    let events := (run (GatewayRuns.step asciiRuntime) auditedGateway
      [.callStart (plainRequest "pg.search"),.callFinish 0 (.failed "timeout")]).2
    (∀ event∈events, Faithful event) ∧
    (∀ time call before outcome report,
      GatewayEvent.finished time call before outcome report∈events→
        Begun auditedGateway events call) ∧
    ∀ label,
      (events.flatMap (fun e => labels (effects e))).count label=
        ((events.flatMap (fun e => audited (effects e))).map recordLabel).count label+
          (events.flatMap unmatched).count label :=
  trails_agree asciiRuntime auditedGateway rfl
    [.callStart (plainRequest "pg.search"),.callFinish 0 (.failed "timeout")]

end Runs

end McpGateway.CallTrails
