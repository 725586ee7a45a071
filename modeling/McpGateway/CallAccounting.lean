import Mathlib
import McpGateway.PyDict
import McpGateway.StepRun
import McpGateway.JsonValue
import McpGateway.GatewaySettings
import McpGateway.ToolNaming
import McpGateway.ServerRegistry
import McpGateway.RegistryRuns
import McpGateway.ToolRouting
import McpGateway.ToolAuthorizer
import McpGateway.RateLimiting
import McpGateway.PyRuntime
import McpGateway.PiiRedactor
import McpGateway.Guardrails
import McpGateway.SchemaValidation
import McpGateway.ResultCache
import McpGateway.UpstreamContent
import McpGateway.ToolOrchestrator
import McpGateway.CallMediation

/-!
# Accounting of tool calls

Each handled exit of a call increments the counter once and audits once with
the same status. A cache hit does neither, a cancelled call and a call whose
gate crashes do neither, and an answer whose redaction crashes is only
counted.
-/

namespace McpGateway.CallAccounting

open PyDict StepRun JsonValue GatewaySettings ToolNaming ServerRegistry RegistryRuns ToolRouting
open ToolAuthorizer RateLimiting PyRuntime PiiRedactor Guardrails SchemaValidation ResultCache
open UpstreamContent ToolOrchestrator CallMediation

/-- Statuses of the counter increments, in order. -/
def counted (effects : List Effect) : List String :=
  effects.filterMap (fun e => match e with
    | .toolCall _ _ status => some status
    | _ => none)

/-- Records handed to the audit store, in order. -/
def audited (effects : List Effect) : List AuditRecord :=
  effects.filterMap (fun e => match e with
    | .audit record => some record
    | _ => none)

@[simp] theorem counted_append (first second : List Effect) :
    counted (first++second)=counted first++counted second := List.filterMap_append

@[simp] theorem audited_append (first second : List Effect) :
    audited (first++second)=audited first++audited second := List.filterMap_append

@[simp] theorem counted_toolCall (f : CallFrame) (status : String) (rest : List Effect) :
    counted (f.toolCall status::rest)=status::counted rest := rfl

@[simp] theorem audited_toolCall (f : CallFrame) (status : String) (rest : List Effect) :
    audited (f.toolCall status::rest)=audited rest := rfl

/-- An emitted record is not counted. -/
@[simp] theorem counted_emitAudit (o : Orchestrator) (record : AuditRecord) :
    counted (emitAudit o record)=[] := by
  unfold emitAudit
  split <;> rfl

/-- A record is audited when a store is attached. -/
@[simp] theorem audited_emitAudit (o : Orchestrator) (record : AuditRecord) :
    audited (emitAudit o record)=if o.audit=true then [record] else [] := by
  unfold emitAudit
  split <;> rfl

/-- A dispatched event is not counted. -/
@[simp] theorem counted_dispatch (o : Orchestrator) (f : CallFrame) (event : String)
    (fields : List (String×Json)) : counted (dispatch o f event fields)=[] := by
  unfold dispatch
  split <;> rfl

/-- A dispatched event is not audited. -/
@[simp] theorem audited_dispatch (o : Orchestrator) (f : CallFrame) (event : String)
    (fields : List (String×Json)) : audited (dispatch o f event fields)=[] := by
  unfold dispatch
  split <;> rfl

/-- A cache write is not counted. -/
@[simp] theorem counted_storeResult (rt : Runtime) (o : Orchestrator) (call : PendingCall)
    (now : ℚ) (clean : Json) : counted (storeResult rt o call now clean).2=[] := by
  unfold storeResult
  split
  · rfl
  · split <;> rfl

/-- A cache write is not audited. -/
@[simp] theorem audited_storeResult (rt : Runtime) (o : Orchestrator) (call : PendingCall)
    (now : ℚ) (clean : Json) : audited (storeResult rt o call now clean).2=[] := by
  unfold storeResult
  split
  · rfl
  · split <;> rfl

/-- The gates keep the audit store. -/
theorem gates_audit (rt : Runtime) (o : Orchestrator) (now : ℚ) (f : CallFrame) :
    (gates rt o now f).1.audit=o.audit := by
  obtain ⟨limiter,hframe⟩ := gates_frame rt o now f
  rw [hframe]

/-- The call is accounted for exactly once: one increment and one record with
one status, which is `ok` exactly when a result is returned. -/
def Accounted (report : CallReport CallOutcome) : Prop :=
  ∃ status record, counted report.effects=[status] ∧ audited report.effects=[record] ∧
    record.status=status ∧ (status="ok" ↔ ∃ result, report.result=.returned result)

/-- A handled exit: one increment and, with a store attached, one record, both
with the same status. -/
def Reported (o : Orchestrator) (effects : List Effect) (status : String) : Prop :=
  counted effects=[status] ∧ ∃ record, record.status=status ∧
    audited effects=if o.audit=true then [record] else []

/-- A handled exit with the right status is accounted for exactly when an
audit store is attached. -/
theorem reported_accounted {o state : Orchestrator} {effects : List Effect}
    {outcome : CallOutcome} {status : String} (h : Reported o effects status)
    (hok : status="ok" ↔ ∃ result, outcome=.returned result) :
    Accounted ⟨state,effects,outcome⟩ ↔ o.audit=true := by
  obtain ⟨hcounted,record,hstatus,haudited⟩ := h
  constructor
  · intro ha
    obtain ⟨other,found,-,hfound,-⟩ := ha
    by_contra hnone
    rw [if_neg hnone,hfound] at haudited
    exact absurd haudited (List.cons_ne_nil _ _)
  · intro hattached
    rw [if_pos hattached] at haudited
    exact ⟨status,record,hcounted,haudited,hstatus,hok⟩

/-- A handled exit without a result and with another status than `ok` is
accounted for exactly when an audit store is attached. -/
theorem reported_refused {o : Orchestrator} {effects : List Effect} (outcome : CallOutcome)
    (state : Orchestrator) (h : ∃ status, status≠"ok" ∧ Reported o effects status)
    (hnone : ∀ result, outcome≠.returned result) :
    Accounted ⟨state,effects,outcome⟩ ↔ o.audit=true := by
  obtain ⟨status,hne,hreported⟩ := h
  refine reported_accounted hreported ⟨fun hok => absurd hok hne,fun hr => ?_⟩
  obtain ⟨result,hresult⟩ := hr
  exact absurd hresult (hnone result)

/-- A report without an increment is not accounted for. -/
theorem not_accounted_of_uncounted {report : CallReport CallOutcome}
    (h : counted report.effects=[]) : ¬Accounted report := by
  intro ha
  obtain ⟨status,record,hcounted,-⟩ := ha
  rw [h] at hcounted
  exact absurd hcounted.symm (List.cons_ne_nil _ _)

/-- A report without a record is not accounted for. -/
theorem not_accounted_of_unaudited {report : CallReport CallOutcome}
    (h : audited report.effects=[]) : ¬Accounted report := by
  intro ha
  obtain ⟨status,record,-,haudited,-⟩ := ha
  rw [h] at haudited
  exact absurd haudited.symm (List.cons_ne_nil _ _)

/-- An increment and the record of one status, among effects that are neither
counted nor audited, are a handled exit. -/
theorem reported_handler (o : Orchestrator) (f : CallFrame) {status : String}
    {record : AuditRecord} {stored rest : List Effect}
    (hstored : counted stored=[] ∧ audited stored=[]) (hrest : counted rest=[] ∧ audited rest=[])
    (hstatus : record.status=status) :
    Reported o (f.toolCall status::stored++emitAudit o record++rest) status := by
  obtain ⟨hcounted,haudited⟩ := hstored
  obtain ⟨hcounted',haudited'⟩ := hrest
  refine ⟨?_,record,hstatus,?_⟩
  · simp only [counted_append,counted_toolCall,counted_emitAudit,hcounted,hcounted',List.append_nil]
  · simp only [audited_append,audited_toolCall,audited_emitAudit,haudited,haudited',
      List.nil_append,List.append_nil]

/-- A refusal without an event is a handled exit. -/
theorem reported_silent (o : Orchestrator) (f : CallFrame) {status : String}
    {record : AuditRecord} (hstatus : record.status=status) :
    Reported o (f.toolCall status::emitAudit o record) status := by
  have hreported : Reported o (f.toolCall status::[]++emitAudit o record++[]) status :=
    reported_handler o f ⟨rfl,rfl⟩ ⟨rfl,rfl⟩ hstatus
  rwa [List.append_nil] at hreported

/-- A handler that ends with an event is a handled exit. -/
theorem reported_dispatch (o : Orchestrator) (f : CallFrame) {status event : String}
    {record : AuditRecord} {fields : List (String×Json)} (hstatus : record.status=status) :
    Reported o (f.toolCall status::emitAudit o record++dispatch o f event fields) status :=
  reported_handler o f (⟨rfl,rfl⟩ : counted []=[] ∧ audited []=[])
    ⟨counted_dispatch o f event fields,audited_dispatch o f event fields⟩ hstatus

/-- Every refusal but a crash is a handled exit with a status of its own. -/
theorem refusal_reported (o : Orchestrator) (f : CallFrame) {refusal : Refusal}
    (h : ∀ text, refusal≠.crash text) :
    ∃ status, status≠"ok" ∧ Reported o (refusalEffects o f refusal) status := by
  cases refusal with
  | crash text => exact absurd rfl (h text)
  | authorization error =>
    exact ⟨"auth_denied",by decide,reported_silent o f rfl⟩
  | rateLimit scope =>
    exact ⟨"rate_limited",by decide,reported_silent o f rfl⟩
  | guardrail violation =>
    exact ⟨"guardrail_blocked",by decide,reported_dispatch o f rfl⟩
  | schema error =>
    exact ⟨"schema_invalid",by decide,reported_dispatch o f rfl⟩

/-- A failed request is a handled exit. -/
theorem failure_reported (o : Orchestrator) (call : PendingCall) (now : ℚ) (status text : String) :
    Reported o (failureEffects o call now status text) status :=
  reported_dispatch o call.frame rfl

/-- A handled exit stays one behind silent effects. -/
theorem reported_append {o : Orchestrator} {first second : List Effect} {status : String}
    (hcounted : counted first=[]) (haudited : audited first=[]) (h : Reported o second status) :
    Reported o (first++second) status := by
  unfold Reported
  rw [counted_append,audited_append,hcounted,haudited,List.nil_append,List.nil_append]
  exact h

/-- A redacted answer is a handled exit. -/
theorem finish_reported {rt : Runtime} {o : Orchestrator} (now : ℚ) (call : PendingCall)
    {value : Json} {pair : Json×Bool} (h : o.redactor.redact rt .response value=.ok pair) :
    Reported o (finishCall rt o now call (.content value)).effects "ok" ∧
    ∃ result, (finishCall rt o now call (.content value)).result=.returned result := by
  obtain ⟨clean,respRedacted⟩ := pair
  unfold finishCall
  dsimp only
  rw [h]
  exact ⟨reported_handler o call.frame
    ⟨counted_storeResult rt o call now clean,audited_storeResult rt o call now clean⟩
    ⟨counted_dispatch _ _ _ _,audited_dispatch _ _ _ _⟩ rfl,_,rfl⟩

/-- An answer whose redaction crashes is not audited. -/
theorem finish_unaudited {rt : Runtime} {o : Orchestrator} (now : ℚ) (call : PendingCall)
    {value : Json} {text : String} (h : o.redactor.redact rt .response value=.error text) :
    audited (finishCall rt o now call (.content value)).effects=[] := by
  unfold finishCall
  dsimp only
  rw [h]
  rfl

/-- Behind silent effects the second half of a call is accounted for exactly
when a store is attached, the call is not cancelled and its answer can be
redacted. -/
theorem finishCall_accounted_iff (rt : Runtime) (o state : Orchestrator) (now : ℚ)
    (call : PendingCall) (answer : UpstreamAnswer) (first : List Effect)
    (hcounted : counted first=[]) (haudited : audited first=[]) :
    Accounted ⟨state,first++(finishCall rt o now call answer).effects,
      (finishCall rt o now call answer).result⟩ ↔
      o.audit=true ∧ answer≠.cancelled ∧
      ∀ value, answer=.content value→∃ pair, o.redactor.redact rt .response value=.ok pair := by
  cases answer with
  | upstreamError error =>
    have hfailed := failure_reported o call now "upstream_error" error.message
    have haccounted := reported_refused (.raised ⟨"upstream error: "++error.message,502⟩) state
      ⟨_,by decide,reported_append hcounted haudited hfailed⟩ (fun _ h => (by cases h))
    exact haccounted.trans (by simp)
  | exception text =>
    have hfailed := failure_reported o call now "error" text
    have haccounted := reported_refused (.raised ⟨text,500⟩) state
      ⟨_,by decide,reported_append hcounted haudited hfailed⟩ (fun _ h => (by cases h))
    exact haccounted.trans (by simp)
  | cancelled =>
    constructor
    · intro ha
      exact absurd ha (not_accounted_of_uncounted (by rw [counted_append,hcounted]; rfl))
    · intro h
      exact absurd rfl h.2.1
  | content value =>
    cases hr : o.redactor.redact rt .response value with
    | error text =>
      have hunaudited := finish_unaudited now call hr
      constructor
      · intro ha
        refine absurd ha (not_accounted_of_unaudited ?_)
        rw [audited_append,haudited,List.nil_append]
        exact hunaudited
      · intro h
        obtain ⟨pair,hpair⟩ := h.2.2 value rfl
        rw [hr] at hpair
        cases hpair
    | ok pair =>
      obtain ⟨hreported,hreturned⟩ := finish_reported now call hr
      rw [reported_accounted (reported_append hcounted haudited hreported)
        ⟨fun _ => hreturned,fun _ => rfl⟩]
      constructor
      · intro h
        refine ⟨h,by simp,?_⟩
        intro other ho
        cases ho
        exact ⟨pair,hr⟩
      · exact fun h => h.1

/-- A gate raises an exception that no handler of the pipeline catches. -/
inductive Uncaught (rt : Runtime) (o : Orchestrator) (now : ℚ) (f : CallFrame) : Prop where
  /-- The limiter divides by a zero rate. -/
  | limiter (limiter : RateLimiter)
    (authorized : authorizeToolCall o.authorizer f.request.principal f.rawTool f.qualified
      f.mutable=.ok ()) (installed : o.rateLimiter=some limiter)
    (zero : (limiter.check now f.request.principal.agentId f.qualified).2=.divisionByZero)
  /-- The schema validator crashes. -/
  | schema (validator : ToolSchemaValidator) (text : String)
    (authorized : authorizeToolCall o.authorizer f.request.principal f.rawTool f.qualified
      f.mutable=.ok ()) (granted : (rateGate o now f).2=.granted)
    (guarded : o.safety.check rt f.rawTool f.request.arguments=.ok ())
    (installed : o.schemaValidator=some validator)
    (crash : validator.validate rt f.rawTool f.request.arguments (inputSchema f)=
      .error (.crashed text))
  /-- The redaction of the arguments crashes. -/
  | redaction (text : String)
    (authorized : authorizeToolCall o.authorizer f.request.principal f.rawTool f.qualified
      f.mutable=.ok ()) (granted : (rateGate o now f).2=.granted)
    (guarded : o.safety.check rt f.rawTool f.request.arguments=.ok ())
    (valid : schemaGate rt o f=.ok ())
    (crash : o.redactor.redact rt .request f.request.arguments=.error text)

/-- The content gates crash in the schema validator or in the redaction. -/
theorem contentGates_crash_iff (rt : Runtime) (o : Orchestrator) (f : CallFrame) (text : String) :
    contentGates rt o f=.error (.crash text) ↔
      o.safety.check rt f.rawTool f.request.arguments=.ok () ∧
      (schemaGate rt o f=.error (.crashed text) ∨ schemaGate rt o f=.ok () ∧
        o.redactor.redact rt .request f.request.arguments=.error text) := by
  unfold contentGates
  cases hs : o.safety.check rt f.rawTool f.request.arguments with
  | error v => simp
  | ok u =>
    cases hv : schemaGate rt o f with
    | error failure => cases failure <;> simp
    | ok w => cases hr : o.redactor.redact rt .request f.request.arguments <;> simp

/-- The schema gate crashes when the installed validator does. -/
theorem schemaGate_crash_iff (rt : Runtime) (o : Orchestrator) (f : CallFrame) (text : String) :
    schemaGate rt o f=.error (.crashed text) ↔ ∃ validator, o.schemaValidator=some validator ∧
      validator.validate rt f.rawTool f.request.arguments (inputSchema f)=
        .error (.crashed text) := by
  unfold schemaGate
  cases h : o.schemaValidator <;> simp

/-- The rate gate divides by zero when the installed limiter does. -/
theorem rateGate_zero_iff (o : Orchestrator) (now : ℚ) (f : CallFrame) :
    (rateGate o now f).2=.divisionByZero ↔ ∃ limiter, o.rateLimiter=some limiter ∧
      (limiter.check now f.request.principal.agentId f.qualified).2=.divisionByZero := by
  unfold rateGate
  cases h : o.rateLimiter <;> simp

/-- Behind an authorization the verdict of the gates is that of the limiter, then
that of the content gates. -/
theorem gates_authorized {rt : Runtime} {o : Orchestrator} {now : ℚ} {f : CallFrame}
    (ha : authorizeToolCall o.authorizer f.request.principal f.rawTool f.qualified
      f.mutable=.ok ()) :
    (gates rt o now f).2=match (rateGate o now f).2 with
      | .exceeded scope _ => .error (.rateLimit scope)
      | .divisionByZero => .error (.crash "float division by zero")
      | .granted => contentGates rt o f := by
  have hcontent := contentGates_rateGate rt o now f
  unfold gates
  rw [ha]
  dsimp only
  cases hl : (rateGate o now f).2 with
  | exceeded scope retry => rfl
  | divisionByZero => rfl
  | granted => exact hcontent

/-- The gates end in a crash exactly when one of them raises what no handler
catches. -/
theorem gates_crash_iff (rt : Runtime) (o : Orchestrator) (now : ℚ) (f : CallFrame) :
    (∃ text, (gates rt o now f).2=.error (.crash text)) ↔ Uncaught rt o now f := by
  constructor
  · intro h
    obtain ⟨text,h⟩ := h
    cases ha : authorizeToolCall o.authorizer f.request.principal f.rawTool f.qualified
        f.mutable with
    | error e =>
      unfold gates at h
      rw [ha] at h
      cases h
    | ok u =>
      rw [gates_authorized ha] at h
      cases hl : (rateGate o now f).2 with
      | exceeded scope retry =>
        rw [hl] at h
        cases h
      | divisionByZero =>
        obtain ⟨limiter,hinstalled,hzero⟩ := (rateGate_zero_iff o now f).mp hl
        exact .limiter limiter ha hinstalled hzero
      | granted =>
        rw [hl] at h
        obtain ⟨hguarded,hcrash⟩ := (contentGates_crash_iff rt o f text).mp h
        rcases hcrash with hschema | ⟨hvalid,hredact⟩
        · obtain ⟨validator,hinstalled,hcrash⟩ := (schemaGate_crash_iff rt o f text).mp hschema
          exact .schema validator text ha hl hguarded hinstalled hcrash
        · exact .redaction text ha hl hguarded hvalid hredact
  · intro h
    cases h with
    | limiter limiter ha hinstalled hzero =>
      rw [gates_authorized ha,(rateGate_zero_iff o now f).mpr ⟨limiter,hinstalled,hzero⟩]
      exact ⟨_,rfl⟩
    | schema validator text ha hl hguarded hinstalled hcrash =>
      have hschema := (schemaGate_crash_iff rt o f text).mpr ⟨validator,hinstalled,hcrash⟩
      rw [gates_authorized ha,hl]
      exact ⟨text,(contentGates_crash_iff rt o f text).mpr ⟨hguarded,Or.inl hschema⟩⟩
    | redaction text ha hl hguarded hvalid hcrash =>
      rw [gates_authorized ha,hl]
      exact ⟨text,(contentGates_crash_iff rt o f text).mpr ⟨hguarded,Or.inr ⟨hvalid,hcrash⟩⟩⟩

/-- What a call needs in order to be accounted for. -/
structure Accountable (rt : Runtime) (o : Orchestrator) (now : ℚ) (f : CallFrame)
    (interlude : Interlude) : Prop where
  /-- No gate raises what no handler catches. -/
  caught : ¬Uncaught rt o now f
  /-- A refused call finds an audit store attached. -/
  refused : (∀ sent reqRedacted, ¬Mediated rt o now f sent reqRedacted)→ o.audit=true
  /-- The cache does not answer a mediated call. -/
  missed : ∀ sent reqRedacted, Mediated rt o now f sent reqRedacted→
    (lookupResult rt (rateGate o now f).1 now f sent).2=none
  /-- A mediated call that goes upstream is not cancelled, finds an audit store
  attached and gets an answer that can be redacted. -/
  answered : ∀ sent reqRedacted, Mediated rt o now f sent reqRedacted→
    let found := interlude (lookupResult rt (rateGate o now f).1 now f sent).1
    found.1.audit=true ∧ found.2.2≠.cancelled ∧
    ∀ value, found.2.2=.content value→
      ∃ pair, found.1.redactor.redact rt .response value=.ok pair

/-- A call that a gate ends is accounted for exactly when the gate's exception
is handled and an audit store is attached. -/
theorem refusal_accounted_iff {rt : Runtime} {o : Orchestrator} {now : ℚ} {f : CallFrame}
    (interlude : Interlude) {refusal : Refusal}
    (hr : resolve o.registry f.request.name f.request.serverId=.ok (f.entry,f.rawTool))
    (he : f.entry.server.enabled=true) (hg : (gates rt o now f).2=.error refusal) :
    Accounted (callTool rt o now f.request interlude) ↔
      (∀ text, refusal≠.crash text) ∧ o.audit=true := by
  have hcall : callTool rt o now f.request interlude=
      ⟨(gates rt o now f).1,refusalEffects (gates rt o now f).1 f refusal,
        refusalOutcome refusal⟩ := by
    unfold callTool startCall
    rw [hr]
    dsimp only
    rw [if_neg (by rw [he]; exact Bool.noConfusion),hg]
  rw [hcall]
  by_cases hcrash : ∃ text, refusal=.crash text
  · obtain ⟨text,rfl⟩ := hcrash
    constructor
    · exact fun ha => absurd ha (not_accounted_of_uncounted rfl)
    · exact fun h => absurd rfl (h.1 text)
  · have hhandled : ∀ text, refusal≠.crash text := fun text h => hcrash ⟨text,h⟩
    have hnone : ∀ result, refusalOutcome refusal≠.returned result := by
      intro result
      cases refusal <;> exact fun h => (by cases h)
    rw [reported_refused _ _ (refusal_reported _ f hhandled) hnone,gates_audit]
    exact ⟨fun h => ⟨hhandled,h⟩,fun h => h.2⟩

/-- A mediated call is accounted for exactly when the cache does not answer it
and its second half is accounted for. -/
theorem mediated_accounted_iff {rt : Runtime} {o : Orchestrator} {now : ℚ} {f : CallFrame}
    {sent : Json} {reqRedacted : Bool} (interlude : Interlude)
    (hm : Mediated rt o now f sent reqRedacted) :
    let found := interlude (lookupResult rt (rateGate o now f).1 now f sent).1
    Accounted (callTool rt o now f.request interlude) ↔
      (lookupResult rt (rateGate o now f).1 now f sent).2=none ∧ found.1.audit=true ∧
      found.2.2≠.cancelled ∧ ∀ value, found.2.2=.content value→
        ∃ pair, found.1.redactor.redact rt .response value=.ok pair := by
  intro found
  unfold callTool
  rw [startCall_mediated hm]
  cases hl : (lookupResult rt (rateGate o now f).1 now f sent).2 with
  | some content =>
    constructor
    · exact fun ha => absurd ha (not_accounted_of_uncounted rfl)
    · exact fun h => absurd h.1 (by simp)
  | none =>
    have hfinish := finishCall_accounted_iff rt found.1
      (finishCall rt found.1 found.2.1 ⟨f,sent,reqRedacted,now⟩ found.2.2).orchestrator found.2.1
      ⟨f,sent,reqRedacted,now⟩ found.2.2
      [.upstream f.entry.client f.rawTool sent f.request.principal.agentId] rfl rfl
    exact hfinish.trans ⟨fun h => ⟨rfl,h⟩,fun h => h.2⟩

/-- Every call of an enabled server, however it ends, is accounted for exactly
once exactly when it is accountable. -/
theorem accounted_iff (rt : Runtime) (o : Orchestrator) (now : ℚ) (f : CallFrame)
    (interlude : Interlude)
    (hr : resolve o.registry f.request.name f.request.serverId=.ok (f.entry,f.rawTool))
    (he : f.entry.server.enabled=true) :
    Accounted (callTool rt o now f.request interlude) ↔ Accountable rt o now f interlude := by
  cases hg : (gates rt o now f).2 with
  | error refusal =>
    have hrefused : ∀ sent reqRedacted, ¬Mediated rt o now f sent reqRedacted := by
      intro sent reqRedacted hm
      rw [((mediated_iff _ _ _ _ _ _).mp hm).2.2] at hg
      cases hg
    rw [refusal_accounted_iff interlude hr he hg]
    constructor
    · intro h
      obtain ⟨hhandled,hattached⟩ := h
      refine ⟨fun hu => ?_,fun _ => hattached,fun s r hm => absurd hm (hrefused s r),
        fun s r hm => absurd hm (hrefused s r)⟩
      obtain ⟨text,htext⟩ := (gates_crash_iff rt o now f).mpr hu
      rw [hg] at htext
      exact hhandled text (Except.error.inj htext)
    · intro h
      refine ⟨fun text hc => h.caught ?_,h.refused hrefused⟩
      exact (gates_crash_iff rt o now f).mp ⟨text,by rw [hg,hc]⟩
  | ok pair =>
    obtain ⟨sent,reqRedacted⟩ := pair
    have hm : Mediated rt o now f sent reqRedacted :=
      (mediated_iff rt o now f sent reqRedacted).mpr ⟨hr,he,hg⟩
    have hunique : ∀ sent' flag, Mediated rt o now f sent' flag→sent'=sent := by
      intro sent' flag hm'
      have hpair := hm'.redacted.symm.trans hm.redacted
      cases hpair
      rfl
    refine Iff.trans (mediated_accounted_iff interlude hm) ?_
    constructor
    · intro h
      refine ⟨fun hu => ?_,fun hnone => absurd hm (hnone _ _),?_,?_⟩
      · obtain ⟨text,htext⟩ := (gates_crash_iff rt o now f).mpr hu
        rw [hg] at htext
        cases htext
      · intro sent' flag hm'
        rw [hunique sent' flag hm']
        exact h.1
      · intro sent' flag hm'
        rw [hunique sent' flag hm']
        exact h.2
    · intro h
      exact ⟨h.missed sent reqRedacted hm,h.answered sent reqRedacted hm⟩

/-- An orchestrator with a tool, an audit store and a cache that keeps every
result for a minute. -/
def storingOrchestrator : Orchestrator :=
  {plainOrchestrator (oneSync {name := "t"}) with
    audit := true,cache := some {cfg := {defaultToolTtl := 60}}}

/-- Nothing happens but the answer, one second later. -/
def answerWith (value : Json) : Interlude := fun o => (o,1,.content value)

theorem accounted_iff_answered :
    ∃ f, f.request=plainRequest "a.t" ∧
      Accountable asciiRuntime storingOrchestrator 0 f (answerWith (.str "A")) :=
  ⟨⟨plainRequest "a.t",_,_⟩,rfl,
    (accounted_iff asciiRuntime storingOrchestrator 0 ⟨plainRequest "a.t",_,_⟩
      (answerWith (.str "A")) rfl rfl).mp
      ⟨"ok",_,rfl,rfl,rfl,⟨fun _ => ⟨_,rfl⟩,fun _ => rfl⟩⟩⟩

/-- Content of a returned result. -/
def returnedContent : CallOutcome→Option Json
  | .returned result => some result.content
  | _ => none

/-- The same call again two seconds later. -/
def secondReport : CallReport CallOutcome :=
  callTool asciiRuntime (callTool asciiRuntime storingOrchestrator 0 (plainRequest "a.t")
    (answerWith (.str "A"))).orchestrator 2 (plainRequest "a.t") (answerWith (.str "B"))

/-- It returns the first answer from the cache, and is neither counted nor
audited. -/
theorem cache_hit_unaccounted :
    returnedContent secondReport.result=some (.str "A") ∧ counted secondReport.effects=[] ∧
      audited secondReport.effects=[] ∧ ¬Accounted secondReport := by
  have huncounted : counted secondReport.effects=[] := by decide +kernel
  have hunaudited : (audited secondReport.effects).length=0 := by decide +kernel
  exact ⟨by decide +kernel,huncounted,List.length_eq_zero_iff.mp hunaudited,
    not_accounted_of_uncounted huncounted⟩

end McpGateway.CallAccounting
