import Mathlib
import McpGateway.PyText
import McpGateway.StepRun
import McpGateway.JsonValue
import McpGateway.GatewaySettings
import McpGateway.CircuitBreakers
import McpGateway.ToolRouting
import McpGateway.PyRuntime
import McpGateway.PiiRedactor
import McpGateway.Guardrails
import McpGateway.ResultCache
import McpGateway.UpstreamContent
import McpGateway.ToolOrchestrator
import McpGateway.CallMediation
import McpGateway.GatewayRuns
import McpGateway.CacheProvenance

/-!
# Redaction of what upstreams supply

An upstream supplies the content of a result or the text of an error. Content
reaches the caller and the cache only through the response redaction. An error
text reaches the raised message, the audit record and the error event as it
is, so it is redacted exactly when the redaction would not change it.
-/

namespace McpGateway.ResponseRedaction

open PyText StepRun JsonValue GatewaySettings CircuitBreakers ToolRouting PyRuntime PiiRedactor
open Guardrails ResultCache UpstreamContent ToolOrchestrator CallMediation GatewayRuns
open CacheProvenance

/-- The error text that an upstream supplies: the text of a result marked as
an error, or of an exception of the session. -/
def suppliedError (rt : Runtime) : UpstreamOutcome→Option String
  | .answered result =>
    if result.isError=true then some (payloadText rt (payload result.content)) else none
  | .failed text => some text
  | .refused _ => none
  | .cancelled => none

/-- Everything that an upstream supplies with one outcome. -/
def supplied (rt : Runtime) : UpstreamOutcome→Option Json
  | .answered result =>
    some (if result.isError=true then .str (payloadText rt (payload result.content))
      else payload result.content)
  | .failed text => some (.str text)
  | .refused _ => none
  | .cancelled => none

/-- What the end of a call hands out of its upstream's outcome. -/
inductive HandsOut (report : CallReport CallOutcome) : Json→Prop where
  /-- The content of the returned result. -/
  | content (result : ToolCallResult) (h : report.result=.returned result) :
    HandsOut report result.content
  /-- The message of the raised error behind the gateway's own words. -/
  | upstreamMessage (text : String)
      (h : report.result=.raised ⟨"upstream error: "++text,502⟩) : HandsOut report (.str text)
  /-- The message of the raised error of any other failure. -/
  | message (text : String) (h : report.result=.raised ⟨text,500⟩) : HandsOut report (.str text)
  /-- The error detail of an audit record. -/
  | detail (record : AuditRecord) (text : String) (hr : Effect.audit record∈report.effects)
      (h : record.errorDetail=some text) : HandsOut report (.str text)
  /-- The error of a dispatched event. -/
  | event (name : String) (fields : List (String×Json)) (v : Json)
      (he : Effect.webhook name (.obj fields)∈report.effects) (h : ("error",v)∈fields) :
    HandsOut report v

/-- A value is the response redaction of another by the given redactor. -/
def RedactionOf (rt : Runtime) (r : Redactor) (source v : Json) : Prop :=
  ∃ flag, r.redact rt .response source=.ok (v,flag)

/-- What a half of a call hands out of an upstream's outcome is the response
redaction of what the upstream supplied, now or for an earlier call. -/
def HandedOutRedacted (rt : Runtime) (earlier : List GatewayEvent) : GatewayEvent→Prop
  | .started _ _ _ report => ∀ result, report.result=.ended (.returned result)→
    ∃ time call o outcome report' source,
      GatewayEvent.finished time call o outcome report'∈earlier ∧
      supplied rt outcome=some source ∧ RedactionOf rt o.redactor source result.content
  | .finished _ _ o outcome report => ∀ source, supplied rt outcome=some source→
    ∀ v, HandsOut report v→RedactionOf rt o.redactor source v

/-- The error text supplied with an answer is one that the response redaction
leaves as it is. -/
def ErrorTextUnchanged (rt : Runtime) : GatewayEvent→Prop
  | .started _ _ _ _ => True
  | .finished _ _ o outcome _ => ∀ text, suppliedError rt outcome=some text→
    RedactionOf rt o.redactor (.str text) (.str text)

/-- Every event of a run hands out redacted values only. -/
def AllRedacted (rt : Runtime) (events : List GatewayEvent) : Prop :=
  ∀ earlier e later, events=earlier++e::later→HandedOutRedacted rt earlier e

/-- A client answers with content exactly when the upstream supplies content
that is no error. -/
theorem clientAnswer_content {rt : Runtime} {outcome : UpstreamOutcome} {value : Json}
    (h : clientAnswer rt outcome=.content value) :
    supplied rt outcome=some value ∧ suppliedError rt outcome=none := by
  cases outcome with
  | refused error => cases h
  | failed text => cases h
  | cancelled => cases h
  | answered result =>
    simp only [clientAnswer,extractContent] at h
    by_cases he : result.isError=true
    · rw [if_pos he] at h
      cases h
    · rw [if_neg he] at h
      cases h
      simp only [supplied,suppliedError,if_neg he]
      exact ⟨trivial,trivial⟩

/-- A supplied error text is the text of the exception the client raises. -/
theorem clientAnswer_error {rt : Runtime} {outcome : UpstreamOutcome} {text : String}
    (h : suppliedError rt outcome=some text) :
    supplied rt outcome=some (.str text) ∧
      ∃ code, clientAnswer rt outcome=.upstreamError ⟨text,code⟩ := by
  cases outcome with
  | refused error => cases h
  | cancelled => cases h
  | failed message =>
    cases h
    exact ⟨rfl,-32000,rfl⟩
  | answered result =>
    simp only [suppliedError] at h
    split at h
    · rename_i he
      cases h
      refine ⟨?_,-32603,?_⟩
      · simp only [supplied,if_pos he]
      · simp only [clientAnswer,extractContent,if_pos he]
    · cases h

/-- An outcome that supplies anything supplies content or an error text. -/
theorem supplied_cases {rt : Runtime} {outcome : UpstreamOutcome} {source : Json}
    (h : supplied rt outcome=some source) :
    clientAnswer rt outcome=.content source ∨
      ∃ text, source=.str text ∧ suppliedError rt outcome=some text := by
  cases outcome with
  | refused error => cases h
  | cancelled => cases h
  | failed text =>
    cases h
    exact Or.inr ⟨text,rfl,rfl⟩
  | answered result =>
    simp only [supplied] at h
    by_cases he : result.isError=true
    · rw [if_pos he] at h
      cases h
      exact Or.inr ⟨_,rfl,by simp only [suppliedError,if_pos he]⟩
    · rw [if_neg he] at h
      cases h
      exact Or.inl (by simp only [clientAnswer,extractContent,if_neg he])

/-- The error field of a dispatched event is one of its own fields. -/
theorem dispatch_error {o : Orchestrator} {f : CallFrame} {event name : String}
    {fields fields' : List (String×Json)} {v : Json}
    (h : Effect.webhook name (.obj fields')∈dispatch o f event fields)
    (hv : ("error",v)∈fields') : ("error",v)∈fields := by
  cases dispatch_mem h
  rcases List.mem_append.mp hv with hcommon | hown
  · simp at hcommon
  · exact hown

/-- A failed request hands out the text of its exception. -/
theorem handsOut_failed {rt : Runtime} {o : Orchestrator} {now : ℚ} {call : PendingCall}
    {error : UpstreamError} {v : Json}
    (h : HandsOut (finishCall rt o now call (.upstreamError error)) v) : v=.str error.message := by
  cases h with
  | content result h => cases h
  | message text h => cases h
  | upstreamMessage text h =>
    have htext : "upstream error: "++error.message="upstream error: "++text :=
      congrArg OrchestrationError.message (CallOutcome.raised.inj h)
    rw [(String.append_right_inj _).mp htext]
  | detail record text hr h =>
    rcases List.mem_append.mp hr with hr | hr
    · rcases List.mem_cons.mp hr with hr | hr
      · cases hr
      · cases emitAudit_mem hr
        cases h
        rfl
    · cases dispatch_mem hr
  | event name fields v he h =>
    rcases List.mem_append.mp he with he | he
    · rcases List.mem_cons.mp he with he | he
      · cases he
      · cases emitAudit_mem he
    · have hfield := dispatch_error he h
      simp only [List.mem_cons,Prod.mk.injEq,true_and,List.not_mem_nil,or_false] at hfield
      rcases hfield with hfield | hfield
      · exact hfield
      · exact absurd hfield.1 (by decide)

/-- A successful request hands out the redaction of its content. -/
theorem handsOut_answered {rt : Runtime} {o : Orchestrator} {now : ℚ} {call : PendingCall}
    {value v : Json} (h : HandsOut (finishCall rt o now call (.content value)) v) :
    RedactionOf rt o.redactor value v := by
  cases hr : o.redactor.redact rt .response value with
  | error text =>
    have hreport : finishCall rt o now call (.content value)=
        ⟨o,[call.frame.toolCall "ok"],.crashed text⟩ := by
      simp only [finishCall,hr]
    rw [hreport] at h
    cases h with
    | content result h => cases h
    | upstreamMessage text h => cases h
    | message text h => cases h
    | detail record text hr h => cases List.mem_singleton.mp hr
    | event name fields v he h => cases List.mem_singleton.mp he
  | ok pair =>
    obtain ⟨clean,flag⟩ := pair
    simp only [finishCall,hr] at h
    cases h with
    | content result h =>
      cases h
      exact ⟨flag,hr⟩
    | upstreamMessage text h => cases h
    | message text h => cases h
    | detail record text hm h =>
      rcases List.mem_append.mp hm with hm | hm
      · rcases List.mem_append.mp hm with hm | hm
        · rcases List.mem_cons.mp hm with hm | hm
          · cases hm
          · cases storeResult_mem hm
        · cases emitAudit_mem hm
          cases h
      · cases dispatch_mem hm
    | event name fields v he h =>
      rcases List.mem_append.mp he with he | he
      · rcases List.mem_append.mp he with he | he
        · rcases List.mem_cons.mp he with he | he
          · cases he
          · cases storeResult_mem he
        · cases emitAudit_mem he
      · simpa using dispatch_error he h

/-- The second half of a call hands out redacted values only, exactly when the
redaction leaves a supplied error text as it is. -/
theorem finished_redacted_iff (rt : Runtime) (earlier : List GatewayEvent) (o : Orchestrator)
    (now : ℚ) (call : PendingCall) (outcome : UpstreamOutcome) :
    HandedOutRedacted rt earlier
      (.finished now call o outcome (finishCall rt o now call (clientAnswer rt outcome))) ↔
    ErrorTextUnchanged rt
      (.finished now call o outcome (finishCall rt o now call (clientAnswer rt outcome))) := by
  constructor
  · intro h text ht
    obtain ⟨hsource,code,hanswer⟩ := clientAnswer_error ht
    refine h _ hsource _ (.upstreamMessage text ?_)
    rw [hanswer]
    rfl
  · intro h source hs v hv
    rcases supplied_cases hs with hanswer | ⟨text,hsource,ht⟩
    · rw [hanswer] at hv
      exact handsOut_answered hv
    · obtain ⟨-,code,hanswer⟩ := clientAnswer_error ht
      rw [hanswer] at hv
      rw [hsource,handsOut_failed hv]
      exact h text ht

/-- A result returned from the cache of an explained gateway is the redaction
of what an earlier call was supplied with. -/
theorem started_redacted {rt : Runtime} {g : Gateway} {h : List GatewayEvent}
    (he : Explained rt g h) (request : CallRequest) :
    HandedOutRedacted rt h (.started g.clock request g.orchestrator
      (startCall rt g.orchestrator g.clock request)) := by
  intro result hr
  obtain ⟨f,sent,reqRedacted,cache,-,-,-,-,-,answered,call,o,outcome,report,value,flag,hfin,-,-,-,
    hanswer,hred,-,-⟩ := served_of_explained he hr
  exact ⟨answered,call,o,outcome,report,value,hfin,(clientAnswer_content hanswer).1,flag,hred⟩

/-- Every event of a run hands out redacted values only, exactly when it is
supplied with no error text that the redaction changes. -/
theorem event_redacted_iff {rt : Runtime} {cfg : GatewayConfig} {cbPolicy : CircuitBreakerPolicy}
    {now : ℚ} {g : Gateway} (hb : boot rt cfg cbPolicy now=.ok g) (actions : List GatewayAction)
    {earlier later : List GatewayEvent} {e : GatewayEvent}
    (hsplit : (run (step rt) g actions).2=earlier++e::later) :
    HandedOutRedacted rt earlier e ↔ ErrorTextUnchanged rt e := by
  have hemit : ∀ g h a e, Explained rt g h→(step rt g a).2=some e→
      (HandedOutRedacted rt h e ↔ ErrorTextUnchanged rt e) := by
    intro g h a e he ho
    cases a with
    | callStart request =>
      cases ho
      have hredacted := started_redacted he request
      exact ⟨fun _ => trivial,fun _ => hredacted⟩
    | callFinish index outcome =>
      simp only [GatewayRuns.step] at ho
      split at ho
      · cases ho
      · cases ho
        exact finished_redacted_iff rt h _ _ _ _
    | registry action => cases ho
    | reload cfg => cases ho
    | installWebhooks => cases ho
    | manifest tag => cases ho
    | tick elapsed => cases ho
  have hiff := run_event (J:=Explained rt)
    (Q:=fun h e => HandedOutRedacted rt h e ↔ ErrorTextUnchanged rt e)
    (explained_step rt) hemit (explained_boot hb) actions hsplit
  rwa [List.nil_append] at hiff

/-- A run that hands out redacted values only is supplied with no error text
that the redaction changes. -/
theorem unchanged_of_all_redacted {rt : Runtime} {cfg : GatewayConfig}
    {cbPolicy : CircuitBreakerPolicy} {now : ℚ} {g : Gateway}
    (hb : boot rt cfg cbPolicy now=.ok g) {actions : List GatewayAction}
    (h : AllRedacted rt (run (step rt) g actions).2) :
    ∀ e∈(run (step rt) g actions).2, ErrorTextUnchanged rt e := by
  intro e he
  obtain ⟨earlier,later,hsplit⟩ := List.append_of_mem he
  have hredacted := h earlier e later hsplit
  exact (event_redacted_iff hb actions hsplit).mp hredacted

/-- In every run, everything handed out of upstream outcomes is redacted,
exactly when every error text supplied in the run is one that the response
redaction leaves as it is. -/
theorem all_redacted_iff (rt : Runtime) (cfg : GatewayConfig) (cbPolicy : CircuitBreakerPolicy)
    (now : ℚ) (g : Gateway) (hb : boot rt cfg cbPolicy now=.ok g) (actions : List GatewayAction) :
    AllRedacted rt (run (step rt) g actions).2 ↔
      ∀ e∈(run (step rt) g actions).2, ErrorTextUnchanged rt e := by
  constructor
  · exact unchanged_of_all_redacted hb
  · intro h earlier e later hsplit
    have hmem : e∈(run (step rt) g actions).2 := by
      rw [hsplit]
      exact List.mem_append_right _ List.mem_cons_self
    have hunchanged := h e hmem
    exact (event_redacted_iff hb actions hsplit).mpr hunchanged

/-- Being the redaction of a value can be computed. -/
instance (rt : Runtime) (r : Redactor) (source v : Json) : Decidable (RedactionOf rt r source v) :=
  decidable_of_iff ((r.redact rt .response source).toOption.map Prod.fst=some v) (by
    unfold RedactionOf
    cases r.redact rt .response source with
    | error text => simp [Except.toOption]
    | ok pair =>
      obtain ⟨clean,flag⟩ := pair
      simp [Except.toOption])

/-- So can the condition on an event. -/
instance (rt : Runtime) : (e : GatewayEvent)→Decidable (ErrorTextUnchanged rt e)
  | .started _ _ _ _ => .isTrue trivial
  | .finished _ _ o outcome _ =>
    match h : suppliedError rt outcome with
    | none => .isTrue (fun _ ht => (by rw [h] at ht; cases ht))
    | some text =>
      decidable_of_iff (RedactionOf rt o.redactor (.str text) (.str text)) (by
        simp only [ErrorTextUnchanged,h,Option.some.injEq]
        exact ⟨fun hr _ ht => ht ▸ hr,fun hr => hr text rfl⟩)

/-- A call whose upstream ends it with a given outcome. -/
def answeredRun (outcome : UpstreamOutcome) : List GatewayAction :=
  [.registry (.register {id := "a"}),.callStart (serverRequest "a"),.callFinish 0 outcome]

/-- Messages raised by second halves, in order. -/
def raisedMessages (events : List GatewayEvent) : List String :=
  events.filterMap (fun e => match e with
    | .finished _ _ _ _ ⟨_,_,.raised error⟩ => some error.message
    | _ => none)

theorem all_redacted_timeout :
    AllRedacted asciiRuntime
      (run (step asciiRuntime) cachingGateway (answeredRun (.failed "timed out"))).2 :=
  (all_redacted_iff asciiRuntime cachingConfig {} 0 cachingGateway rfl
    (answeredRun (.failed "timed out"))).mpr (by decide +kernel)

/-- An error text with a social security number is raised as it is, though
the response redaction is enabled. -/
theorem error_text_not_redacted :
    redacts cachingGateway.orchestrator.redactor.policy .response=true ∧
    raisedMessages (run (step asciiRuntime) cachingGateway
      (answeredRun (.failed "SSN 123-45-6789"))).2=["upstream error: SSN 123-45-6789"] ∧
    ¬AllRedacted asciiRuntime (run (step asciiRuntime) cachingGateway
      (answeredRun (.failed "SSN 123-45-6789"))).2 := by
  refine ⟨rfl,by decide +kernel,?_⟩
  intro h
  have hboot : boot asciiRuntime cachingConfig {} 0=.ok cachingGateway := rfl
  have hunchanged := unchanged_of_all_redacted hboot h
  have hchanged : ¬∀ e∈(run (step asciiRuntime) cachingGateway
      (answeredRun (.failed "SSN 123-45-6789"))).2, ErrorTextUnchanged asciiRuntime e := by
    decide +kernel
  exact hchanged hunchanged

end McpGateway.ResponseRedaction
