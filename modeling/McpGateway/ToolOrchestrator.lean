import Mathlib
import McpGateway.PyText
import McpGateway.PyDict
import McpGateway.PyNumber
import McpGateway.JsonValue
import McpGateway.GatewaySettings
import McpGateway.ToolNaming
import McpGateway.ServerRegistry
import McpGateway.ToolRouting
import McpGateway.ToolAuthorizer
import McpGateway.RateLimiting
import McpGateway.PyRuntime
import McpGateway.PiiRedactor
import McpGateway.Guardrails
import McpGateway.SchemaValidation
import McpGateway.ResultCache
import McpGateway.UpstreamContent

/-!
# The tool call pipeline

A call runs without suspension from routing to the request it sends upstream,
and again from the answer to its end; whatever else the process does happens
between the two halves. The first half is a chain of gates, each of which may
end the call; the second half redacts, stores and reports the answer with the
components that are installed by then.
-/

namespace McpGateway.ToolOrchestrator

open PyText PyDict PyNumber JsonValue GatewaySettings ToolNaming ServerRegistry ToolRouting
open ToolAuthorizer RateLimiting PyRuntime PiiRedactor Guardrails SchemaValidation ResultCache
open UpstreamContent

/-- The aggregated tool list. -/
structure ToolManifest where
  /-- Tools of the listed servers. -/
  tools : List ToolDefinition
  /-- Number of listed servers. -/
  serverCount : ℕ

/-- The orchestrator with the components that a call reads. -/
structure Orchestrator where
  /-- Registered servers. -/
  registry : Registry
  /-- Policy of the authorizer. -/
  authorizer : AuthPolicy
  /-- Redactor of both directions. -/
  redactor : Redactor
  /-- Guardrail filter. -/
  safety : SafetyFilter
  /-- Optional rate limiter. -/
  rateLimiter : Option RateLimiter := none
  /-- Whether an audit store is attached. -/
  audit : Bool := false
  /-- Optional schema validator. -/
  schemaValidator : Option ToolSchemaValidator := none
  /-- Optional cache. -/
  cache : Option (ToolCache ToolManifest) := none
  /-- Whether a webhook dispatcher is attached. -/
  webhookDispatcher : Bool := false

/-- The manifest recomputed from the registry. An empty tag filters nothing. -/
def computeManifest (reg : Registry) (tag : Option String) : ToolManifest :=
  let listed := reg.entries.values.filter (fun e => e.server.enabled && e.healthy &&
    (!present tag || decide (orText tag ""∈e.server.tags)))
  ⟨listed.flatMap RegistryEntry.tools,listed.length⟩

/-- `build_manifest`. Only the manifest without a tag is cached. -/
def buildManifest (o : Orchestrator) (now : ℚ) (tag : Option String) :
    Orchestrator×ToolManifest :=
  match tag,o.cache with
  | none,some cache =>
    let found := cache.getManifest now
    match found.2 with
    | some manifest => ({o with cache := some found.1},manifest)
    | none =>
      let manifest := computeManifest o.registry none
      ({o with cache := some (found.1.setManifest manifest now)},manifest)
  | _,_ => (o,computeManifest o.registry tag)

/-- The arguments of `call_tool` with the request id of its context. -/
structure CallRequest where
  /-- Identified caller. -/
  principal : AgentPrincipal
  /-- Requested tool name. -/
  name : String
  /-- Argument object. -/
  arguments : Json
  /-- Optional explicit server. -/
  serverId : Option String := none
  /-- Request id of the context. -/
  requestId : Option String := none

/-- A returned tool result. -/
structure ToolCallResult where
  /-- Server that answered. -/
  serverId : String
  /-- Raw tool name. -/
  tool : String
  /-- Content handed to the caller. -/
  content : Json
  /-- Whether the tool reported an error. -/
  isError : Bool
  /-- Milliseconds. -/
  latencyMs : ℚ
  /-- Whether anything was redacted. -/
  redacted : Bool
  /-- Whether the content comes from the cache. -/
  cached : Bool

/-- One audit record. -/
structure AuditRecord where
  /-- Request id, or `unknown`. -/
  requestId : String
  /-- Calling agent. -/
  agentId : String
  /-- Resolved server. -/
  serverId : String
  /-- Raw tool name. -/
  toolName : String
  /-- Qualified tool name. -/
  qualifiedName : String
  /-- Whether the tool is mutable. -/
  mutable : Bool
  /-- Arguments as they were received. -/
  arguments : Json
  /-- Final status. -/
  status : String := "ok"
  /-- Whether the call failed. -/
  isError : Bool := false
  /-- Text of the failure. -/
  errorDetail : Option String := none
  /-- Milliseconds. -/
  latencyMs : ℚ := 0
  /-- Whether a guardrail blocked it. -/
  guardrailBlocked : Bool := false
  /-- Whether authorization refused it. -/
  authDenied : Bool := false
  /-- Whether it was rate limited. -/
  rateLimited : Bool := false
  /-- Whether anything was redacted. -/
  redacted : Bool := false

/-- What a call does to the world outside the orchestrator. -/
inductive Effect where
  /-- An increment of `TOOL_CALLS_TOTAL`. -/
  | toolCall (serverId tool status : String)
  /-- A record handed to the audit store. -/
  | audit (record : AuditRecord)
  /-- An event handed to the webhook dispatcher. -/
  | webhook (event : String) (payload : Json)
  /-- An invocation of a client. -/
  | upstream (client : ClientRef) (tool : String) (sent : Json) (agentId : String)
  /-- A result offered to the cache. -/
  | storeResult (qualified : String) (arguments content : Json)

/-- How a call ends. -/
inductive CallOutcome where
  /-- A result is returned. -/
  | returned (result : ToolCallResult)
  /-- `OrchestrationError`. -/
  | raised (error : OrchestrationError)
  /-- Any other exception, by its text. -/
  | crashed (text : String)
  /-- The calling task was cancelled. -/
  | cancelled

/-- The locals of a call once it is routed to an enabled server. -/
structure CallFrame where
  /-- Arguments of the call. -/
  request : CallRequest
  /-- Resolved entry. -/
  entry : RegistryEntry
  /-- Raw tool name. -/
  rawTool : String

/-- `f"{prefix}.{raw_tool}"`. -/
def CallFrame.qualified (f : CallFrame) : String :=
  f.entry.server.effectivePrefix++"."++f.rawTool

/-- Whether the server lists the raw name as mutable. -/
def CallFrame.mutable (f : CallFrame) : Bool := decide (f.rawTool∈f.entry.server.mutableTools)

/-- `_audit`, before any override. -/
def CallFrame.auditRecord (f : CallFrame) : AuditRecord where
  requestId := orText f.request.requestId "unknown"
  agentId := f.request.principal.agentId
  serverId := f.entry.server.id
  toolName := f.rawTool
  qualifiedName := f.qualified
  mutable := f.mutable
  arguments := f.request.arguments

/-- The increment of the call counter with a status. -/
def CallFrame.toolCall (f : CallFrame) (status : String) : Effect :=
  .toolCall f.entry.server.id f.rawTool status

/-- `_emit_audit`. -/
def emitAudit (o : Orchestrator) (record : AuditRecord) : List Effect :=
  if o.audit=true then [.audit record] else []

/-- A dispatched event: the common fields, then its own. -/
def dispatch (o : Orchestrator) (f : CallFrame) (event : String) (fields : List (String×Json)) :
    List Effect :=
  if o.webhookDispatcher=true then
    [.webhook event (.obj ([("agent_id",.str f.request.principal.agentId),
      ("server_id",.str f.entry.server.id),("tool",.str f.rawTool)]++fields))]
  else []

/-- Why a gate ends a call. -/
inductive Refusal where
  /-- Authorization denied. -/
  | authorization (error : AuthorizationError)
  /-- Rate limit exceeded. -/
  | rateLimit (scope : String)
  /-- A guardrail rule matched. -/
  | guardrail (violation : GuardrailViolation)
  /-- Arguments violate the schema. -/
  | schema (error : SchemaValidationError)
  /-- An exception that no handler of the pipeline catches. -/
  | crash (text : String)

/-- What the handler of a refusal reports. -/
def refusalEffects (o : Orchestrator) (f : CallFrame) : Refusal→List Effect
  | .authorization e =>
    f.toolCall "auth_denied"::emitAudit o {f.auditRecord with
      status := "auth_denied",isError := true,errorDetail := some e.message,authDenied := true}
  | .rateLimit scope =>
    f.toolCall "rate_limited"::emitAudit o {f.auditRecord with
      status := "rate_limited",isError := true,errorDetail := some (rateLimitMessage scope),
      rateLimited := true}
  | .guardrail v =>
    f.toolCall "guardrail_blocked"::emitAudit o {f.auditRecord with
      status := "guardrail_blocked",isError := true,errorDetail := some v.message,
      guardrailBlocked := true}++
    dispatch o f "guardrail_block" [("reason",.str v.message)]
  | .schema e =>
    f.toolCall "schema_invalid"::emitAudit o {f.auditRecord with
      status := "schema_invalid",isError := true,errorDetail := some e.message}++
    dispatch o f "schema_invalid" [("errors",.arr (e.fieldErrors.map (fun p =>
      .obj [("field",.str p.1),("error",.str p.2)])))]
  | .crash _ => []

/-- The exception a refused call ends with. -/
def refusalOutcome : Refusal→CallOutcome
  | .authorization e => .raised ⟨e.message,403⟩
  | .rateLimit scope => .raised ⟨rateLimitMessage scope,429⟩
  | .guardrail v => .raised ⟨v.message,422⟩
  | .schema e => .raised ⟨e.message,422⟩
  | .crash text => .crashed text

/-- Gate 2, on the limiter installed. -/
def rateGate (o : Orchestrator) (now : ℚ) (f : CallFrame) : Orchestrator×RateVerdict :=
  match o.rateLimiter with
  | none => (o,.granted)
  | some limiter =>
    let checked := limiter.check now f.request.principal.agentId f.qualified
    ({o with rateLimiter := some checked.1},checked.2)

/-- The schema of the first tool with the qualified or the raw name. -/
def inputSchema (f : CallFrame) : Option Json :=
  (f.entry.tools.find? (fun t => decide (t.name=f.qualified ∨ t.name=f.rawTool))).map
    ToolDefinition.inputSchema

/-- Gate 4, when a validator is installed. -/
def schemaGate (rt : Runtime) (o : Orchestrator) (f : CallFrame) : Except SchemaFailure Unit :=
  match o.schemaValidator with
  | none => .ok ()
  | some validator => validator.validate rt f.rawTool f.request.arguments (inputSchema f)

/-- Gates 3 to 5: guardrails and schema on the arguments as received, then
their redaction. -/
def contentGates (rt : Runtime) (o : Orchestrator) (f : CallFrame) :
    Except Refusal (Json×Bool) :=
  match o.safety.check rt f.rawTool f.request.arguments with
  | .error v => .error (.guardrail v)
  | .ok _ =>
    match schemaGate rt o f with
    | .error (.invalid e) => .error (.schema e)
    | .error (.crashed text) => .error (.crash text)
    | .ok _ =>
      match o.redactor.redact rt .request f.request.arguments with
      | .error text => .error (.crash text)
      | .ok redacted => .ok redacted

/-- All gates in order; only the rate limiter keeps a trace of a call. -/
def gates (rt : Runtime) (o : Orchestrator) (now : ℚ) (f : CallFrame) :
    Orchestrator×Except Refusal (Json×Bool) :=
  match authorizeToolCall o.authorizer f.request.principal f.rawTool f.qualified f.mutable with
  | .error e => (o,.error (.authorization e))
  | .ok _ =>
    let limited := rateGate o now f
    match limited.2 with
    | .exceeded scope _ => (limited.1,.error (.rateLimit scope))
    | .divisionByZero => (limited.1,.error (.crash "float division by zero"))
    | .granted => (limited.1,contentGates rt limited.1 f)

/-- A call whose request is on its way. -/
structure PendingCall where
  /-- Its locals. -/
  frame : CallFrame
  /-- Redacted arguments. -/
  sent : Json
  /-- Whether redaction changed them. -/
  reqRedacted : Bool
  /-- When the request was sent. -/
  started : ℚ

/-- State of a call at the end of its first half. -/
inductive CallProgress where
  /-- It ended. -/
  | ended (outcome : CallOutcome)
  /-- It waits for its upstream. -/
  | waiting (call : PendingCall)

/-- Everything one half of a call did. -/
structure CallReport (ρ : Type) where
  /-- Orchestrator afterwards. -/
  orchestrator : Orchestrator
  /-- Effects in order. -/
  effects : List Effect
  /-- How it ended. -/
  result : ρ

/-- Lookup in the cache, which mutable tools skip. -/
def lookupResult (rt : Runtime) (o : Orchestrator) (now : ℚ) (f : CallFrame) (sent : Json) :
    Orchestrator×Option Json :=
  match o.cache with
  | none => (o,none)
  | some cache =>
    if f.mutable=true then (o,none)
    else
      let found := cache.getResult rt f.qualified sent now
      ({o with cache := some found.1},found.2)

/-- `call_tool` up to the request. -/
def startCall (rt : Runtime) (o : Orchestrator) (now : ℚ) (request : CallRequest) :
    CallReport CallProgress :=
  match resolve o.registry request.name request.serverId with
  | .error e => ⟨o,[],.ended (.raised e)⟩
  | .ok (entry,rawTool) =>
    if entry.server.enabled=false then
      ⟨o,[],.ended (.raised ⟨"server '"++entry.server.id++"' is disabled",503⟩)⟩
    else
      let f : CallFrame := ⟨request,entry,rawTool⟩
      let gated := gates rt o now f
      match gated.2 with
      | .error refusal =>
        ⟨gated.1,refusalEffects gated.1 f refusal,.ended (refusalOutcome refusal)⟩
      | .ok (sent,reqRedacted) =>
        let looked := lookupResult rt gated.1 now f sent
        match looked.2 with
        | some content =>
          ⟨looked.1,[],.ended (.returned
            ⟨entry.server.id,rawTool,content,false,0,reqRedacted,true⟩)⟩
        | none =>
          ⟨looked.1,[.upstream entry.client rawTool sent request.principal.agentId],
            .waiting ⟨f,sent,reqRedacted,now⟩⟩

/-- `round(elapsed * 1000, 2)`. -/
def latency (call : PendingCall) (now : ℚ) : ℚ := roundTo 2 ((now-call.started)*1000)

/-- The handlers of a failed request: the counter, the audit record and the
event carry one status and one text. -/
def failureEffects (o : Orchestrator) (call : PendingCall) (now : ℚ) (status text : String) :
    List Effect :=
  call.frame.toolCall status::emitAudit o {call.frame.auditRecord with
    status := status,isError := true,errorDetail := some text,latencyMs := latency call now}++
  dispatch o call.frame "tool_call_error"
    [("error",.str text),("latency_ms",.float (.finite (latency call now)))]

/-- Storing of a result, which mutable tools skip. -/
def storeResult (rt : Runtime) (o : Orchestrator) (call : PendingCall) (now : ℚ) (clean : Json) :
    Orchestrator×List Effect :=
  match o.cache with
  | none => (o,[])
  | some cache =>
    if call.frame.mutable=true then (o,[])
    else
      ({o with cache := some (cache.setResult rt call.frame.qualified call.sent clean now)},
        [.storeResult call.frame.qualified call.sent clean])

/-- `call_tool` from the answer on, with the components installed by then. -/
def finishCall (rt : Runtime) (o : Orchestrator) (now : ℚ) (call : PendingCall) :
    UpstreamAnswer→CallReport CallOutcome
  | .upstreamError e =>
    ⟨o,failureEffects o call now "upstream_error" e.message,
      .raised ⟨"upstream error: "++e.message,502⟩⟩
  | .exception text => ⟨o,failureEffects o call now "error" text,.raised ⟨text,500⟩⟩
  | .cancelled => ⟨o,[],.cancelled⟩
  | .content value =>
    let counted := call.frame.toolCall "ok"
    match o.redactor.redact rt .response value with
    | .error text => ⟨o,[counted],.crashed text⟩
    | .ok (clean,respRedacted) =>
      let stored := storeResult rt o call now clean
      let redacted := call.reqRedacted || respRedacted
      ⟨stored.1,counted::stored.2++emitAudit o {call.frame.auditRecord with
          latencyMs := latency call now,redacted := redacted}++
        dispatch o call.frame "tool_call_ok"
          [("latency_ms",.float (.finite (latency call now)))],
        .returned ⟨call.frame.entry.server.id,call.frame.rawTool,clean,false,latency call now,
          redacted,false⟩⟩

/-- What happens between the halves of one call: the orchestrator as it is
found afterwards, the time and the answer. -/
abbrev Interlude := Orchestrator→Orchestrator×ℚ×UpstreamAnswer

/-- `call_tool` as a whole. -/
def callTool (rt : Runtime) (o : Orchestrator) (now : ℚ) (request : CallRequest)
    (interlude : Interlude) : CallReport CallOutcome :=
  let first := startCall rt o now request
  match first.result with
  | .ended outcome => ⟨first.orchestrator,first.effects,outcome⟩
  | .waiting call =>
    let found := interlude first.orchestrator
    let second := finishCall rt found.1 found.2.1 call found.2.2
    ⟨second.orchestrator,first.effects++second.effects,second.result⟩

end McpGateway.ToolOrchestrator
