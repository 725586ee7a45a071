import Mathlib
import McpGateway.PyDict
import McpGateway.PyText
import McpGateway.StepRun
import McpGateway.JsonValue
import McpGateway.GatewaySettings
import McpGateway.ToolNaming
import McpGateway.ServerRegistry
import McpGateway.RegistryRuns
import McpGateway.ToolAuthorizer
import McpGateway.PyRuntime
import McpGateway.Guardrails
import McpGateway.ResultCache
import McpGateway.UpstreamContent
import McpGateway.ToolOrchestrator
import McpGateway.CallMediation
import McpGateway.GatewayRuns
import McpGateway.ConfigReload
import McpGateway.ConcurrentReloads
import McpGateway.JwksCache
import McpGateway.TokenValidation

/-!
# Requests to the HTTP interface

A request is checked for the API key, a tool call is then identified by the
authorizer it is handed, and its endpoint runs last; each of these may wait
while other requests, upstreams and reloads go on. An authorizer keeps its
token validator, and the validations of all its requests share the key cache
of that one; a reload builds another.
-/

namespace McpGateway.ApiRuns

open PyDict PyText StepRun JsonValue GatewaySettings ToolNaming ServerRegistry RegistryRuns
open ToolAuthorizer PyRuntime Guardrails ResultCache UpstreamContent ToolOrchestrator CallMediation
open GatewayRuns ConfigReload ConcurrentReloads JwksCache TokenValidation

/-- Settings of the interface. -/
structure Settings where
  /-- Required key, if any. -/
  apiKey : Option String := none
  /-- Header of the key. -/
  apiKeyHeader : String := "X-API-Key"
  /-- Alternative header of the agent id. -/
  agentIdHeader : String := "X-Agent-Id"

/-- `ToolCallRequest`. -/
structure ToolCallRequest where
  /-- Requested tool name. -/
  name : String
  /-- Argument object. -/
  arguments : Json
  /-- Optional explicit server. -/
  serverId : Option String := none

/-- What a request asks for. -/
inductive Endpoint where
  /-- `GET /healthz`. -/
  | healthz
  /-- `GET /metrics`. -/
  | metrics
  /-- `GET /openapi.json`, a route of the application itself. -/
  | openapi
  /-- `GET /docs`, likewise. -/
  | docs
  /-- `GET /docs/oauth2-redirect`, likewise. -/
  | docsOauth2Redirect
  /-- `GET /redoc`, likewise. -/
  | redoc
  /-- `GET /v1/registry/servers`. -/
  | listServers
  /-- `GET /v1/registry/circuit-breakers`. -/
  | circuitBreakerStates
  /-- `GET /v1/registry/conflicts`. -/
  | toolNameConflicts
  /-- `GET /v1/audit`. -/
  | queryAudit
  /-- `POST /v1/registry/servers`. -/
  | registerServer (server : UpstreamServer)
  /-- `DELETE /v1/registry/servers/{server_id}`. -/
  | deregisterServer (serverId : String)
  /-- `POST /v1/registry/servers/{server_id}/sync`. -/
  | syncServer (serverId : String)
  /-- `POST /v1/registry/servers/{server_id}/enabled`. -/
  | setEnabled (serverId : String) (enabled : Bool)
  /-- `GET /v1/tools`. -/
  | listTools (tag : Option String)
  /-- `POST /v1/tools/call` and `POST /v1/tools/call/stream`. -/
  | callTool (payload : ToolCallRequest)
  /-- `POST /v1/admin/reload`. -/
  | hotReload

/-- The routes outside the router with the key. -/
def Endpoint.isPublic : Endpoint→Bool
  | .healthz => true
  | .metrics => true
  | .openapi => true
  | .docs => true
  | .docsOauth2Redirect => true
  | .redoc => true
  | _ => false

/-- A well-formed request, its header names in lower case as the server
receives them. -/
structure HttpRequest where
  /-- Headers in order. -/
  headers : List (String×String) := []
  /-- Route and parameters. -/
  endpoint : Endpoint

/-- `request.headers.get(name)`. -/
def HttpRequest.header (rt : Runtime) (request : HttpRequest) (name : String) : Option String :=
  (request.headers.find? (fun h => h.1==rt.lower name)).map Prod.snd

/-- The white space of a header value. -/
def isBlank (c : Char) : Bool :=
  decide (9≤c.toNat ∧ c.toNat≤13) || decide (28≤c.toNat ∧ c.toNat≤32) || c.toNat==133 ||
    c.toNat==160

/-- `str.strip` of a header value. -/
def stripBlanks (text : String) : String :=
  String.ofList (((text.toList.dropWhile isBlank).reverse.dropWhile isBlank).reverse)

/-- `require_api_key`. -/
def Settings.keyAccepted (rt : Runtime) (settings : Settings) (request : HttpRequest) : Bool :=
  match settings.apiKey with
  | none => true
  | some key => decide (request.header rt settings.apiKeyHeader=some key)

/-- The bearer token of `get_principal`. -/
def HttpRequest.bearerToken (rt : Runtime) (request : HttpRequest) : Option String :=
  match request.header rt "Authorization" with
  | none => none
  | some authorization =>
    if startswith (rt.lower authorization) "bearer "=true then
      some (stripBlanks (dropChars authorization 7))
    else none

/-- The agent id of `get_principal`. -/
def Settings.agentId (rt : Runtime) (settings : Settings) (request : HttpRequest) :
    Option String :=
  if present (request.header rt "X-Agent-Id")=true then request.header rt "X-Agent-Id"
  else request.header rt settings.agentIdHeader

/-- The request id that the middleware sets, given a new one. -/
def HttpRequest.requestId (rt : Runtime) (request : HttpRequest) (fresh : String) : String :=
  orText (request.header rt "X-Request-Id") fresh

/-- A token validator of the process. -/
structure SharedValidator where
  /-- Its configuration. -/
  cfg : OIDCConfig
  /-- Its keys and the validations that wait for them. -/
  run : ValidatorRun
  /-- The requests of these validations, in the same order. -/
  callers : List ℕ := []
  /-- Validations that ended. -/
  ended : List Validation := []

/-- The validator of a new authorizer. -/
def SharedValidator.new (cfg : OIDCConfig) (now : ℚ) : SharedValidator :=
  {cfg := cfg,run := built cfg now}

/-- A validator by its number among all that were built. -/
structure ValidatorRef where
  /-- The number. -/
  number : ℕ
  /-- The configuration. -/
  cfg : OIDCConfig

/-- An authorizer: its policy and its token validator. -/
structure Authorizer where
  /-- Policy. -/
  policy : AuthPolicy
  /-- Token validator, when it is enabled. -/
  oidc : Option ValidatorRef := none

/-- The validator that `identify` awaits. -/
def Authorizer.asks (authorizer : Authorizer) (bearer : Option String) : Option ValidatorRef :=
  if authorizer.policy.enabled=true ∧ present bearer=true then authorizer.oidc else none

/-- The validator's answer as `identify` receives it. -/
def validated (rt : Runtime) (cfg : OIDCConfig) : TokenOutcome Json→Except String String
  | .accepted payload => extractAgentId rt cfg payload
  | .rejected text => .error text
  | .crashed text => .error text

/-- `get_principal` behind the validation, if there is one: the principal, or
the status and detail of the response. -/
def Authorizer.principal (rt : Runtime) (authorizer : Authorizer) (header bearer : Option String) :
    Option Validation→Except (ℕ×String) AgentPrincipal
  | some ⟨_,_,_,.crashed _⟩ => .error (500,"Internal Server Error")
  | some validation => (identify authorizer.policy
      (authorizer.oidc.map (fun ref _ => validated rt ref.cfg validation.outcome)) header
        bearer).mapError (fun e => (401,e.message))
  | none => (identify authorizer.policy none header bearer).mapError (fun e => (401,e.message))

/-- How far an admitted request has come. -/
inductive Stage where
  /-- The key was accepted. -/
  | keyed
  /-- The authorizer was taken from the application. -/
  | bound (authorizer : Authorizer)
  /-- Its validator fetches keys. -/
  | validating (authorizer : Authorizer)
  /-- The agent was identified. -/
  | identified (principal : AgentPrincipal)

/-- A request whose endpoint has not run. -/
structure Entering where
  /-- The request. -/
  request : HttpRequest
  /-- Its id in the log. -/
  requestId : String
  /-- How far it has come. -/
  stage : Stage

/-- A configuration file that loads. -/
structure ConfigFile extends LoadedConfig where
  /-- Token validation, when it is enabled. -/
  oidc : Option OIDCConfig := none

/-- A running reload, with the token validation of its configuration. -/
structure RunningReload where
  /-- Its steps. -/
  task : ReloadTask
  /-- Configuration of the validator that it builds. -/
  oidc : Option OIDCConfig

/-- The process behind the interface. -/
structure Server where
  /-- What the process keeps. -/
  app : AppState
  /-- Validator of the orchestrator's authorizer. -/
  swappedOidc : Option ValidatorRef
  /-- Validator of the application's authorizer. -/
  oidc : Option ValidatorRef
  /-- The monotonic clock. -/
  clock : ℚ
  /-- Every validator that was built. -/
  validators : List SharedValidator := []
  /-- Synchronizations in flight. -/
  syncs : List (String×ℕ) := []
  /-- Calls whose upstream has not answered. -/
  calls : List PendingCall := []
  /-- Reloads in progress. -/
  reloads : List RunningReload := []
  /-- Requests whose endpoint has not run. -/
  entering : ℕ→Option Entering := fun _ => none

/-- The application's authorizer. -/
def Server.authorizer (s : Server) : Authorizer := ⟨s.app.authorizer,s.oidc⟩

/-- The orchestrator's authorizer. -/
def Server.swapped (s : Server) : Authorizer := ⟨s.app.orchestrator.authorizer,s.swappedOidc⟩

/-- The validators after an authorizer was built, and its own one. -/
def build (validators : List SharedValidator) (now : ℚ) :
    Option OIDCConfig→Option ValidatorRef×List SharedValidator
  | none => (none,validators)
  | some cfg => (some ⟨validators.length,cfg⟩,validators++[.new cfg now])

/-- The process of a configuration that has started. -/
def Server.start (app : AppState) (oidc : Option OIDCConfig) (now : ℚ) : Server where
  app := app
  swappedOidc := (build [] now oidc).1
  oidc := (build [] now oidc).1
  clock := now
  validators := (build [] now oidc).2

/-- The gateway of the process. -/
def Server.gateway (s : Server) : Gateway := ⟨s.clock,s.app.orchestrator,s.syncs,s.calls⟩

/-- The process with another gateway. -/
def Server.withGateway (s : Server) (g : Gateway) : Server :=
  {s with
    app := {s.app with orchestrator := g.orchestrator}
    clock := g.clock
    syncs := g.syncs
    calls := g.pending}

/-- The process with another progress of one request. -/
def Server.enter (s : Server) (id : ℕ) (entry : Option Entering) : Server :=
  {s with entering := Function.update s.entering id entry}

/-- How many requests of this number have not run their endpoint. -/
def Server.waiting (s : Server) (id : ℕ) : ℕ := (s.entering id).elim 0 (fun _ => 1)

/-- The process with one validator as it is now. -/
def Server.withValidator (s : Server) (number : ℕ) (validator : SharedValidator) : Server :=
  {s with validators := s.validators.set number validator}

/-- What happens next. -/
inductive ServerAction where
  /-- A request arrives. -/
  | arrive (id : ℕ) (request : HttpRequest) (fresh : String)
  /-- A tool call takes the authorizer. -/
  | bind (id : ℕ)
  /-- The identification of a tool call begins, and ends unless keys are fetched. -/
  | identify (id : ℕ)
  /-- A fetch of a validator ends, and with it the identification it belongs to. -/
  | fetched (number index : ℕ) (download : Except String Json)
  /-- The endpoint of a request runs. -/
  | handle (id : ℕ)
  /-- A reload that was asked for loads the configuration. -/
  | load (id : ℕ) (file : ConfigFile) (world : ReloadWorld)
  /-- A signal does. -/
  | signal (file : ConfigFile) (world : ReloadWorld)
  /-- A reload takes its next step. -/
  | reload (index : ℕ)
  /-- The health sweep reaches a server. -/
  | sweep (serverId : String)
  /-- A synchronization is answered. -/
  | synced (index : ℕ) (answer : Except String (List RawTool))
  /-- A call is answered. -/
  | answered (index : ℕ) (outcome : UpstreamOutcome)
  /-- Time passes. -/
  | tick (elapsed : ℚ≥0)

/-- What an observer of the interface sees. -/
inductive ServerEvent where
  /-- A refusal, with status and detail. -/
  | refused (id : ℕ) (request : HttpRequest) (status : ℕ) (detail : String)
  /-- The key was accepted. -/
  | keyed (id : ℕ) (request : HttpRequest)
  /-- The agent was identified, with a validation or without. -/
  | identified (id : ℕ) (request : HttpRequest) (authorizer : Authorizer)
      (validation : Option Validation) (principal : AgentPrincipal)
  /-- An endpoint other than a tool call ran, in this gateway. -/
  | served (id : ℕ) (request : HttpRequest) (before : Gateway)
  /-- A tool call began. -/
  | called (id : ℕ) (request : HttpRequest) (requestId : String) (event : Option GatewayEvent)
  /-- A tool call was answered. -/
  | settled (event : GatewayEvent)
  /-- A reload began. -/
  | loaded (id : Option ℕ) (file : ConfigFile)

section Steps

variable {κ : Type} (lib : TokenLibrary κ) (rt : Runtime) (settings : Settings)

/-- An action of the gateway inside the process. -/
def Server.perform (s : Server) (action : GatewayAction) : Server :=
  s.withGateway (GatewayRuns.step rt s.gateway action).1

/-- What an endpoint does to the gateway before it first waits. -/
def Endpoint.actions : Endpoint→List GatewayAction
  | .registerServer server =>
    [.registry (.register server),.registry (.syncStart server.id)]
  | .deregisterServer serverId => [.registry (.deregister serverId)]
  | .syncServer serverId => [.registry (.syncStart serverId)]
  | .setEnabled serverId enabled => [.registry (.setEnabled serverId enabled)]
  | .listTools tag => [.manifest tag]
  | _ => []

/-- `_do_reload` up to its first step. -/
def Server.beginReload (s : Server) (file : ConfigFile) (world : ReloadWorld) : Server :=
  let task : ReloadTask := ⟨program s.app.config file.toLoadedConfig world,none⟩
  {s with reloads := s.reloads++[⟨task,file.oidc⟩]}

/-- The guardrails of a swap do not compile, which ends its reload. -/
def failsAt : ReloadStep→Bool
  | .swapPolicies cfg => match SafetyFilter.new rt cfg.guardrails with
    | .error _ => true
    | .ok _ => false
  | _ => false

/-- One step of a running reload. The swap builds a validator, and the
authorizers travel with theirs. -/
def Server.advance (s : Server) (index : ℕ) (running : RunningReload) (next : ReloadStep)
    (rest : List ReloadStep) : Server :=
  let r := ConfigReload.step rt ⟨s.app,running.task.captured⟩ next
  let remaining := if failsAt rt next=true then [] else rest
  let own := if isSwap next=true then build s.validators s.clock running.oidc
    else (s.swappedOidc,s.validators)
  {s with
    app := r.app
    swappedOidc := own.1
    validators := own.2
    oidc := if isInstall next=true then s.swappedOidc else s.oidc
    reloads := s.reloads.set index ⟨⟨remaining,r.captured⟩,running.oidc⟩}

/-- A request arrives, unless its number is in use. -/
def Server.arrive (s : Server) (id : ℕ) (request : HttpRequest) (fresh : String) :
    Server×Option ServerEvent :=
  match s.entering id with
  | some _ => (s,none)
  | none =>
    if request.endpoint.isPublic=true then (s,some (.served id request s.gateway))
    else if settings.keyAccepted rt request=true then
      (s.enter id (some ⟨request,request.requestId rt fresh,.keyed⟩),some (.keyed id request))
    else (s,some (.refused id request 401 "invalid or missing API key"))

/-- The identification of a tool call ends. -/
def Server.conclude (s : Server) (id : ℕ) (entry : Entering) (authorizer : Authorizer)
    (validation : Option Validation) : Server×Option ServerEvent :=
  match authorizer.principal rt (settings.agentId rt entry.request)
      (entry.request.bearerToken rt) validation with
  | .error (status,detail) =>
    (s.enter id none,some (.refused id entry.request status detail))
  | .ok principal =>
    (s.enter id (some {entry with stage := .identified principal}),
      some (.identified id entry.request authorizer validation principal))

/-- The identification of a tool call begins: the authorizer presents the token
of the request to its validator, which ends the validation or fetches keys. -/
def Server.identify (s : Server) (id : ℕ) (entry : Entering) (authorizer : Authorizer) :
    Server×Option ServerEvent :=
  let bearer := entry.request.bearerToken rt
  match authorizer.asks bearer with
  | none => s.conclude rt settings id entry authorizer none
  | some ref =>
    match s.validators[ref.number]? with
    | none => (s,none)
    | some validator =>
      let r := TokenValidation.step lib validator.cfg validator.run
        (.present (orText bearer "") s.clock)
      match r.2 with
      | none =>
        let waiting := {validator with run := r.1,callers := validator.callers++[id]}
        ((s.withValidator ref.number waiting).enter id
          (some {entry with stage := .validating authorizer}),none)
      | some validation =>
        let told := {validator with run := r.1,ended := validator.ended++[validation]}
        (s.withValidator ref.number told).conclude rt settings id entry authorizer
          (some validation)

/-- A fetch of a validator ends. -/
def Server.fetched (s : Server) (number index : ℕ) (download : Except String Json) :
    Server×Option ServerEvent :=
  match s.validators[number]? with
  | none => (s,none)
  | some validator =>
    let r := TokenValidation.step lib validator.cfg validator.run
      (.settle index download s.clock)
    match r.2,validator.callers[index]? with
    | some validation,some id =>
      let told := {validator with
        run := r.1
        callers := validator.callers.eraseIdx index
        ended := validator.ended++[validation]}
      match s.entering id with
      | some ⟨request,requestId,.validating authorizer⟩ =>
        (s.withValidator number told).conclude rt settings id
          ⟨request,requestId,.validating authorizer⟩ authorizer (some validation)
      | _ => (s.withValidator number told,none)
    | _,_ => (s,none)

/-- The endpoint of an admitted request runs. A reload waits for its file. -/
def Server.handle (s : Server) (id : ℕ) (entry : Entering) : Server×Option ServerEvent :=
  match entry.request.endpoint,entry.stage with
  | .callTool payload,.identified principal =>
    let call : CallRequest :=
      ⟨principal,payload.name,payload.arguments,payload.serverId,some entry.requestId⟩
    let r := GatewayRuns.step rt s.gateway (.callStart call)
    ((s.enter id none).withGateway r.1,
      some (.called id entry.request entry.requestId r.2))
  | .callTool _,_ => (s,none)
  | .hotReload,_ => (s,none)
  | endpoint,.keyed =>
    (endpoint.actions.foldl (fun s a => s.perform rt a) (s.enter id none),
      some (.served id entry.request s.gateway))
  | _,_ => (s,none)

/-- One action and the event it emits. -/
def step (s : Server) : ServerAction→Server×Option ServerEvent
  | .arrive id request fresh => s.arrive rt settings id request fresh
  | .bind id =>
    match s.entering id with
    | some ⟨⟨headers,.callTool payload⟩,requestId,.keyed⟩ =>
      (s.enter id (some ⟨⟨headers,.callTool payload⟩,requestId,.bound s.authorizer⟩),none)
    | _ => (s,none)
  | .identify id =>
    match s.entering id with
    | some ⟨request,requestId,.bound authorizer⟩ =>
      s.identify lib rt settings id ⟨request,requestId,.bound authorizer⟩ authorizer
    | _ => (s,none)
  | .fetched number index download => s.fetched lib rt settings number index download
  | .handle id =>
    match s.entering id with
    | some entry => s.handle rt id entry
    | none => (s,none)
  | .load id file world =>
    match s.entering id with
    | some ⟨⟨_,.hotReload⟩,_,.keyed⟩ =>
      ((s.enter id none).beginReload file world,some (.loaded (some id) file))
    | _ => (s,none)
  | .signal file world => (s.beginReload file world,some (.loaded none file))
  | .reload index =>
    match s.reloads[index]? with
    | some running =>
      match running.task.remaining with
      | next::rest => (s.advance rt index running next rest,none)
      | [] => (s,none)
    | none => (s,none)
  | .sweep serverId => (s.perform rt (.registry (.syncStart serverId)),none)
  | .synced index answer => (s.perform rt (.registry (.syncFinish index answer)),none)
  | .answered index outcome =>
    let r := GatewayRuns.step rt s.gateway (.callFinish index outcome)
    (s.withGateway r.1,r.2.map .settled)
  | .tick elapsed => (s.perform rt (.tick elapsed),none)

end Steps

end McpGateway.ApiRuns
