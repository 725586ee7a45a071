import Mathlib
import McpGateway.PyText
import McpGateway.PyDict
import McpGateway.JsonValue
import McpGateway.GatewaySettings
import McpGateway.CircuitBreakers
import McpGateway.ToolNaming
import McpGateway.UpstreamContent
import McpGateway.AuthProviders

/-!
# The client of one upstream server

A client holds one session and the exit stack of its contexts. A session
sends on every request the headers its transport was opened with: those
resolved at the opening for server-sent events, and the own headers of the
shared HTTP client for streamable HTTP. The agent for whose call a session was
opened is recorded beside it.
-/

namespace McpGateway.McpClient

open PyText PyDict JsonValue GatewaySettings CircuitBreakers ToolNaming UpstreamContent
open AuthProviders

/-- An exception of one attempt. -/
inductive ClientException where
  /-- `UpstreamError`. -/
  | upstream (error : UpstreamError)
  /-- A transport error, connection error or timeout. -/
  | transport (text : String)
  /-- Any other exception. -/
  | other (text : String)

/-- `str` of an exception. -/
def ClientException.text : ClientException→String
  | .upstream error => error.message
  | .transport text => text
  | .other text => text

/-- Whether an attempt that raises is repeated. -/
def ClientException.retried : ClientException→Bool
  | .transport _ => true
  | _ => false

/-- Kind of an entered asynchronous context. -/
inductive ContextKind where
  /-- `sse_client` or `streamable_http_client`. -/
  | transport
  /-- `ClientSession`. -/
  | session
  deriving DecidableEq

/-- One entered context. -/
structure Context where
  /-- Its kind. -/
  kind : ContextKind
  /-- Object identity. -/
  uid : ℕ
  deriving DecidableEq

/-- A protocol session. -/
structure Session where
  /-- Agent for whose call it was opened. -/
  openedBy : Option String
  /-- Headers that it sends on every request. -/
  headers : Headers

/-- `MCPClient`. -/
structure MCPClient where
  /-- Settings at construction. -/
  server : UpstreamServer
  /-- Own headers of the shared HTTP client, when one is given. -/
  http : Option Headers := none
  /-- `_cb`. -/
  breaker : Option CircuitBreaker := none
  /-- `_auth_provider`. -/
  authProvider : Option AuthProvider := none
  /-- `_forward_agent_header`. -/
  forwardAgentHeader : Option String := none
  /-- `_session`. -/
  session : Option Session := none
  /-- `_stack`, by the contexts it would exit. -/
  stack : Option (List Context) := none

/-- What a client is asked to do. -/
inductive Operation where
  /-- `call_tool`. -/
  | callTool (name : String) (arguments : Json) (agentId : Option String)
  /-- `list_tools`. -/
  | listTools
  /-- `ping`. -/
  | ping
  /-- `close`. -/
  | close

/-- The agent that an operation passes to `_get_session`. -/
def Operation.agentId : Operation→Option String
  | .callTool _ _ agentId => agentId
  | _ => none

/-- How an operation ends. -/
inductive OperationResult where
  /-- Extracted content of a tool call. -/
  | content (value : Json)
  /-- Listed tools. -/
  | tools (list : List RawTool)
  /-- Answer of a ping. -/
  | pong (alive : Bool)
  /-- The client is closed. -/
  | closed
  /-- `UpstreamError`. -/
  | raised (error : UpstreamError)
  /-- The task was cancelled. -/
  | cancelled

namespace MCPClient

/-- The constructor. Structured authentication overrides the legacy pair, even
where it yields no provider. -/
def new (environ : Environ) (server : UpstreamServer) (http : Option Headers)
    (breaker : Option CircuitBreaker) : MCPClient :=
  match server.serverAuth with
  | some auth => {
      server := server
      http := http
      breaker := breaker
      authProvider := buildAuthProvider environ auth
      forwardAgentHeader := auth.forwardAgentIdHeader}
  | none => {
      server := server
      http := http
      breaker := breaker
      authProvider :=
        if present server.authHeader=true ∧ present server.authToken=true then
          some (.static (.new environ (orText server.authHeader "") (orText server.authToken "")))
        else none}

/-- Addition of the calling agent's id to the provider's headers. -/
def forward (c : MCPClient) (agentId : Option String) (headers : Headers) : Headers :=
  if present c.forwardAgentHeader=true ∧ present agentId=true then
    headers.set (orText c.forwardAgentHeader "") (orText agentId "")
  else headers

/-- The exception that `_resolve_headers` raises for one of the provider. -/
def providerError : ProviderException→ClientException
  | .auth message => .upstream ⟨"auth provider error: "++message,-32002⟩
  | .transport text => .transport text
  | .other text => .other text

/-- `_resolve_headers`. -/
def resolveHeaders (c : MCPClient) (w : World) (agentId : Option String) :
    MCPClient×Except ClientException Headers :=
  match c.authProvider with
  | none => (c,.ok (c.forward agentId Dict.empty))
  | some provider =>
    let obtained := provider.getHeaders w
    ({c with authProvider := some obtained.1},
      (obtained.2.mapError providerError).map (c.forward agentId))

/-- Headers that the transport of `_open_session` sends: `sse_client` is given
the resolved ones, `streamable_http_client` only the HTTP client. A library
default client has no headers of the gateway. -/
def transportHeaders (c : MCPClient) (resolved : Headers) : Headers :=
  match c.server.transport with
  | .sse => resolved
  | .http => c.http.getD Dict.empty
  | .streamableHttp => c.http.getD Dict.empty

/-- `_gate`. -/
def gate (c : MCPClient) (now : ℚ) : Except UpstreamError MCPClient :=
  match c.breaker with
  | none => .ok c
  | some breaker =>
    match breaker.beforeCall now with
    | .ok passed => .ok {c with breaker := some passed}
    | .error _ =>
      .error ⟨"circuit open for '"++c.server.id++"' — try again later",-32001⟩

/-- `_on_ok`. -/
def onOk (c : MCPClient) : MCPClient := {c with breaker := c.breaker.map CircuitBreaker.onSuccess}

/-- `_on_err`. -/
def onErr (c : MCPClient) (now : ℚ) : MCPClient :=
  {c with breaker := c.breaker.map (CircuitBreaker.onFailure · now)}

/-- What an operation never changes: the settings, the HTTP client and the
header of the provider. -/
structure SameSettings (c c' : MCPClient) : Prop where
  /-- The server settings. -/
  server : c'.server=c.server
  /-- The shared HTTP client. -/
  http : c'.http=c.http
  /-- The forwarding header. -/
  forwarded : c'.forwardAgentHeader=c.forwardAgentHeader
  /-- The provider's header. -/
  credential : c'.authProvider.map AuthProvider.header=c.authProvider.map AuthProvider.header

/-- Every client has its own settings. -/
theorem SameSettings.refl (c : MCPClient) : SameSettings c c := ⟨rfl,rfl,rfl,rfl⟩

/-- Settings are kept along several changes. -/
theorem SameSettings.trans {c c' c'' : MCPClient} (h : SameSettings c c')
    (h' : SameSettings c' c'') : SameSettings c c'' :=
  ⟨h'.server.trans h.server,h'.http.trans h.http,h'.forwarded.trans h.forwarded,
    h'.credential.trans h.credential⟩

/-- Equal settings send equal headers. -/
theorem SameSettings.transportHeaders {c c' : MCPClient} (h : SameSettings c c')
    (resolved : Headers) : c'.transportHeaders resolved=c.transportHeaders resolved := by
  unfold MCPClient.transportHeaders
  rw [h.server,h.http]

/-- Resolving headers keeps the settings. -/
theorem resolveHeaders_settings (c : MCPClient) (w : World) (agentId : Option String) :
    SameSettings c (c.resolveHeaders w agentId).1 := by
  unfold resolveHeaders
  cases hp : c.authProvider with
  | none => exact ⟨rfl,rfl,rfl,by rw [hp]⟩
  | some provider =>
    have hheader := (getHeaders_header provider w).1
    refine ⟨rfl,rfl,rfl,?_⟩
    rw [hp]
    exact congrArg some hheader

/-- The gate changes at most the breaker. -/
theorem gate_ok {c c' : MCPClient} {now : ℚ} (h : c.gate now=.ok c') :
    ∃ breaker, c'={c with breaker := breaker} := by
  unfold gate at h
  cases hb : c.breaker with
  | none =>
    rw [hb] at h
    exact ⟨none,by rw [←Except.ok.inj h,←hb]⟩
  | some breaker =>
    rw [hb] at h
    dsimp only at h
    split at h
    · exact ⟨_,(Except.ok.inj h).symm⟩
    · cases h

/-- Resolved headers are those of the provider, if there is one, with the
forwarded agent. -/
theorem resolveHeaders_forward {c : MCPClient} {w : World} {agentId : Option String}
    {headers : Headers} (h : (c.resolveHeaders w agentId).2=.ok headers) :
    ∃ own, headers=c.forward agentId own ∧ ∀ provider, c.authProvider=some provider→
      ∃ token, own=Dict.ofItems [(provider.header,token)] := by
  unfold resolveHeaders at h
  cases hp : c.authProvider with
  | none =>
    rw [hp] at h
    exact ⟨Dict.empty,(Except.ok.inj h).symm,fun _ hn => (by cases hn)⟩
  | some provider =>
    rw [hp] at h
    dsimp only at h
    cases ho : (provider.getHeaders w).2 with
    | error error =>
      rw [ho] at h
      cases h
    | ok own =>
      rw [ho] at h
      refine ⟨own,(Except.ok.inj h).symm,?_⟩
      intro other hother
      cases hother
      exact (getHeaders_header provider w).2 own ho

/-- Resolved headers have a value under the provider's header. -/
theorem resolveHeaders_credential {c : MCPClient} {w : World} {agentId : Option String}
    {headers : Headers} {provider : AuthProvider} (hp : c.authProvider=some provider)
    (h : (c.resolveHeaders w agentId).2=.ok headers) :
    ∃ token, headers.get? provider.header=some token := by
  obtain ⟨own,rfl,hown⟩ := resolveHeaders_forward h
  obtain ⟨token,rfl⟩ := hown provider hp
  have htoken : (Dict.ofItems [(provider.header,token)]).get? provider.header=some token :=
    Dict.get?_set_self _ _ _
  unfold forward
  split
  · rw [Dict.get?_set]
    split
    · exact ⟨_,rfl⟩
    · exact ⟨token,htoken⟩
  · exact ⟨token,htoken⟩

/-- Headers resolved for an agent carry its id under the forwarding header. -/
theorem resolveHeaders_agent {c : MCPClient} {w : World} {name agent : String}
    {headers : Headers} (hname : c.forwardAgentHeader=some name) (hn : name≠"") (ha : agent≠"")
    (h : (c.resolveHeaders w (some agent)).2=.ok headers) : headers.get? name=some agent := by
  obtain ⟨own,rfl,-⟩ := resolveHeaders_forward h
  have hforwarded : present c.forwardAgentHeader=true := by
    rw [hname]
    simp [present,orText,hn]
  have hagent : present (some agent)=true := by simp [present,orText,ha]
  unfold forward
  rw [if_pos ⟨hforwarded,hagent⟩,hname]
  simp only [orText,if_neg hn,if_neg ha]
  exact Dict.get?_set_self _ _ _

end MCPClient

end McpGateway.McpClient
