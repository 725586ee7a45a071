import Mathlib
import McpGateway.PyDict
import McpGateway.StepRun
import McpGateway.GatewaySettings
import McpGateway.CircuitBreakers
import McpGateway.PyRuntime
import McpGateway.UpstreamContent
import McpGateway.AuthProviders
import McpGateway.McpClient
import McpGateway.ClientRuns
import McpGateway.SessionOrigins

/-!
# Attribution of tool calls to agents

A session forwards the id of the agent for whose call it was opened, and is
then shared by all operations. A tool call is attributed to its own agent when
the session it was handed was opened for that agent over server-sent events;
streamable HTTP forwards no agent at all.
-/

namespace McpGateway.AgentAttribution

open PyDict StepRun GatewaySettings CircuitBreakers PyRuntime UpstreamContent AuthProviders
open McpClient ClientRuns SessionOrigins

/-- The header under which a server wants the agent's id. -/
def forwardHeader (server : UpstreamServer) : Option String :=
  server.serverAuth.bind ServerAuthConfig.forwardAgentIdHeader

/-- The tool call that an event sends for an agent, with its session. -/
def agentCall : ClientEvent→Option (String×Session)
  | .sent (.callTool _ _ (some agent)) session => some (agent,session)
  | _ => none

/-- A tool call for an agent travels on a session whose header of the
configured name is this agent's id, when the server sets one. -/
def Attributed (server : UpstreamServer) (e : ClientEvent) : Prop :=
  ∀ call∈agentCall e, ∀ name∈forwardHeader server, name≠""→
    call.2.headers.get? name=some call.1

instance (server : UpstreamServer) (e : ClientEvent) : Decidable (Attributed server e) :=
  inferInstanceAs (Decidable (∀ call∈agentCall e, ∀ name∈forwardHeader server,
    name≠""→call.2.headers.get? name=some call.1))

/-- A tool call for an agent is handed a session that was opened over
server-sent events for a call of the same agent. -/
def OwnSession (server : UpstreamServer) (e : ClientEvent) : Prop :=
  ∀ call∈agentCall e, server.transport=.sse ∧ call.1≠"" ∧ call.2.openedBy=some call.1

instance (server : UpstreamServer) (e : ClientEvent) : Decidable (OwnSession server e) :=
  inferInstanceAs (Decidable
    (∀ call∈agentCall e, server.transport=.sse ∧ call.1≠"" ∧ call.2.openedBy=some call.1))

/-- A tool call for an agent is a request sent on its session. -/
theorem agentCall_sent {e : ClientEvent} {agent : String} {session : Session}
    (h : (agent,session)∈agentCall e) : ∃ operation, e=.sent operation session := by
  unfold agentCall at h
  split at h
  · cases h
    exact ⟨_,rfl⟩
  · cases h

/-- A new client has no session and the settings of its server. -/
theorem new_settings (environ : Environ) (server : UpstreamServer) (http : Option Headers)
    (breaker : Option CircuitBreaker) :
    (MCPClient.new environ server http breaker).session=none ∧
    (MCPClient.new environ server http breaker).server=server ∧
    (MCPClient.new environ server http breaker).http=http ∧
    (MCPClient.new environ server http breaker).forwardAgentHeader=forwardHeader server := by
  unfold MCPClient.new forwardHeader
  cases server.serverAuth <;> exact ⟨rfl,rfl,rfl,rfl⟩

/-- A request on a session that was opened for its agent over server-sent
events is attributed. -/
theorem attributed_of_sound {environ : Environ} {server : UpstreamServer} {http : Option Headers}
    {breaker : Option CircuitBreaker} {events : List ClientEvent} {e : ClientEvent}
    (hsound : ∀ e∈events, ∃ earlier, earlier⊆events ∧
      Sound (MCPClient.new environ server http breaker) earlier e)
    (he : e∈events) (hown : OwnSession server e) : Attributed server e := by
  obtain ⟨-,hserver,-,hforward⟩ := new_settings environ server http breaker
  obtain ⟨earlier,hsub,hthis⟩ := hsound e he
  rintro ⟨agent,session⟩ hcall name hname hn
  obtain ⟨hsse,hagent,hopener⟩ := hown _ hcall
  obtain ⟨operation,rfl⟩ := agentCall_sent hcall
  obtain ⟨before,world,hopening⟩ := hthis.sent operation session rfl
  obtain ⟨_,_,hprior⟩ := hsound _ (hsub hopening)
  obtain ⟨hsettings,headers,hheaders,hgiven⟩ := hprior.opening _ _ _ _ rfl
  have hresolved : session.headers=headers := by
    rw [hgiven]
    unfold MCPClient.transportHeaders
    rw [hserver,hsse]
  have hheader : before.forwardAgentHeader=some name := by
    rw [hsettings.forwarded,hforward]
    exact hname
  rw [hopener] at hheaders
  have hget := MCPClient.resolveHeaders_agent hheader hn hagent hheaders
  rwa [←hresolved] at hget

/-- In every run of a client whose tool calls are handed sessions opened for
their own agents over server-sent events, every tool call travels on a session
that forwards its own agent's id. -/
theorem agent_attributed (rt : Runtime) (environ : Environ) (server : UpstreamServer)
    (http : Option Headers) (breaker : Option CircuitBreaker) (now : ℚ)
    (actions : List ClientAction)
    (h : ∀ e∈(run (step rt) {clock := now,client := .new environ server http breaker} actions).2,
      OwnSession server e) :
    ∀ e∈(run (step rt) {clock := now,client := .new environ server http breaker} actions).2,
      Attributed server e := by
  have hfresh := (new_settings environ server http breaker).1
  intro e he
  have hown := h e he
  exact attributed_of_sound (fun _ hm => run_sound_mem hfresh actions hm) he hown

/-- A server that wants the agent's id and a static token. -/
def forwardingServer (transport : Transport) : UpstreamServer where
  id := "a"
  transport := transport
  serverAuth := some {
    header := some "Authorization"
    token := some "Bearer s"
    forwardAgentIdHeader := some "X-Agent"}

/-- An environment without variables and an endpoint without tokens. -/
def plainWorld : World := ⟨fun _ => none,0,fun _ _ => .body none none,0⟩

/-- Its new client. -/
def forwardingRun (transport : Transport) : ClientRun where
  clock := 0
  client := .new (fun _ => none) (forwardingServer transport) none none

/-- The first call opens a session and is answered, the second call uses it. -/
def twoCalls (first second : String) : List ClientAction :=
  [.start (.callTool "t" (.obj []) (some first)),.grant 0,.resolve 0 plainWorld,
    .progress 0 (.ok ()),.progress 0 (.ok ()),.progress 0 (.ok ()),
    .respond 0 (.result ⟨[.text "A"],false⟩),
    .start (.callTool "t" (.obj []) (some second)),.grant 0]

/-- Agents of the tool calls sent, with the headers of their sessions. -/
def sentAgents (events : List ClientEvent) : List (String×List (String×String)) :=
  (events.filterMap agentCall).map (fun call => (call.1,call.2.headers.items))

theorem agent_attributed_same_agent :
    sentAgents (run (step asciiRuntime) (forwardingRun .sse) (twoCalls "x" "x")).2=
      [("x",[("Authorization","Bearer s"),("X-Agent","x")]),
        ("x",[("Authorization","Bearer s"),("X-Agent","x")])] ∧
    ∀ e∈(run (step asciiRuntime) (forwardingRun .sse) (twoCalls "x" "x")).2,
      Attributed (forwardingServer .sse) e :=
  ⟨by decide +kernel,agent_attributed asciiRuntime (fun _ => none) (forwardingServer .sse) none
    none 0 (twoCalls "x" "x") (by decide +kernel)⟩

/-- The second call travels on the session of the first, so it is attributed
to another agent; over streamable HTTP no call is attributed to anybody. -/
theorem second_agent_misattributed :
    sentAgents (run (step asciiRuntime) (forwardingRun .sse) (twoCalls "x" "y")).2=
      [("x",[("Authorization","Bearer s"),("X-Agent","x")]),
        ("y",[("Authorization","Bearer s"),("X-Agent","x")])] ∧
    (¬∀ e∈(run (step asciiRuntime) (forwardingRun .sse) (twoCalls "x" "y")).2,
      Attributed (forwardingServer .sse) e) ∧
    ¬∀ e∈(run (step asciiRuntime) (forwardingRun .streamableHttp) (twoCalls "x" "x")).2,
      Attributed (forwardingServer .streamableHttp) e := by
  refine ⟨by decide +kernel,by decide +kernel,by decide +kernel⟩

end McpGateway.AgentAttribution
