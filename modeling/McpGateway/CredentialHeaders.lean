import Mathlib
import McpGateway.PyText
import McpGateway.PyDict
import McpGateway.StepRun
import McpGateway.GatewaySettings
import McpGateway.CircuitBreakers
import McpGateway.PyRuntime
import McpGateway.UpstreamContent
import McpGateway.AuthProviders
import McpGateway.McpClient
import McpGateway.ClientRuns
import McpGateway.SessionOrigins
import McpGateway.AgentAttribution

/-!
# Credentials on opened transports

Headers are resolved anew for every opening, whatever the provider and however
its credential has changed. Server-sent events are given all of them.
Streamable HTTP is given none: it sends what the shared HTTP client carries by
itself, and a client without a credential of its own never sends one.
-/

namespace McpGateway.CredentialHeaders

open PyText PyDict StepRun GatewaySettings CircuitBreakers PyRuntime UpstreamContent
open AuthProviders McpClient ClientRuns SessionOrigins AgentAttribution

/-- Header names differ at most in their case. -/
def SameName (a b : String) : Prop := a.toList.map Char.toLower=b.toList.map Char.toLower

instance (a b : String) : Decidable (SameName a b) :=
  inferInstanceAs (Decidable (a.toList.map Char.toLower=b.toList.map Char.toLower))

/-- The headers hold a value under a name. -/
def Carries (headers : Headers) (name value : String) : Prop :=
  ∃ entry∈headers.items, SameName entry.1 name ∧ entry.2=value

instance (headers : Headers) (name value : String) : Decidable (Carries headers name value) :=
  inferInstanceAs (Decidable (∃ entry∈headers.items, SameName entry.1 name ∧ entry.2=value))

/-- The headers hold every one of the others. -/
def Covers (given headers : Headers) : Prop :=
  ∀ entry∈headers.items, Carries given entry.1 entry.2

instance (given headers : Headers) : Decidable (Covers given headers) :=
  inferInstanceAs (Decidable (∀ entry∈headers.items, Carries given entry.1 entry.2))

/-- Headers cover themselves. -/
theorem Covers.refl (headers : Headers) : Covers headers headers :=
  fun entry he => ⟨entry,he,rfl,rfl⟩

/-- The headers that the client resolves in a world, when it does. -/
def resolvedHeaders (c : MCPClient) (world : World) (agentId : Option String) : Option Headers :=
  (c.resolveHeaders world agentId).2.toOption

/-- The transport of an opening is given every header resolved for it. -/
def Attached : ClientEvent→Prop
  | .opening before world agentId given =>
    ∀ headers∈resolvedHeaders before world agentId, Covers given headers
  | _ => True

instance : (e : ClientEvent)→Decidable (Attached e)
  | .opening before world agentId given =>
    inferInstanceAs
      (Decidable (∀ headers∈resolvedHeaders before world agentId, Covers given headers))
  | .sent _ _ => .isTrue trivial
  | .ended _ _ => .isTrue trivial

/-- The transport is server-sent events, or the HTTP client by itself holds
what the client resolves in the world of the opening. -/
def Reached (server : UpstreamServer) (http : Option Headers) : ClientEvent→Prop
  | .opening before world agentId _ => server.transport=.sse ∨
    ∀ headers∈resolvedHeaders before world agentId, Covers (http.getD Dict.empty) headers
  | _ => True

instance (server : UpstreamServer) (http : Option Headers) :
    (e : ClientEvent)→Decidable (Reached server http e)
  | .opening before world agentId _ =>
    inferInstanceAs (Decidable (server.transport=.sse ∨
      ∀ headers∈resolvedHeaders before world agentId, Covers (http.getD Dict.empty) headers))
  | .sent _ _ => .isTrue trivial
  | .ended _ _ => .isTrue trivial

/-- Resolved headers are those of a successful resolution. -/
theorem resolvedHeaders_iff {c : MCPClient} {world : World} {agentId : Option String}
    {headers : Headers} : headers∈resolvedHeaders c world agentId ↔
      (c.resolveHeaders world agentId).2=.ok headers := by
  unfold resolvedHeaders
  cases (c.resolveHeaders world agentId).2 with
  | error error => simp [Except.toOption]
  | ok own => simp [Except.toOption]

/-- A transport is given headers exactly when it is server-sent events or the
HTTP client holds them. -/
theorem transportHeaders_covers_iff (c : MCPClient) (headers : Headers) :
    Covers (c.transportHeaders headers) headers ↔
      c.server.transport=.sse ∨ Covers (c.http.getD Dict.empty) headers := by
  unfold MCPClient.transportHeaders
  cases c.server.transport with
  | sse => exact ⟨fun _ => Or.inl rfl,fun _ => Covers.refl headers⟩
  | http => exact ⟨Or.inr,fun h => h.resolve_left (fun he => (by cases he))⟩
  | streamableHttp => exact ⟨Or.inr,fun h => h.resolve_left (fun he => (by cases he))⟩

/-- A sound event attaches what it resolves exactly when it is reached. -/
theorem attached_iff_reached {environ : Environ} {server : UpstreamServer}
    {http : Option Headers} {breaker : Option CircuitBreaker} {earlier : List ClientEvent}
    {e : ClientEvent} (hsound : Sound (MCPClient.new environ server http breaker) earlier e) :
    Attached e ↔ Reached server http e := by
  obtain ⟨-,hserver,hhttp,-⟩ := new_settings environ server http breaker
  cases e with
  | sent operation session => exact Iff.rfl
  | ended operation result => exact Iff.rfl
  | opening before world agentId given =>
    obtain ⟨-,headers,hheaders,hgiven⟩ := hsound.opening _ _ _ _ rfl
    have hresolved : ∀ other, other∈resolvedHeaders before world agentId ↔ other=headers := by
      intro other
      rw [resolvedHeaders_iff,hheaders]
      exact ⟨fun h => (Except.ok.inj h).symm,fun h => by rw [h]⟩
    have hcovers := transportHeaders_covers_iff (MCPClient.new environ server http breaker) headers
    rw [←hgiven,hserver,hhttp] at hcovers
    simp only [Attached,Reached,hresolved,forall_eq]
    exact hcovers

/-- In every run of openings, resets, retries and changing credentials, every
transport is given every header resolved for it, exactly when each transport
is opened over server-sent events or the HTTP client by itself holds those
headers. -/
theorem credentials_attached_iff (rt : Runtime) (environ : Environ) (server : UpstreamServer)
    (http : Option Headers) (breaker : Option CircuitBreaker) (now : ℚ)
    (actions : List ClientAction) :
    (∀ e∈(run (step rt) {clock := now,client := .new environ server http breaker} actions).2,
      Attached e) ↔
    ∀ e∈(run (step rt) {clock := now,client := .new environ server http breaker} actions).2,
      Reached server http e := by
  have hfresh := (new_settings environ server http breaker).1
  have hevent : ∀ e∈(run (step rt) {clock := now,client := .new environ server http breaker}
      actions).2, (Attached e ↔ Reached server http e) := by
    intro e he
    obtain ⟨earlier,-,hsound⟩ := run_sound_mem hfresh actions he
    exact attached_iff_reached hsound
  constructor
  · intro h e he
    exact (hevent e he).mp (h e he)
  · intro h e he
    exact (hevent e he).mpr (h e he)

/-- A credential never reaches a transport other than server-sent events, when
the HTTP client holds nothing under its header. -/
theorem credential_dropped (rt : Runtime) (environ : Environ) (server : UpstreamServer)
    (http : Option Headers) (breaker : Option CircuitBreaker) (now : ℚ)
    (actions : List ClientAction) (provider : AuthProvider)
    (hprovider : (MCPClient.new environ server http breaker).authProvider=some provider)
    (htransport : server.transport≠.sse)
    (hhttp : ∀ entry∈(http.getD Dict.empty).items, ¬SameName entry.1 provider.header)
    (before : MCPClient) (world : World) (agentId : Option String) (given : Headers)
    (he : ClientEvent.opening before world agentId given∈
      (run (step rt) {clock := now,client := .new environ server http breaker} actions).2) :
    ¬Attached (.opening before world agentId given) := by
  have hfresh := (new_settings environ server http breaker).1
  obtain ⟨earlier,-,hsound⟩ := run_sound_mem hfresh actions he
  obtain ⟨hsettings,headers,hheaders,-⟩ := hsound.opening _ _ _ _ rfl
  have hcredential : before.authProvider.map AuthProvider.header=some provider.header := by
    rw [hsettings.credential,hprovider]
    rfl
  obtain ⟨current,hcurrent,hname⟩ := Option.map_eq_some_iff.mp hcredential
  obtain ⟨token,htoken⟩ := MCPClient.resolveHeaders_credential hcurrent hheaders
  rw [hname] at htoken
  intro hattached
  rcases (attached_iff_reached hsound).mp hattached with hsse | hcovered
  · exact htransport hsse
  · have hentry := Dict.mem_items_iff.mpr htoken
    obtain ⟨entry,hm,hsame,-⟩ := hcovered headers (resolvedHeaders_iff.mpr hheaders) _ hentry
    exact hhttp entry hm hsame

/-- A listing that opens a session. -/
def openingRun : List ClientAction :=
  [.start .listTools,.grant 0,.resolve 0 plainWorld]

/-- Headers that opened transports were given. -/
def givenHeaders (events : List ClientEvent) : List (List (String×String)) :=
  events.filterMap (fun e => match e with
    | .opening _ _ _ given => some given.items
    | _ => none)

/-- The default transport is opened without the configured token. -/
theorem static_token_dropped :
    givenHeaders (run (step asciiRuntime) (forwardingRun .streamableHttp) openingRun).2=[[]] ∧
    ¬∀ e∈(run (step asciiRuntime) (forwardingRun .streamableHttp) openingRun).2, Attached e := by
  refine ⟨by decide +kernel,by decide +kernel⟩

example : ∀ e∈(run (step asciiRuntime) (forwardingRun .sse) openingRun).2, Attached e := by
  decide +kernel

end McpGateway.CredentialHeaders
