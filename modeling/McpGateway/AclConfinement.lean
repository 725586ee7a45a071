import Mathlib
import McpGateway.PyDict
import McpGateway.StepRun
import McpGateway.JsonValue
import McpGateway.GatewaySettings
import McpGateway.CircuitBreakers
import McpGateway.ToolNaming
import McpGateway.ServerRegistry
import McpGateway.RegistryRuns
import McpGateway.ToolRouting
import McpGateway.ToolAuthorizer
import McpGateway.RateLimiting
import McpGateway.PyRuntime
import McpGateway.PiiRedactor
import McpGateway.Guardrails
import McpGateway.SchemaValidation
import McpGateway.ToolOrchestrator
import McpGateway.CallMediation

/-!
# Confinement of restricted agents

A permission list is matched against the raw and the qualified name of the
resolved tool, so a qualified name of one server also permits a tool of
another server whose raw name is that very string. Calls are confined to the
listed qualified names exactly when no such coincidence gets through the
other gates.
-/

namespace McpGateway.AclConfinement

open PyDict StepRun JsonValue GatewaySettings CircuitBreakers ToolNaming ServerRegistry
open RegistryRuns ToolRouting ToolAuthorizer RateLimiting PyRuntime PiiRedactor Guardrails
open SchemaValidation ToolOrchestrator CallMediation

/-- Whatever the call invokes is listed by its qualified name. -/
def Confined (rt : Runtime) (o : Orchestrator) (now : ℚ) (request : CallRequest)
    (interlude : Interlude) : Prop :=
  ∀ entry∈o.registry.entries.values, ∀ tool sent agentId,
    Effect.upstream entry.client tool sent agentId∈(callTool rt o now request interlude).effects→
      entry.server.effectivePrefix++"."++tool∈request.principal.permissions

/-- Everything but the permission list lets the call through to its upstream. -/
structure OtherGatesPass (rt : Runtime) (o : Orchestrator) (now : ℚ) (f : CallFrame)
    (sent : Json) (reqRedacted : Bool) : Prop where
  /-- Routing resolves the request. -/
  resolved : resolve o.registry f.request.name f.request.serverId=.ok (f.entry,f.rawTool)
  /-- The server is enabled. -/
  enabled : f.entry.server.enabled=true
  /-- A mutable tool is called by an allowed agent. -/
  mutableAllowed : f.mutable=true→
    f.request.principal.agentId∈o.authorizer.mutableAllowedAgents
  /-- The rate limiter grants. -/
  granted : ∀ limiter, o.rateLimiter=some limiter→
    (limiter.check now f.request.principal.agentId f.qualified).2=.granted
  /-- The guardrails accept. -/
  guarded : o.safety.check rt f.rawTool f.request.arguments=.ok ()
  /-- The schema validator accepts. -/
  valid : ∀ validator, o.schemaValidator=some validator→
    validator.validate rt f.rawTool f.request.arguments (inputSchema f)=.ok ()
  /-- The arguments are redacted. -/
  redacted : o.redactor.redact rt .request f.request.arguments=.ok (sent,reqRedacted)
  /-- The cache has no answer. -/
  uncached : (lookupResult rt (rateGate o now f).1 now f sent).2=none

/-- Entries of a keyed registry with one client are one entry. -/
theorem entry_of_client {reg : Registry} (hk : Keyed reg) {e₁ e₂ : RegistryEntry}
    (h₁ : e₁∈reg.entries.values) (h₂ : e₂∈reg.entries.values) (hc : e₁.client=e₂.client) :
    e₁=e₂ := by
  obtain ⟨s₁,hg₁⟩ := Dict.mem_values_iff.mp h₁
  obtain ⟨s₂,hg₂⟩ := Dict.mem_values_iff.mp h₂
  have hs₁ := (hk s₁ e₁ hg₁).2.1
  have hs₂ := (hk s₂ e₂ hg₂).2.1
  rw [hc,hs₂] at hs₁
  rw [hs₁,hg₁] at hg₂
  exact Option.some.inj hg₂

/-- A restricted list authorizes exactly the calls it names, raw or qualified,
as far as mutability permits. -/
theorem authorized_restricted_iff {policy : AuthPolicy} {f : CallFrame}
    (he : policy.enabled=true) (hn : f.request.principal.permissions≠[])
    (hw : "*"∉f.request.principal.permissions) :
    authorizeToolCall policy f.request.principal f.rawTool f.qualified f.mutable=.ok () ↔
      (f.mutable=true→f.request.principal.agentId∈policy.mutableAllowedAgents) ∧
      (f.rawTool∈f.request.principal.permissions ∨
        f.qualified∈f.request.principal.permissions) := by
  rw [authorizeToolCall_ok_iff,he]
  simp only [Bool.true_eq_false,false_or,hn,hw]

/-- For a restricted agent over a reachable registry, calls are confined to
the listed qualified names exactly when every call that only the permission
list could stop has a raw name that is not itself listed, or a listed
qualified name. -/
theorem confined_iff (naming : NamingConfig) (cbPolicy : CircuitBreakerPolicy)
    (actions : List RegistryAction) (rt : Runtime) (o : Orchestrator) (now : ℚ)
    (request : CallRequest) (interlude : Interlude)
    (ho : o.registry=(final step (start naming cbPolicy) actions).registry)
    (he : o.authorizer.enabled=true) (hn : request.principal.permissions≠[])
    (hw : "*"∉request.principal.permissions) :
    Confined rt o now request interlude ↔
      ∀ f sent reqRedacted, f.request=request→OtherGatesPass rt o now f sent reqRedacted→
        f.rawTool∉request.principal.permissions ∨ f.qualified∈request.principal.permissions := by
  have hk : Keyed o.registry := by
    rw [ho]
    exact keyed_final naming cbPolicy actions
  constructor
  · intro hc f sent reqRedacted hf hp
    subst hf
    by_cases hraw : f.rawTool∈f.request.principal.permissions
    · have hauth := (authorized_restricted_iff he hn hw).mpr ⟨hp.mutableAllowed,Or.inl hraw⟩
      have hm : Mediated rt o now f sent reqRedacted :=
        ⟨hp.resolved,hp.enabled,hauth,hp.granted,hp.guarded,hp.valid,hp.redacted⟩
      have hmem : f.entry∈o.registry.entries.values :=
        Dict.mem_values_iff.mpr ⟨_,resolve_registered hk hp.resolved⟩
      have hup : Effect.upstream f.entry.client f.rawTool sent f.request.principal.agentId∈
          (callTool rt o now f.request interlude).effects :=
        callTool_upstream.mpr
          (startCall_upstream_iff.mpr ⟨f,reqRedacted,rfl,hm,hp.uncached,rfl,rfl,rfl⟩)
      exact Or.inr (hc f.entry hmem f.rawTool sent _ hup)
    · exact Or.inl hraw
  · intro h entry hentry tool sent agentId hup
    obtain ⟨f,reqRedacted,hf,hm,hl,hclient,htool,-⟩ :=
      startCall_upstream_iff.mp (callTool_upstream.mp hup)
    subst hf
    have hmem : f.entry∈o.registry.entries.values :=
      Dict.mem_values_iff.mpr ⟨_,resolve_registered hk hm.resolved⟩
    have hsame : entry=f.entry := entry_of_client hk hentry hmem hclient
    obtain ⟨hmut,hlisted⟩ := (authorized_restricted_iff he hn hw).mp hm.authorized
    have hp : OtherGatesPass rt o now f sent reqRedacted :=
      ⟨hm.resolved,hm.enabled,hmut,hm.granted,hm.guarded,hm.valid,hm.redacted,hl⟩
    rw [hsame,htool]
    rcases hlisted with hraw | hqualified
    · rcases h f sent reqRedacted rfl hp with hnot | hqualified
      · exact absurd hraw hnot
      · exact hqualified
    · exact hqualified

/-- An agent with one permission asks for a tool by name and server. -/
def restrictedRequest (permission name serverId : String) : CallRequest where
  principal := ⟨"agent",[permission]⟩
  name := name
  arguments := .obj []
  serverId := some serverId

theorem confined_iff_listed :
    Confined asciiRuntime (plainOrchestrator (oneSync {name := "t"})) 0
        (restrictedRequest "a.t" "t" "a") (fun o => (o,0,.cancelled)) ↔
      ∀ f sent reqRedacted, f.request=restrictedRequest "a.t" "t" "a"→
        OtherGatesPass asciiRuntime (plainOrchestrator (oneSync {name := "t"})) 0 f sent
          reqRedacted→f.rawTool∉["a.t"] ∨ f.qualified∈["a.t"] :=
  confined_iff {} {} (oneSync {name := "t"}) asciiRuntime
    (plainOrchestrator (oneSync {name := "t"})) 0 (restrictedRequest "a.t" "t" "a")
    (fun o => (o,0,.cancelled)) rfl rfl (by decide) (by decide)

/-- Server `b` lists a tool that is called like the qualified name of a tool
of server `a`. -/
def lookalike : List RegistryAction := twoSyncs [{name := "query"}] [{name := "a.query"}]

/-- The permission for `a`'s tool also permits `b`'s tool. -/
theorem not_confined_lookalike :
    (∃ entry∈(plainOrchestrator lookalike).registry.entries.values, ∃ td∈entry.tools,
      "a.query"=entry.server.effectivePrefix++"."++td.name) ∧
    ¬Confined asciiRuntime (plainOrchestrator lookalike) 0
      (restrictedRequest "a.query" "a.query" "b") (fun o => (o,0,.cancelled)) := by
  refine ⟨⟨_,List.mem_cons_self,_,List.mem_cons_self,rfl⟩,fun h => ?_⟩
  have hb := h _ (List.mem_cons_of_mem _ List.mem_cons_self) "a.query" (.obj []) "agent"
    (List.mem_singleton_self _)
  exact absurd hb (by decide)

end McpGateway.AclConfinement
