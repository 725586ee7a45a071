import Mathlib
import McpGateway.PyDict
import McpGateway.PyText
import McpGateway.StepRun
import McpGateway.JsonValue
import McpGateway.GatewaySettings
import McpGateway.ToolNaming
import McpGateway.ServerRegistry
import McpGateway.RegistryRuns
import McpGateway.ToolAuthorizer
import McpGateway.PyRuntime
import McpGateway.Guardrails
import McpGateway.ResultCache
import McpGateway.UpstreamContent
import McpGateway.ToolOrchestrator
import McpGateway.CallMediation
import McpGateway.GatewayRuns
import McpGateway.ConfigReload
import McpGateway.ConcurrentReloads
import McpGateway.JwksCache
import McpGateway.TokenValidation
import McpGateway.ApiRuns
import McpGateway.RequestValidation

/-!
# Admission of requests

The events before an event say why it may happen: an endpoint behind the key
runs for a request whose key was accepted, a tool call for one whose agent a
configured authorizer identified, by the token of this request where it asks
for one, and a call in flight was one of those.
-/

namespace McpGateway.RequestAdmission

open PyDict PyText StepRun JsonValue GatewaySettings ToolNaming ServerRegistry RegistryRuns
open ToolAuthorizer PyRuntime Guardrails ResultCache UpstreamContent ToolOrchestrator CallMediation
open GatewayRuns ConfigReload ConcurrentReloads JwksCache TokenValidation ApiRuns RequestValidation

section Evidence

/-- A reload loaded a configuration with this policy and token validation. -/
def Loaded (h : List ServerEvent) (policy : AuthPolicy) (oidc : Option OIDCConfig) : Prop :=
  ∃ id file, ServerEvent.loaded id file∈h ∧ policy=file.auth ∧ oidc=file.oidc

/-- An authorizer was there when the process started, or has the policy and the
token validation of a configuration that a reload loaded. -/
def Configured (initial : Server) (h : List ServerEvent) (authorizer : Authorizer) : Prop :=
  authorizer=initial.authorizer ∨ authorizer=initial.swapped ∨
    Loaded h authorizer.policy (authorizer.oidc.map ValidatorRef.cfg)

/-- The permissions of a policy for an agent. -/
def permissionsOf (policy : AuthPolicy) (agentId : String) : List String :=
  (policy.agentPermissions.get? agentId).getD []

/-- Why an authorizer takes a request for an agent's, with a validation or
without. -/
inductive Evidence (rt : Runtime) (settings : Settings) (authorizer : Authorizer)
    (request : HttpRequest) : Option Validation→AgentPrincipal→Prop where
  /-- Nothing is enforced. -/
  | unenforced (h : authorizer.policy.enabled=false) : Evidence rt settings authorizer request
      none ⟨orText (settings.agentId rt request) "anonymous",["*"]⟩
  /-- The token of the request was accepted and names the agent, whatever the
  headers say. -/
  | token (ref : ValidatorRef) (v : Validation) (payload : Json) (agentId : String)
      (enforced : authorizer.policy.enabled=true) (validates : authorizer.oidc=some ref)
      (bearer : request.bearerToken rt=some v.token) (nonempty : v.token≠"")
      (accepted : v.outcome=.accepted payload)
      (claimed : extractAgentId rt ref.cfg payload=.ok agentId) : Evidence rt settings authorizer
      request (some v) ⟨agentId,permissionsOf authorizer.policy agentId⟩
  /-- The header names the agent, and no token is to be validated. -/
  | header (agentId : String) (enforced : authorizer.policy.enabled=true)
      (unvalidated : authorizer.oidc=none ∨ present (request.bearerToken rt)=false)
      (named : settings.agentId rt request=some agentId) (nonempty : agentId≠"") :
      Evidence rt settings authorizer request none
        ⟨agentId,permissionsOf authorizer.policy agentId⟩

/-- An answer of `identify` that is a principal. -/
theorem mapped_ok {found : Except AuthorizationError AgentPrincipal} {principal : AgentPrincipal}
    (h : found.mapError (fun e => (401,e.message))=.ok principal) : found=.ok principal := by
  cases found with
  | error e => cases h
  | ok p =>
    cases h
    rfl

/-- Whoever is identified without a validation has evidence. -/
theorem evidence_unvalidated {rt : Runtime} {settings : Settings} {authorizer : Authorizer}
    {request : HttpRequest} {principal : AgentPrincipal}
    (h : authorizer.principal rt (settings.agentId rt request) (request.bearerToken rt) none=
      .ok principal) (hasked : authorizer.asks (request.bearerToken rt)=none) :
    Evidence rt settings authorizer request none principal := by
  have hidentify := mapped_ok h
  unfold ToolAuthorizer.identify at hidentify
  dsimp only at hidentify
  split at hidentify
  · rename_i hoff
    cases hidentify
    exact .unenforced hoff
  · rename_i hon
    have henforced : authorizer.policy.enabled=true := Bool.not_eq_false _ ▸ hon
    split at hidentify
    · rename_i hheader
      obtain ⟨agentId,hnamed,hne,htext⟩ := present_some hheader
      rw [htext] at hidentify
      cases hidentify
      refine .header agentId henforced ?_ hnamed hne
      cases hbearer : present (request.bearerToken rt) with
      | false => exact .inr rfl
      | true =>
        refine .inl ?_
        rwa [Authorizer.asks,if_pos ⟨henforced,hbearer⟩] at hasked
    · cases hidentify

/-- Whoever is identified with one has a token that was accepted. -/
theorem evidence_validated {rt : Runtime} {settings : Settings} {authorizer : Authorizer}
    {request : HttpRequest} {principal : AgentPrincipal} {v : Validation} {ref : ValidatorRef}
    (h : authorizer.principal rt (settings.agentId rt request) (request.bearerToken rt) (some v)=
      .ok principal) (hasked : authorizer.asks (request.bearerToken rt)=some ref)
    (htoken : request.bearerToken rt=some v.token) :
    Evidence rt settings authorizer request (some v) principal := by
  obtain ⟨henforced,hoidc,hpresent⟩ := asks_some hasked
  have hne : v.token≠"" := by
    obtain ⟨text,htext,hne,-⟩ := present_some hpresent
    cases htoken.symm.trans htext
    exact hne
  have hon : ¬authorizer.policy.enabled=false := by
    rw [henforced]
    exact Bool.noConfusion
  obtain ⟨token,tested,answered,outcome⟩ := v
  cases outcome with
  | crashed text => cases h
  | rejected text =>
    have hidentify := mapped_ok h
    unfold ToolAuthorizer.identify at hidentify
    rw [if_neg hon,hoidc,hpresent] at hidentify
    cases hidentify
  | accepted payload =>
    have hidentify := mapped_ok h
    unfold ToolAuthorizer.identify at hidentify
    rw [if_neg hon,hoidc,hpresent] at hidentify
    simp only [Option.map_some,validated] at hidentify
    split at hidentify
    · rename_i agentId hclaim
      cases hidentify
      exact .token ref _ payload agentId henforced hoidc htoken hne rfl hclaim
    · cases hidentify

/-- Whoever is identified has evidence. -/
theorem evidence_of_principal {rt : Runtime} {settings : Settings} {authorizer : Authorizer}
    {request : HttpRequest} {validation : Option Validation} {principal : AgentPrincipal}
    (h : authorizer.principal rt (settings.agentId rt request) (request.bearerToken rt)
      validation=.ok principal) (hasked : Asked rt request authorizer validation) :
    Evidence rt settings authorizer request validation principal := by
  cases validation with
  | none => exact evidence_unvalidated h hasked
  | some v =>
    obtain ⟨ref,hasks,htoken⟩ := hasked
    exact evidence_validated h hasks htoken

end Evidence

section Frames

/-- Only a swap changes the authorizer. -/
theorem gateway_authorizer (rt : Runtime) (g : Gateway) {a : GatewayAction}
    (h : KeepsPolicies a) :
    (GatewayRuns.step rt g a).1.orchestrator.authorizer=g.orchestrator.authorizer := by
  obtain ⟨registry,limiter,cache,dispatcher,hwrites⟩ := step_writes rt g h
  rw [hwrites]

/-- A call in flight after an action was in flight before, or was started by
it. -/
theorem gateway_pending (rt : Runtime) (g : Gateway) (a : GatewayAction) {call : PendingCall}
    (h : call∈(GatewayRuns.step rt g a).1.pending) :
    call∈g.pending ∨ a=.callStart call.frame.request := by
  cases a with
  | registry action => exact Or.inl h
  | reload cfg => exact Or.inl h
  | installWebhooks => exact Or.inl h
  | manifest tag => exact Or.inl h
  | tick elapsed => exact Or.inl h
  | callStart request =>
    rcases List.mem_append.mp h with hold | hnew
    · exact Or.inl hold
    · refine Or.inr ?_
      cases hr : (startCall rt g.orchestrator g.clock request).result with
      | ended outcome =>
        rw [hr] at hnew
        exact absurd hnew List.not_mem_nil
      | waiting started =>
        rw [hr] at hnew
        cases List.mem_singleton.mp hnew
        rw [(startCall_started hr).1]
  | callFinish index outcome =>
    unfold GatewayRuns.step at h
    dsimp only at h
    split at h
    · exact Or.inl h
    · exact Or.inl (List.mem_of_mem_eraseIdx h)

variable {κ : Type} (lib : TokenLibrary κ) (rt : Runtime) (settings : Settings) (s : Server)

end Frames

section Admissions

variable (rt : Runtime) (settings : Settings) (initial : Server)

/-- A configured authorizer identified the agent of a request. -/
def IdentifiedIn (h : List ServerEvent) (id : ℕ) (request : HttpRequest)
    (principal : AgentPrincipal) : Prop :=
  ∃ authorizer validation,
    ServerEvent.identified id request authorizer validation principal∈h ∧
    Configured initial h authorizer ∧
    Evidence rt settings authorizer request validation principal

/-- The key of a request was accepted. -/
def KeyedIn (h : List ServerEvent) (id : ℕ) (request : HttpRequest) : Prop :=
  ServerEvent.keyed id request∈h ∧ settings.keyAccepted rt request=true

/-- A call is the one that an identified request asked for. -/
structure Admission (h : List ServerEvent) (id : ℕ) (request : HttpRequest)
    (call : CallRequest) : Prop where
  /-- The key was accepted. -/
  keyed : KeyedIn rt settings h id request
  /-- The agent was identified. -/
  identified : IdentifiedIn rt settings initial h id request call.principal
  /-- The payload is handed on. -/
  payload : ∃ payload, request.endpoint=.callTool payload ∧ call.name=payload.name ∧
    call.arguments=payload.arguments ∧ call.serverId=payload.serverId
  /-- The id in the log is the one of the request, if it has one. -/
  logged : ∃ fresh, call.requestId=some (request.requestId rt fresh)

/-- Health, metrics and the generated documentation. -/
def Keyless (endpoint : Endpoint) : Prop :=
  endpoint=.healthz ∨ endpoint=.metrics ∨ endpoint=.openapi ∨ endpoint=.docs ∨
    endpoint=.docsOauth2Redirect ∨ endpoint=.redoc

/-- What the events before an event say about it. -/
def Justified (h : List ServerEvent) : ServerEvent→Prop
  | .refused id request status detail =>
    settings.keyAccepted rt request=false ∧ status=401 ∧ detail="invalid or missing API key" ∨
      KeyedIn rt settings h id request
  | .keyed _ request => settings.keyAccepted rt request=true
  | .identified id request authorizer validation principal =>
    KeyedIn rt settings h id request ∧ Configured initial h authorizer ∧
      Evidence rt settings authorizer request validation principal
  | .served id request _ => Keyless request.endpoint ∨ KeyedIn rt settings h id request
  | .called id request _ event => ∃ time call before report,
    event=some (.started time call before report) ∧
    Admission rt settings initial h id request call ∧
    ∀ client tool sent agentId, Effect.upstream client tool sent agentId∈report.effects→
      agentId=call.principal.agentId
  | .settled event => ∃ time call before outcome report id request,
    event=.finished time call before outcome report ∧
    Admission rt settings initial h id request call.frame.request
  | .loaded none _ => True
  | .loaded (some id) _ => ∃ request, request.endpoint=.hotReload ∧
    KeyedIn rt settings h id request

/-- What the events so far say about a request whose endpoint has not run. -/
structure Reached (h : List ServerEvent) (id : ℕ) (entry : Entering) : Prop where
  /-- The key was accepted. -/
  keyed : KeyedIn rt settings h id entry.request
  /-- The id in the log. -/
  logged : ∃ fresh, entry.requestId=entry.request.requestId rt fresh
  /-- The authorizer it took is a configured one. -/
  bound : ∀ authorizer, taken entry.stage=some authorizer→ Configured initial h authorizer
  /-- The principal it has was identified. -/
  identified : ∀ principal, entry.stage=.identified principal→
    IdentifiedIn rt settings initial h id entry.request principal

/-- What the events so far say about the process they led to. -/
structure Grounded (s : Server) (h : List ServerEvent) : Prop where
  /-- The application's authorizer is a configured one. -/
  authorizer : Configured initial h s.authorizer
  /-- The orchestrator's authorizer is a configured one. -/
  swapped : Configured initial h s.swapped
  /-- Reloads install loaded authorizers. -/
  reloads : ∀ running∈s.reloads, ∀ cfg, ReloadStep.swapPolicies cfg∈running.task.remaining→
    Loaded h cfg.auth running.oidc
  /-- Requests whose endpoint has not run. -/
  entering : ∀ id entry, s.entering id=some entry→ Reached rt settings initial h id entry
  /-- Calls in flight were admitted. -/
  calls : ∀ call∈s.calls, ∃ id request,
    Admission rt settings initial h id request call.frame.request

end Admissions

section Monotonicity

variable {rt : Runtime} {settings : Settings} {initial : Server} {h h' : List ServerEvent}

/-- More history loads no less. -/
theorem Loaded.mono {policy : AuthPolicy} {oidc : Option OIDCConfig} (hl : Loaded h policy oidc)
    (hsub : h⊆h') : Loaded h' policy oidc := by
  obtain ⟨id,file,hm,hrest⟩ := hl
  exact ⟨id,file,hsub hm,hrest⟩

/-- More history configures no less. -/
theorem Configured.mono {authorizer : Authorizer} (hc : Configured initial h authorizer)
    (hsub : h⊆h') : Configured initial h' authorizer := by
  rcases hc with hc | hc | hc
  · exact Or.inl hc
  · exact Or.inr (Or.inl hc)
  · exact Or.inr (Or.inr (hc.mono hsub))

/-- More history identifies no less. -/
theorem IdentifiedIn.mono {id : ℕ} {request : HttpRequest} {principal : AgentPrincipal}
    (hi : IdentifiedIn rt settings initial h id request principal) (hsub : h⊆h') :
    IdentifiedIn rt settings initial h' id request principal := by
  obtain ⟨authorizer,validation,hm,hc,he⟩ := hi
  exact ⟨authorizer,validation,hsub hm,hc.mono hsub,he⟩

/-- More history admits no less. -/
theorem Admission.mono {id : ℕ} {request : HttpRequest} {call : CallRequest}
    (ha : Admission rt settings initial h id request call) (hsub : h⊆h') :
    Admission rt settings initial h' id request call :=
  ⟨⟨hsub ha.keyed.1,ha.keyed.2⟩,ha.identified.mono hsub,ha.payload,ha.logged⟩

/-- More history says no less of a request. -/
theorem Reached.mono {id : ℕ} {entry : Entering}
    (hr : Reached rt settings initial h id entry) (hsub : h⊆h') :
    Reached rt settings initial h' id entry :=
  ⟨⟨hsub hr.keyed.1,hr.keyed.2⟩,hr.logged,fun a ha => (hr.bound a ha).mono hsub,
    fun p hp => (hr.identified p hp).mono hsub⟩

/-- More history grounds no less. -/
theorem Grounded.mono {s : Server} (hg : Grounded rt settings initial s h) (hsub : h⊆h') :
    Grounded rt settings initial s h' := by
  refine ⟨hg.authorizer.mono hsub,hg.swapped.mono hsub,?_,?_,?_⟩
  · exact fun running hr cfg hc => (hg.reloads running hr cfg hc).mono hsub
  · exact fun id entry he => (hg.entering id entry he).mono hsub
  · intro call hc
    obtain ⟨id,request,ha⟩ := hg.calls call hc
    exact ⟨id,request,ha.mono hsub⟩

/-- One request more, or less. -/
theorem Grounded.enter {s : Server} (hg : Grounded rt settings initial s h) {id : ℕ}
    {entry : Option Entering}
    (hentry : ∀ e, entry=some e→ Reached rt settings initial h id e) :
    Grounded rt settings initial (s.enter id entry) h := by
  refine ⟨hg.authorizer,hg.swapped,hg.reloads,?_,hg.calls⟩
  intro other e he
  by_cases hid : other=id
  · subst hid
    rw [entering_self] at he
    exact hentry e he
  · rw [entering_other s hid] at he
    exact hg.entering other e he

/-- An action of the gateway, all of whose calls are admitted. -/
theorem Grounded.withGateway {s : Server} (hg : Grounded rt settings initial s h)
    {a : GatewayAction} (ha : KeepsPolicies a)
    (hcalls : ∀ request, a=.callStart request→
      ∃ id found, Admission rt settings initial h id found request) :
    Grounded rt settings initial (s.withGateway (GatewayRuns.step rt s.gateway a).1) h := by
  have hauthorizer := gateway_authorizer rt s.gateway ha
  refine ⟨hg.authorizer,?_,hg.reloads,hg.entering,?_⟩
  · have hswapped : (s.withGateway (GatewayRuns.step rt s.gateway a).1).swapped=s.swapped := by
      unfold Server.swapped Server.withGateway
      dsimp only
      rw [hauthorizer]
      rfl
    rw [hswapped]
    exact hg.swapped
  · intro call hc
    rcases gateway_pending rt s.gateway a hc with hold | hnew
    · exact hg.calls call hold
    · exact hcalls _ hnew

/-- The actions of an endpoint keep what is grounded. -/
theorem Grounded.actions {s : Server} (hg : Grounded rt settings initial s h)
    {actions : List GatewayAction}
    (ha : ∀ a∈actions, KeepsPolicies a ∧ ∀ request, a≠.callStart request) :
    Grounded rt settings initial (actions.foldl (fun s a => s.perform rt a) s) h := by
  induction actions generalizing s with
  | nil => exact hg
  | cons a rest ih =>
    obtain ⟨hkeep,hno⟩ := ha a List.mem_cons_self
    refine ih ?_ (fun b hb => ha b (List.mem_cons_of_mem _ hb))
    exact hg.withGateway hkeep (fun request he => absurd he (hno request))

/-- A reload swaps in the policies of its configuration only. -/
theorem program_swap {old new cfg : LoadedConfig} {world : ReloadWorld}
    (hm : ReloadStep.swapPolicies cfg∈program old new world) : cfg=new := by
  obtain ⟨steps,heq,honly⟩ := program_eq old new world
  rw [heq] at hm
  rcases List.mem_append.mp hm with hs | hs
  · exact (honly _ hs).elim
  · rcases List.mem_pair.mp hs with he | he
    · exact ReloadStep.swapPolicies.inj he
    · exact ReloadStep.noConfusion he

/-- A reload begins with a configuration in the history. -/
theorem Grounded.beginReload {s : Server} (hg : Grounded rt settings initial s h)
    {id : Option ℕ} {file : ConfigFile} (world : ReloadWorld)
    (hm : ServerEvent.loaded id file∈h) :
    Grounded rt settings initial (s.beginReload file world) h := by
  refine ⟨hg.authorizer,hg.swapped,?_,hg.entering,hg.calls⟩
  intro running hr cfg hc
  rcases List.mem_append.mp hr with hold | hnew
  · exact hg.reloads running hold cfg hc
  · rw [List.mem_singleton.mp hnew] at hc ⊢
    rw [program_swap hc]
    exact ⟨id,file,hm,rfl,rfl⟩

/-- A reload takes a step. -/
theorem Grounded.advance {s : Server} (hg : Grounded rt settings initial s h) {index : ℕ}
    {running : RunningReload} {next : ReloadStep} {rest : List ReloadStep}
    (hr : running∈s.reloads) (hrest : running.task.remaining=next::rest) :
    Grounded rt settings initial (s.advance rt index running next rest) h := by
  have hsteps : ∀ cfg, ReloadStep.swapPolicies cfg∈next::rest→
      Loaded h cfg.auth running.oidc := by
    intro cfg hc
    rw [←hrest] at hc
    exact hg.reloads running hr cfg hc
  have happ : Configured initial h (s.advance rt index running next rest).authorizer ∧
      Configured initial h (s.advance rt index running next rest).swapped ∧
      (s.advance rt index running next rest).calls=s.calls := by
    by_cases honly : OnRegistry next
    · obtain ⟨registry,happ⟩ := step_onRegistry rt ⟨s.app,running.task.captured⟩ honly
      have hkind : isSwap next=false ∧ isInstall next=false := by
        cases next <;> first | exact ⟨rfl,rfl⟩ | exact honly.elim
      have hauthorizer : (s.advance rt index running next rest).authorizer=s.authorizer := by
        simp only [Server.advance,Server.authorizer,happ,hkind.2]
        rfl
      have hswapped : (s.advance rt index running next rest).swapped=s.swapped := by
        simp only [Server.advance,Server.swapped,happ,hkind.1]
        rfl
      rw [hauthorizer,hswapped]
      exact ⟨hg.authorizer,hg.swapped,rfl⟩
    · cases next with
      | swapPolicies cfg =>
        have hswapped : (s.advance rt index running (.swapPolicies cfg) rest).swapped=
            ⟨cfg.auth,(build s.validators s.clock running.oidc).1⟩ := by
          simp only [Server.advance,Server.swapped,ConfigReload.step,swapPolicies,isSwap]
          cases SafetyFilter.new rt cfg.guardrails <;> rfl
        have hbuilt : (build s.validators s.clock running.oidc).1.map ValidatorRef.cfg=
            running.oidc := by
          cases running.oidc <;> rfl
        rw [hswapped]
        refine ⟨hg.authorizer,.inr (.inr ?_),rfl⟩
        rw [hbuilt]
        exact hsteps cfg List.mem_cons_self
      | install cfg => exact ⟨hg.swapped,hg.swapped,rfl⟩
      | deregister serverId => exact absurd trivial honly
      | register server => exact absurd trivial honly
      | sync serverId answer => exact absurd trivial honly
      | update server => exact absurd trivial honly
  refine ⟨happ.1,happ.2.1,?_,hg.entering,?_⟩
  · intro other ho cfg hc
    rcases List.mem_or_eq_of_mem_set ho with hold | rfl
    · exact hg.reloads other hold cfg hc
    · dsimp only at hc
      split at hc
      · exact absurd hc List.not_mem_nil
      · exact hsteps cfg (List.mem_cons_of_mem _ hc)
  · rw [happ.2.2]
    exact hg.calls

end Monotonicity

section Runs

variable {κ : Type} {lib : TokenLibrary κ} {rt : Runtime} {settings : Settings} {initial : Server}

/-- An identified tool call that runs was admitted, under the history behind
its identification. -/
theorem Reached.admission {h : List ServerEvent} {id : ℕ} {entry : Entering}
    {principal : AgentPrincipal} {payload : ToolCallRequest}
    (hr : Reached rt settings initial h id entry) (hs : entry.stage=.identified principal)
    (hp : entry.request.endpoint=.callTool payload) :
    Admission rt settings initial h id entry.request
      ⟨principal,payload.name,payload.arguments,payload.serverId,some entry.requestId⟩ := by
  obtain ⟨fresh,hfresh⟩ := hr.logged
  exact ⟨hr.keyed,hr.identified principal hs,⟨payload,hp,rfl,rfl,rfl⟩,fresh,
    congrArg some hfresh⟩

/-- Events that lead from one history to the next. -/
theorem subset_emitted (h emitted : List ServerEvent) : h⊆h++emitted :=
  List.subset_append_left h emitted

/-- The end of an identification keeps what is grounded. -/
theorem Grounded.conclude {s : Server} {h : List ServerEvent}
    (hg : Grounded rt settings initial s h) {id : ℕ} {entry : Entering}
    {authorizer : Authorizer} {validation : Option Validation}
    (hr : Reached rt settings initial h id entry) (ht : taken entry.stage=some authorizer)
    (hasked : ∀ principal, (s.conclude rt settings id entry authorizer validation).2=
      some (.identified id entry.request authorizer validation principal)→
        Asked rt entry.request authorizer validation) :
    let r := s.conclude rt settings id entry authorizer validation
    Grounded rt settings initial r.1 (h++r.2.toList) ∧
      ∀ e∈r.2, Justified rt settings initial h e := by
  intro r
  unfold r
  rcases conclude_cases rt settings s id entry authorizer validation with
    ⟨status,detail,heq⟩ | ⟨principal,hp,heq⟩
  · rw [heq]
    refine ⟨(hg.mono (subset_emitted _ _)).enter (fun e hnew => (by cases hnew)),fun e he => ?_⟩
    cases he
    exact .inr hr.keyed
  · have hevidence := evidence_of_principal hp (hasked principal (by rw [heq]))
    rw [heq]
    refine ⟨(hg.mono (subset_emitted _ _)).enter ?_,fun e he => ?_⟩
    · intro e hnew
      cases hnew
      have hnow := hr.mono (subset_emitted h
        [.identified id entry.request authorizer validation principal])
      refine ⟨hnow.keyed,hnow.logged,fun _ hb => (by cases hb),?_⟩
      intro other hi
      cases hi
      have hm : ServerEvent.identified id entry.request authorizer validation principal∈
          h++[.identified id entry.request authorizer validation principal] :=
        List.mem_append_right _ (List.mem_singleton_self _)
      exact ⟨authorizer,validation,hm,hnow.bound authorizer ht,hevidence⟩
    · cases he
      exact ⟨hr.keyed,hr.bound authorizer ht,hevidence⟩

end Runs

end McpGateway.RequestAdmission
