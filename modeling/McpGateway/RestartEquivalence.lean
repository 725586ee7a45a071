import Mathlib
import McpGateway.PyDict
import McpGateway.StepRun
import McpGateway.GatewaySettings
import McpGateway.CircuitBreakers
import McpGateway.ToolNaming
import McpGateway.ServerRegistry
import McpGateway.RegistryRuns
import McpGateway.RateLimiting
import McpGateway.PyRuntime
import McpGateway.PiiRedactor
import McpGateway.Guardrails
import McpGateway.SchemaValidation
import McpGateway.ResultCache
import McpGateway.ToolOrchestrator
import McpGateway.GatewayRuns
import McpGateway.AuthProviders
import McpGateway.McpClient
import McpGateway.ConfigReload

/-!
# Reload and restart

What a process derives from its configuration is compared between a process
that reloads it and one that starts with it. The policies are always the same.
The registry keeps the naming and the breaker thresholds of its construction,
and a kept client keeps the credentials of its construction.
-/

namespace McpGateway.RestartEquivalence

open PyDict StepRun GatewaySettings CircuitBreakers ToolNaming ServerRegistry RegistryRuns
open RateLimiting PyRuntime PiiRedactor Guardrails SchemaValidation ResultCache ToolOrchestrator
open GatewayRuns AuthProviders McpClient ConfigReload

/-- Thresholds of a circuit breaker. -/
structure Thresholds where
  /-- Failures that open it. -/
  failureThreshold : ℤ
  /-- Seconds of refusal. -/
  recoveryTimeout : ℚ
  /-- Probe successes that close it. -/
  probeSuccesses : ℤ
  deriving DecidableEq

/-- Thresholds that a policy asks for, unless it disables breakers. -/
def policyThresholds (policy : CircuitBreakerPolicy) : Option Thresholds :=
  if policy.enabled=true then
    some ⟨policy.failureThreshold,policy.recoveryTimeout,policy.probeSuccesses⟩
  else none

/-- Thresholds of the breaker that the registry hands to the clients of an
id. -/
def breakerThresholds (reg : Registry) (sid : String) : Option Thresholds :=
  if reg.cbRegistry.policy.enabled=true then
    let breaker := (reg.cbRegistry.get sid).2
    some ⟨breaker.failureThreshold,breaker.recoveryTimeout,breaker.probeSuccesses⟩
  else none

/-- What a client built from settings derives from them. -/
structure ClientSettings where
  /-- Credential provider. -/
  authProvider : Option AuthProvider
  /-- Header under which the calling agent is forwarded. -/
  forwardAgentHeader : Option String

/-- The derived settings of a new client. -/
def clientSettings (environ : Environ) (server : UpstreamServer) : ClientSettings :=
  let client := MCPClient.new environ server none none
  ⟨client.authProvider,client.forwardAgentHeader⟩

/-- What is derived for one registered server. -/
structure ServerSettings where
  /-- Thresholds of its breaker. -/
  breaker : Option Thresholds
  /-- Settings of its client. -/
  client : ClientSettings

/-- What is derived for the server registered under an id. -/
def serverSettings (environ : Environ) (reg : Registry) (sid : String) : Option ServerSettings :=
  (reg.entries.get? sid).map (fun entry =>
    ⟨breakerThresholds reg sid,clientSettings environ entry.client.server⟩)

/-- Two processes derive the same from a configuration. -/
structure SameDerived (environ : Environ) (cfg : LoadedConfig) (app other : AppState) : Prop where
  /-- Authorizer, redactor, guardrails, schema validator, limiter and cache. -/
  policies : policies app.orchestrator=policies other.orchestrator
  /-- The authorizer of `app.state`. -/
  authorizer : app.authorizer=other.authorizer
  /-- Webhook endpoints. -/
  webhooks : app.webhooks=other.webhooks
  /-- Naming strategy and conflict policy. -/
  naming : app.registry.naming=other.registry.naming
  /-- Breaker, credentials and forwarded header of every configured server. -/
  servers : ∀ sid∈cfg.ids,
    serverSettings environ app.registry sid=serverSettings environ other.registry sid

/-- A successful synchronization of every enabled server, in key order. -/
def syncAll (manifests : String→List RawTool) (reg : Registry) : Registry :=
  reg.entries.keys.foldl (fun reg sid => match reg.startSync sid with
    | some uid => reg.finishSync sid uid (.ok (manifests sid))
    | none => reg) reg

/-- What a process must already have for a reload to equal a restart. -/
structure Restartable (environ : Environ) (app : AppState) (new : LoadedConfig) : Prop where
  /-- The naming settings are unchanged. -/
  naming : app.registry.naming=new.naming
  /-- Every configured server has a breaker with the new thresholds. -/
  breakers : ∀ server∈new.upstreams,
    breakerThresholds app.registry server.id=policyThresholds new.circuitBreaker
  /-- Every server that is updated in place is registered with a client whose
  derived settings are the new ones. -/
  clients : ∀ server∈new.upstreams, ∀ prior, app.config.configured server.id=some prior→
    ¬Reconnects prior server→∃ entry, app.registry.entries.get? server.id=some entry ∧
      clientSettings environ entry.client.server=clientSettings environ server

/-- Handing out one breaker changes no breaker that is handed out later. -/
theorem get_get (table : CircuitBreakerRegistry) (sid other : String) :
    ((table.get other).1.get sid).2=(table.get sid).2 ∧
      (table.get other).1.policy=table.policy := by
  have hpolicy : (table.get other).1.policy=table.policy := by
    unfold CircuitBreakerRegistry.get
    split <;> rfl
  refine ⟨?_,hpolicy⟩
  unfold CircuitBreakerRegistry.get
  cases ho : table.breakers.get? other with
  | some b => rfl
  | none =>
    dsimp only
    rw [Dict.get?_set]
    by_cases hs : other=sid
    · subst hs
      rw [if_pos rfl,ho]
    · rw [if_neg hs]
      split <;> rfl

/-- A registration keeps the thresholds of every breaker. -/
theorem register_thresholds (reg : Registry) (server : UpstreamServer) (sid : String) :
    breakerThresholds (reg.register server) sid=breakerThresholds reg sid := by
  have htable : (reg.register server).cbRegistry=if reg.cbRegistry.policy.enabled=true then
      (reg.cbRegistry.get server.id).1 else reg.cbRegistry := rfl
  obtain ⟨hbreaker,hpolicy⟩ := get_get reg.cbRegistry sid server.id
  unfold breakerThresholds
  rw [htable]
  by_cases he : reg.cbRegistry.policy.enabled=true
  · rw [if_pos he,hbreaker,hpolicy]
  · rw [if_neg he]

/-- The thresholds depend on the breaker table alone. -/
theorem breakerThresholds_congr {reg reg' : Registry} (h : reg'.cbRegistry=reg.cbRegistry)
    (sid : String) : breakerThresholds reg' sid=breakerThresholds reg sid := by
  unfold breakerThresholds
  rw [h]

/-- A step of a reload changes neither the naming nor any threshold. -/
theorem step_construction (rt : Runtime) (r : ReloadRun) (s : ReloadStep) (sid : String) :
    (step rt r s).app.registry.naming=r.app.registry.naming ∧
      breakerThresholds (step rt r s).app.registry sid=breakerThresholds r.app.registry sid := by
  cases s with
  | deregister serverId =>
    obtain ⟨-,-,htable,hnaming⟩ := deregister_frame r.app.registry serverId
    exact ⟨hnaming,breakerThresholds_congr htable sid⟩
  | register server => exact ⟨rfl,register_thresholds r.app.registry server sid⟩
  | update server => exact ⟨rfl,rfl⟩
  | sync serverId answer =>
    unfold ConfigReload.step
    cases r.captured with
    | none => exact ⟨rfl,rfl⟩
    | some uid =>
      obtain ⟨-,htable,hnaming⟩ := finishSync_frame r.app.registry serverId uid answer
      exact ⟨hnaming,breakerThresholds_congr htable sid⟩
  | swapPolicies cfg =>
    have hregistry : (step rt r (.swapPolicies cfg)).app.registry=r.app.registry :=
      swapPolicies_registry rt cfg.toGatewayConfig r.app.orchestrator
    rw [hregistry]
    exact ⟨rfl,rfl⟩
  | install cfg => exact ⟨rfl,rfl⟩

/-- Any steps of a reload change neither the naming nor any threshold. -/
theorem run_construction (rt : Runtime) (r : ReloadRun) (steps : List ReloadStep) (sid : String) :
    (final (step rt) r steps).app.registry.naming=r.app.registry.naming ∧
      breakerThresholds (final (step rt) r steps).app.registry sid=
        breakerThresholds r.app.registry sid := by
  refine final_invariant (I:=fun r' : ReloadRun =>
    r'.app.registry.naming=r.app.registry.naming ∧
      breakerThresholds r'.app.registry sid=breakerThresholds r.app.registry sid) ?_ ⟨rfl,rfl⟩ steps
  intro r' s h
  obtain ⟨hnaming,hthresholds⟩ := step_construction rt r' s sid
  exact ⟨hnaming.trans h.1,hthresholds.trans h.2⟩

/-- Whatever a configuration determines outside the registry is installed. -/
def Installed (rt : Runtime) (cfg : LoadedConfig) (safety : SafetyFilter) (app : AppState) :
    Prop :=
  policies app.orchestrator=loadedPolicies rt cfg safety ∧ app.authorizer=cfg.auth ∧
    app.webhooks=cfg.webhooks

/-- A completed reload installs its configuration. -/
theorem doReload_installed {rt : Runtime} {app app' : AppState} {new : LoadedConfig}
    {world : ReloadWorld} {result : ReloadResult} {safety : SafetyFilter}
    (hs : SafetyFilter.new rt new.guardrails=.ok safety)
    (h : doReload rt app new world=.ok (app',result)) : Installed rt new safety app' := by
  obtain ⟨steps,hprogram,-⟩ := program_eq app.config new world
  rw [(doReload_eq h).1,hprogram,final,List.foldl_append]
  have hpolicies := policies_swap rt new
    (final (ConfigReload.step rt) ⟨app,none⟩ steps).app.orchestrator
  rw [swapped_of_ok hs] at hpolicies
  exact ⟨hpolicies,congrArg PolicySet.authorizer hpolicies,rfl⟩

/-- A started process is a booted one with another registry, which the
registrations lead to. -/
theorem startup_eq {rt : Runtime} {cfg : LoadedConfig} {world : ReloadWorld} {now : ℚ}
    {app : AppState} {safety : SafetyFilter} (hs : SafetyFilter.new rt cfg.guardrails=.ok safety)
    (h : startup rt cfg world now=.ok app) :
    ∃ booted : AppState, app=(final (ConfigReload.step rt) ⟨booted,none⟩
        (cfg.upstreams.flatMap (serverSteps (plainConfig []) world))).app ∧
      Installed rt cfg safety booted ∧
      booted.registry=(start cfg.naming cfg.circuitBreaker).registry ∧ booted.config=cfg := by
  unfold startup boot at h
  rw [hs] at h
  cases h
  exact ⟨_,rfl,⟨rfl,rfl,rfl⟩,rfl,rfl⟩

/-- A started process has its configuration installed, and remembers it. -/
theorem startup_installed {rt : Runtime} {cfg : LoadedConfig} {world : ReloadWorld} {now : ℚ}
    {app : AppState} {safety : SafetyFilter} (hs : SafetyFilter.new rt cfg.guardrails=.ok safety)
    (h : startup rt cfg world now=.ok app) : Installed rt cfg safety app ∧ app.config=cfg := by
  obtain ⟨booted,happ,hinstalled,-,hconfig⟩ := startup_eq hs h
  have honly : ∀ s∈cfg.upstreams.flatMap (serverSteps (plainConfig []) world), OnRegistry s := by
    intro s hm
    obtain ⟨server,-,hserver⟩ := List.mem_flatMap.mp hm
    exact serverSteps_onRegistry _ world server s hserver
  obtain ⟨registry,hregistry⟩ := run_onRegistry rt ⟨booted,none⟩ honly
  rw [happ,hregistry]
  exact ⟨hinstalled,hconfig⟩

/-- The settings that a client was built from. -/
def builtFrom : ClientView→UpstreamServer
  | .kept client => client.server
  | .fresh settings => settings

/-- The view of an entry tells what its client was built from. -/
theorem builtFrom_viewEntry (first : ℕ) (entry : RegistryEntry) :
    builtFrom (viewEntry first entry).client=entry.client.server := by
  unfold viewEntry
  dsimp only
  split <;> rfl

/-- What is derived for a server can be read off its view. -/
theorem serverSettings_view (environ : Environ) (first : ℕ) (reg : Registry) (sid : String) :
    serverSettings environ reg sid=(view first sid reg).map (fun found =>
      ⟨breakerThresholds reg sid,clientSettings environ (builtFrom found.client)⟩) := by
  unfold serverSettings view
  rw [Option.map_map]
  congr 1
  funext entry
  rw [Function.comp_apply,builtFrom_viewEntry]

/-- A started process has the naming and the thresholds of its configuration. -/
theorem startup_construction {rt : Runtime} {cfg : LoadedConfig} {world : ReloadWorld} {now : ℚ}
    {app : AppState} {safety : SafetyFilter} (hs : SafetyFilter.new rt cfg.guardrails=.ok safety)
    (h : startup rt cfg world now=.ok app) (sid : String) :
    app.registry.naming=cfg.naming ∧
      breakerThresholds app.registry sid=policyThresholds cfg.circuitBreaker := by
  obtain ⟨booted,happ,-,hregistry,-⟩ := startup_eq hs h
  obtain ⟨hnaming,hthresholds⟩ := run_construction rt ⟨booted,none⟩
    (cfg.upstreams.flatMap (serverSteps (plainConfig []) world)) sid
  rw [happ,hnaming,hthresholds,hregistry]
  exact ⟨rfl,rfl⟩

/-- A started process derives the settings of each server from its
configuration. -/
theorem startup_servers {rt : Runtime} {cfg : LoadedConfig} {world : ReloadWorld} {now : ℚ}
    {app : AppState} {safety : SafetyFilter} (hs : SafetyFilter.new rt cfg.guardrails=.ok safety)
    (h : startup rt cfg world now=.ok app) (environ : Environ) {server : UpstreamServer}
    (hm : server∈cfg.upstreams) :
    serverSettings environ app.registry server.id=
      some ⟨policyThresholds cfg.circuitBreaker,clientSettings environ server⟩ := by
  obtain ⟨booted,happ,-⟩ := startup_eq hs h
  have hview : view 0 server.id app.registry=some ⟨server,.fresh server⟩ := by
    have hfind : cfg.upstreams.find? (fun s => s.id==server.id)=some server := configured_of_mem hm
    rw [happ,view_run rt server.id (Nat.zero_le _),
      servers_writes (plainConfig []) world cfg.uniqueIds,hfind]
    exact entrySteps_view none (fun s hsome => by cases hsome; rfl) _
  rw [serverSettings_view environ 0,hview,(startup_construction hs h server.id).2]
  rfl

/-- A synchronization changes nothing that is derived for a server. -/
theorem finishSync_settings (environ : Environ) (reg : Registry) (serverId : String) (uid : ℕ)
    (answer : Except String (List RawTool)) (sid : String) :
    serverSettings environ (reg.finishSync serverId uid answer) sid=
      serverSettings environ reg sid ∧
      (reg.finishSync serverId uid answer).naming=reg.naming := by
  obtain ⟨-,htable,hnaming⟩ := finishSync_frame reg serverId uid answer
  refine ⟨?_,hnaming⟩
  rw [serverSettings_view environ 0,serverSettings_view environ 0,view_finishSync,
    breakerThresholds_congr htable]

/-- Synchronizing every server changes nothing that is derived for one. -/
theorem syncAll_settings (environ : Environ) (manifests : String→List RawTool) (reg : Registry)
    (sid : String) :
    serverSettings environ (syncAll manifests reg) sid=serverSettings environ reg sid ∧
      (syncAll manifests reg).naming=reg.naming := by
  refine final_invariant (I:=fun reg' : Registry =>
    serverSettings environ reg' sid=serverSettings environ reg sid ∧ reg'.naming=reg.naming)
    ?_ ⟨rfl,rfl⟩ reg.entries.keys
  intro reg' serverId h
  split
  · rename_i uid hstart
    obtain ⟨hsettings,hnaming⟩ := finishSync_settings environ reg' serverId uid
      (.ok (manifests serverId)) sid
    exact ⟨hsettings.trans h.1,hnaming.trans h.2⟩
  · exact h

/-- A reload derives the settings of a server from its new configuration
exactly when its breaker has them already and, if it is updated in place, its
client as well. -/
theorem doReload_server_iff {rt : Runtime} {app app' : AppState} {new : LoadedConfig}
    {world : ReloadWorld} {result : ReloadResult} (environ : Environ)
    (h : doReload rt app new world=.ok (app',result)) {server : UpstreamServer}
    (hm : server∈new.upstreams) (expected : Option Thresholds) :
    serverSettings environ app'.registry server.id=
        some ⟨expected,clientSettings environ server⟩ ↔
      breakerThresholds app.registry server.id=expected ∧
      ∀ prior, app.config.configured server.id=some prior→¬Reconnects prior server→
        ∃ entry, app.registry.entries.get? server.id=some entry ∧
          clientSettings environ entry.client.server=clientSettings environ server := by
  have hthresholds : breakerThresholds app'.registry server.id=
      breakerThresholds app.registry server.id := by
    rw [(doReload_eq h).1]
    exact (run_construction rt ⟨app,none⟩ (program app.config new world) server.id).2
  rw [serverSettings_view environ app.registry.nextUid,doReload_view h,configured_of_mem hm,
    hthresholds]
  have hfresh : (some ⟨breakerThresholds app.registry server.id,clientSettings environ server⟩ :
      Option ServerSettings)=some ⟨expected,clientSettings environ server⟩ ↔
      breakerThresholds app.registry server.id=expected := by
    rw [Option.some.injEq,ServerSettings.mk.injEq]
    exact and_iff_left rfl
  cases hprior : app.config.configured server.id with
  | none => exact hfresh.trans ⟨fun hb => ⟨hb,fun prior hp => (by cases hp)⟩,fun hb => hb.1⟩
  | some prior =>
    unfold reloadedView
    dsimp only
    by_cases hr : Reconnects prior server
    · rw [if_pos hr]
      refine hfresh.trans ⟨fun hb => ⟨hb,fun other ho hn => ?_⟩,fun hb => hb.1⟩
      cases ho
      exact absurd hr hn
    · rw [if_neg hr]
      unfold view
      cases hentry : app.registry.entries.get? server.id with
      | none =>
        refine ⟨fun hnone => (by cases hnone),fun hb => ?_⟩
        obtain ⟨entry,hfound,-⟩ := hb.2 prior rfl hr
        cases hfound
      | some entry =>
        simp only [Option.map_some,builtFrom_viewEntry,Option.some.injEq,ServerSettings.mk.injEq]
        refine and_congr_right fun _ => ⟨fun hc other ho hn => ⟨entry,rfl,hc⟩,fun hb => ?_⟩
        obtain ⟨found,hfound,hc⟩ := hb prior rfl hr
        cases hfound
        exact hc

/-- After a completed reload and a synchronization of every server a process
derives what it would derive if it was started with the new configuration,
exactly when the registry has the new naming and thresholds already and every
client that is kept has the new settings already. -/
theorem equals_restart_iff (rt : Runtime) (environ : Environ) (app app' started : AppState)
    (new : LoadedConfig) (world world' : ReloadWorld) (result : ReloadResult) (now : ℚ)
    (manifests : String→List RawTool) (h : doReload rt app new world=.ok (app',result))
    (hs : startup rt new world' now=.ok started) :
    SameDerived environ new (app'.withRegistry (syncAll manifests app'.registry)) started ↔
      Restartable environ app new := by
  obtain ⟨-,safety,hsafety⟩ := doReload_eq h
  obtain ⟨hpolicies,hauthorizer,hwebhooks⟩ := doReload_installed hsafety h
  obtain ⟨⟨hpolicies',hauthorizer',hwebhooks'⟩,-⟩ := startup_installed hsafety hs
  obtain ⟨hnaming',-⟩ := startup_construction hsafety hs ""
  have hnaming : (syncAll manifests app'.registry).naming=app.registry.naming := by
    rw [(syncAll_settings environ manifests app'.registry "").2,(doReload_eq h).1]
    exact (run_construction rt ⟨app,none⟩ (program app.config new world) "").1
  have hserver : ∀ server∈new.upstreams,
      serverSettings environ (syncAll manifests app'.registry) server.id=
        serverSettings environ started.registry server.id ↔
      breakerThresholds app.registry server.id=policyThresholds new.circuitBreaker ∧
      ∀ prior, app.config.configured server.id=some prior→¬Reconnects prior server→
        ∃ entry, app.registry.entries.get? server.id=some entry ∧
          clientSettings environ entry.client.server=clientSettings environ server := by
    intro server hm
    rw [(syncAll_settings environ manifests app'.registry server.id).1,
      startup_servers hsafety hs environ hm]
    exact doReload_server_iff environ h hm _
  constructor
  · intro hsame
    have hnew : ∀ server∈new.upstreams, server.id∈new.ids :=
      fun server hm => List.mem_map_of_mem hm
    refine ⟨?_,fun server hm => ?_,fun server hm => ?_⟩
    · rw [←hnaming,←hnaming']
      exact hsame.naming
    · exact ((hserver server hm).mp (hsame.servers server.id (hnew server hm))).1
    · exact ((hserver server hm).mp (hsame.servers server.id (hnew server hm))).2
  · intro hready
    refine ⟨hpolicies.trans hpolicies'.symm,hauthorizer.trans hauthorizer'.symm,
      hwebhooks.trans hwebhooks'.symm,?_,?_⟩
    · exact hnaming.trans (hready.naming.trans hnaming'.symm)
    · intro sid hsid
      obtain ⟨server,hm,rfl⟩ := List.mem_map.mp hsid
      exact (hserver server hm).mpr ⟨hready.breakers server hm,hready.clients server hm⟩

/-- A configuration that authorizes everything, with one server. -/
def openConfig : LoadedConfig :=
  {plainConfig [plainServer "a"] (unique_plain "a") with auth := {enabled := false}}

theorem equals_restart_iff_open :
    ∃ app app' result started, startup asciiRuntime (plainConfig [plainServer "a"]) quietWorld 0=
        .ok app ∧
      doReload asciiRuntime app openConfig quietWorld=.ok (app',result) ∧
      startup asciiRuntime openConfig quietWorld 0=.ok started ∧
      SameDerived (fun _ => none) openConfig
        (app'.withRegistry (syncAll (fun _ => []) app'.registry)) started := by
  refine ⟨_,_,_,_,rfl,rfl,rfl,(equals_restart_iff asciiRuntime (fun _ => none) _ _ _ openConfig
    quietWorld quietWorld _ 0 (fun _ => []) rfl rfl).mpr ⟨rfl,fun server hm => ?_,
    fun server hm prior _ _ => ?_⟩⟩
  · rw [List.mem_singleton.mp hm]
    rfl
  · rw [List.mem_singleton.mp hm]
    exact ⟨_,rfl,rfl⟩

/-- For a process that was started with the old configuration and has done
nothing else, the conditions are on the two configurations. -/
theorem restartable_startup_iff {rt : Runtime} {old new : LoadedConfig} {world : ReloadWorld}
    {now : ℚ} {app : AppState} (environ : Environ) (h : startup rt old world now=.ok app) :
    Restartable environ app new ↔ old.naming=new.naming ∧
      (∀ server∈new.upstreams,
        policyThresholds old.circuitBreaker=policyThresholds new.circuitBreaker) ∧
      ∀ server∈new.upstreams, ∀ prior∈old.upstreams, prior.id=server.id→¬Reconnects prior server→
        clientSettings environ prior=clientSettings environ server := by
  obtain ⟨safety,hsafety⟩ : ∃ safety, SafetyFilter.new rt old.guardrails=.ok safety := by
    unfold startup boot at h
    cases hs : SafetyFilter.new rt old.guardrails with
    | error text =>
      rw [hs] at h
      cases h
    | ok safety => exact ⟨safety,rfl⟩
  have hconfig := (startup_installed hsafety h).2
  have hnaming := (startup_construction hsafety h "").1
  have hentry : ∀ prior∈old.upstreams, ∃ entry,
      app.registry.entries.get? prior.id=some entry ∧
        clientSettings environ entry.client.server=clientSettings environ prior := by
    intro prior hp
    have hsettings := startup_servers hsafety h environ hp
    obtain ⟨entry,hget,hvalue⟩ := Option.map_eq_some_iff.mp hsettings
    exact ⟨entry,hget,congrArg ServerSettings.client hvalue⟩
  constructor
  · intro hready
    refine ⟨hnaming.symm.trans hready.naming,fun server hm => ?_,
      fun server hm prior hp hid hr => ?_⟩
    · exact (startup_construction hsafety h server.id).2.symm.trans (hready.breakers server hm)
    · have hprior : app.config.configured server.id=some prior := by
        rw [hconfig,←hid]
        exact configured_of_mem hp
      obtain ⟨entry,hget,hsame⟩ := hready.clients server hm prior hprior hr
      obtain ⟨found,hfound,hbuilt⟩ := hentry prior hp
      rw [←hid,hfound] at hget
      cases hget
      exact hbuilt.symm.trans hsame
  · intro hpair
    obtain ⟨hnames,hbreakers,hclients⟩ := hpair
    refine ⟨hnaming.trans hnames,fun server hm => ?_,fun server hm prior hprior hr => ?_⟩
    · exact (startup_construction hsafety h server.id).2.trans (hbreakers server hm)
    · rw [hconfig] at hprior
      obtain ⟨hp,hid⟩ := configured_mem hprior
      obtain ⟨entry,hget,hbuilt⟩ := hentry prior hp
      rw [hid] at hget
      exact ⟨entry,hget,hbuilt.trans (hclients server hm prior hp hid hr)⟩

/-- A process is started with one configuration, reloads another one and
synchronizes; it does not derive what a process started with the other one
derives. -/
def Differs (old new : LoadedConfig) : Prop :=
  ∃ app app' result started, startup asciiRuntime old quietWorld 0=.ok app ∧
    doReload asciiRuntime app new quietWorld=.ok (app',result) ∧
    startup asciiRuntime new quietWorld 0=.ok started ∧
    ¬SameDerived (fun _ => none) new
      (app'.withRegistry (syncAll (fun _ => []) app'.registry)) started

/-- Another naming strategy, other thresholds and another forwarded header are
not carried over. -/
theorem reload_differs :
    Differs (plainConfig []) {plainConfig [] with naming := {strategy := .bare}} ∧
    Differs (plainConfig [plainServer "a"])
      {plainConfig [plainServer "a"] with circuitBreaker := {failureThreshold := 1}} ∧
    Differs (plainConfig [plainServer "a"])
      (plainConfig [{id := "a",serverAuth := some {forwardAgentIdHeader := some "X-Agent"}}]) := by
  refine ⟨⟨_,_,_,_,rfl,rfl,rfl,fun h => ?_⟩,⟨_,_,_,_,rfl,rfl,rfl,fun h => ?_⟩,
    ⟨_,_,_,_,rfl,rfl,rfl,fun h => ?_⟩⟩
  · exact absurd h.naming (by decide +kernel)
  · have hbreaker := congrArg (Option.map ServerSettings.breaker)
      (h.servers "a" (List.mem_singleton_self _))
    exact absurd hbreaker (by decide +kernel)
  · have hheader := congrArg (Option.map (fun s => s.client.forwardAgentHeader))
      (h.servers "a" (List.mem_singleton_self _))
    exact absurd hheader (by decide +kernel)

end McpGateway.RestartEquivalence
