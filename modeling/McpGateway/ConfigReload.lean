import Mathlib
import McpGateway.PyDict
import McpGateway.StepRun
import McpGateway.Interleaving
import McpGateway.GatewaySettings
import McpGateway.CircuitBreakers
import McpGateway.ToolNaming
import McpGateway.ServerRegistry
import McpGateway.RegistryRuns
import McpGateway.RateLimiting
import McpGateway.PyRuntime
import McpGateway.PiiRedactor
import McpGateway.Guardrails
import McpGateway.SchemaValidation
import McpGateway.ResultCache
import McpGateway.ToolOrchestrator
import McpGateway.CallMediation
import McpGateway.GatewayRuns

/-!
# Reloading the configuration

A reload computes its whole program from the configuration it finds and the
configuration it loads: removals, then one part for each configured server,
then the swap of the policies, then the new webhook dispatcher together with
the remembered configuration. It may be suspended between any two of these
steps. Each server id is written by at most two steps of one program, and the
entry under an id is a fold over the steps that write it.
-/

namespace McpGateway.ConfigReload

open PyDict StepRun Interleaving GatewaySettings CircuitBreakers ToolNaming ServerRegistry
open RegistryRuns RateLimiting PyRuntime PiiRedactor Guardrails SchemaValidation ResultCache ToolOrchestrator
open CallMediation GatewayRuns

/-- One webhook endpoint. -/
structure WebhookConfig where
  /-- Address of the receiver. -/
  url : String
  /-- Environment variable with the signing secret. -/
  secretEnv : Option String := none
  /-- Delivered events; an empty list delivers all of them. -/
  events : List String := []
  /-- Seconds per attempt. -/
  timeout : ℚ := 5
  /-- Attempts. -/
  maxRetries : ℤ := 3
  deriving DecidableEq

/-- A configuration that `load_gateway_config` accepts. -/
structure LoadedConfig extends GatewayConfig where
  /-- Thresholds of the circuit breakers. -/
  circuitBreaker : CircuitBreakerPolicy := {}
  /-- Webhook endpoints. -/
  webhooks : List WebhookConfig := []
  /-- `_unique_ids`. -/
  uniqueIds : (upstreams.map UpstreamServer.id).Nodup := by decide

/-- Ids of the configured servers. -/
def LoadedConfig.ids (cfg : LoadedConfig) : List String := cfg.upstreams.map UpstreamServer.id

/-- `next(s for s in upstreams if s.id == sid)`. -/
def LoadedConfig.configured (cfg : LoadedConfig) (sid : String) : Option UpstreamServer :=
  cfg.upstreams.find? (fun s => s.id==sid)

/-- The policy objects of an orchestrator. -/
structure PolicySet where
  /-- Policy of the authorizer. -/
  authorizer : AuthPolicy
  /-- Redactor. -/
  redactor : Redactor
  /-- Guardrails. -/
  safety : SafetyFilter
  /-- Schema validator. -/
  schemaValidator : Option ToolSchemaValidator
  /-- Rate limiter. -/
  rateLimiter : Option RateLimiter
  /-- Cache. -/
  cache : Option (ToolCache ToolManifest)

/-- The policy objects that are installed. -/
def policies (o : Orchestrator) : PolicySet :=
  ⟨o.authorizer,o.redactor,o.safety,o.schemaValidator,o.rateLimiter,o.cache⟩

/-- What the process keeps in `app.state`, with the endpoints of the
dispatcher that the orchestrator holds. -/
structure AppState where
  /-- `app.state.config`. -/
  config : LoadedConfig
  /-- `app.state.authorizer`. -/
  authorizer : AuthPolicy
  /-- The orchestrator with its registry. -/
  orchestrator : Orchestrator
  /-- Endpoints of the installed dispatcher. -/
  webhooks : List WebhookConfig

/-- The registry of the process. -/
def AppState.registry (app : AppState) : Registry := app.orchestrator.registry

/-- The process with another registry. -/
def AppState.withRegistry (app : AppState) (registry : Registry) : AppState :=
  {app with orchestrator := {app.orchestrator with registry := registry}}

/-- What a reload does not decide itself. -/
structure ReloadWorld where
  /-- Iteration order of a set of ids. -/
  order : List String→List String
  /-- Each element of a set is visited once. -/
  order_perm : ∀ ids, (order ids).Perm ids
  /-- Answer of each upstream to its synchronization. -/
  answers : String→Except String (List RawTool)
  /-- The current time as text. -/
  timestamp : String

/-- One step of a reload, between two points at which it may be suspended. -/
inductive ReloadStep where
  /-- `registry.deregister`. -/
  | deregister (serverId : String)
  /-- `registry.register` up to the request of its synchronization. -/
  | register (server : UpstreamServer)
  /-- The answer to that request. -/
  | sync (serverId : String) (answer : Except String (List RawTool))
  /-- The in-place update of an entry, when there is one. -/
  | update (server : UpstreamServer)
  /-- The new policy objects, as far as their construction succeeds. -/
  | swapPolicies (cfg : LoadedConfig)
  /-- The new dispatcher, the remembered configuration and the authorizer. -/
  | install (cfg : LoadedConfig)

/-- A running reload: the process and the entry that its synchronization
captured. -/
structure ReloadRun where
  /-- State of the process. -/
  app : AppState
  /-- Client identity of the captured entry. -/
  captured : Option ℕ := none

/-- One step. -/
def step (rt : Runtime) (r : ReloadRun) : ReloadStep→ReloadRun
  | .deregister serverId => {r with app := r.app.withRegistry (r.app.registry.deregister serverId)}
  | .register server =>
    let registry := r.app.registry.register server
    ⟨r.app.withRegistry registry,registry.startSync server.id⟩
  | .sync serverId answer =>
    match r.captured with
    | some uid => ⟨r.app.withRegistry (r.app.registry.finishSync serverId uid answer),none⟩
    | none => r
  | .update server => {r with app := r.app.withRegistry (r.app.registry.updateServer server)}
  | .swapPolicies cfg =>
    let orchestrator := swapPolicies rt cfg.toGatewayConfig r.app.orchestrator
    {r with app := {r.app with orchestrator := orchestrator}}
  | .install cfg =>
    {r with app := {
      config := cfg
      authorizer := r.app.orchestrator.authorizer
      orchestrator := {r.app.orchestrator with webhookDispatcher := true}
      webhooks := cfg.webhooks}}

/-- Whether a server kept by the new configuration needs a new session. -/
def Reconnects (old server : UpstreamServer) : Prop :=
  old.baseUrl≠server.baseUrl ∨ old.transport≠server.transport

instance (old server : UpstreamServer) : Decidable (Reconnects old server) :=
  inferInstanceAs (Decidable (_ ∨ _))

/-- A server that is kept is compared with a third one as the one it replaces
is. -/
theorem reconnects_kept {prior serverA : UpstreamServer} (h : ¬Reconnects prior serverA)
    (serverB : UpstreamServer) : Reconnects prior serverB ↔ Reconnects serverA serverB := by
  have hurl : prior.baseUrl=serverA.baseUrl := not_not.mp (fun hne => h (Or.inl hne))
  have htransport : prior.transport=serverA.transport :=
    not_not.mp (fun hne => h (Or.inr hne))
  unfold Reconnects
  rw [hurl,htransport]

/-- The part of the program for one server of the new configuration. An id
that the old configuration lacks is an added one. -/
def serverSteps (old : LoadedConfig) (world : ReloadWorld) (server : UpstreamServer) :
    List ReloadStep :=
  match old.configured server.id with
  | none => [.register server,.sync server.id (world.answers server.id)]
  | some prior =>
    if Reconnects prior server then
      [.deregister server.id,.register server,.sync server.id (world.answers server.id)]
    else [.update server]

/-- The program of a reload, fixed when it loads the new configuration. -/
def program (old new : LoadedConfig) (world : ReloadWorld) : List ReloadStep :=
  let removed := old.ids.filter (fun sid => decide (sid∉new.ids))
  (world.order removed).map .deregister++new.upstreams.flatMap (serverSteps old world)++
    [.swapPolicies new,.install new]

/-- What a reload reports. -/
structure ReloadResult where
  /-- `reloaded_at`. -/
  reloadedAt : String
  /-- `upstreams_added`. -/
  upstreamsAdded : List String
  /-- `upstreams_removed`. -/
  upstreamsRemoved : List String
  /-- `upstreams_updated`. -/
  upstreamsUpdated : List String

/-- The report on a pair of configurations. -/
def reloadResult (old new : LoadedConfig) (world : ReloadWorld) : ReloadResult where
  reloadedAt := world.timestamp
  upstreamsAdded := world.order (new.ids.filter (fun sid => decide (sid∉old.ids)))
  upstreamsRemoved := world.order (old.ids.filter (fun sid => decide (sid∉new.ids)))
  upstreamsUpdated := world.order (old.ids.filter (fun sid => decide (sid∈new.ids)))

/-- `_do_reload` without other activity, unless a guardrail pattern does not
compile. -/
def doReload (rt : Runtime) (app : AppState) (new : LoadedConfig) (world : ReloadWorld) :
    Except String (AppState×ReloadResult) :=
  (SafetyFilter.new rt new.guardrails).map (fun _ =>
    ((final (step rt) ⟨app,none⟩ (program app.config new world)).app,
      reloadResult app.config new world))

/-- Startup: the components, then one registration for each server. -/
def startup (rt : Runtime) (cfg : LoadedConfig) (world : ReloadWorld) (now : ℚ) :
    Except String AppState :=
  (boot rt cfg.toGatewayConfig cfg.circuitBreaker now).map (fun g =>
    (final (step rt) ⟨⟨cfg,cfg.auth,g.orchestrator,cfg.webhooks⟩,none⟩
      (cfg.upstreams.flatMap (fun server =>
        [.register server,.sync server.id (world.answers server.id)]))).app)

/-- The policy objects that a configuration asks for, besides the guardrails,
whose construction may fail. -/
def loadedPolicies (rt : Runtime) (cfg : LoadedConfig) (safety : SafetyFilter) : PolicySet where
  authorizer := cfg.auth
  redactor := Redactor.new rt cfg.redaction
  safety := safety
  schemaValidator := some
    ⟨cfg.schemaValidation.enabled,cfg.schemaValidation.strictOnMissingSchema⟩
  rateLimiter := some {cfg := cfg.rateLimiting}
  cache := some {cfg := cfg.cache}

/-- What a swap makes of the policy objects. A pattern that does not compile
leaves all but the authorizer and the redactor. -/
def swapped (rt : Runtime) (cfg : LoadedConfig) (found : PolicySet) : PolicySet :=
  match SafetyFilter.new rt cfg.guardrails with
  | .error _ => {found with authorizer := cfg.auth,redactor := Redactor.new rt cfg.redaction}
  | .ok safety => loadedPolicies rt cfg safety

/-- The policy objects after a swap depend on those before it alone. -/
theorem policies_swap (rt : Runtime) (cfg : LoadedConfig) (o : Orchestrator) :
    policies (swapPolicies rt cfg.toGatewayConfig o)=swapped rt cfg (policies o) := by
  unfold swapPolicies swapped
  cases SafetyFilter.new rt cfg.guardrails <;> rfl

/-- With patterns that compile a swap installs what the configuration asks
for. -/
theorem swapped_of_ok {rt : Runtime} {cfg : LoadedConfig} {safety : SafetyFilter}
    (h : SafetyFilter.new rt cfg.guardrails=.ok safety) (found : PolicySet) :
    swapped rt cfg found=loadedPolicies rt cfg safety := by
  unfold swapped
  rw [h]

/-- A client told apart by when it was built. -/
inductive ClientView where
  /-- Built before the moment of comparison. -/
  | kept (client : ClientRef)
  /-- Built since then, for these settings. -/
  | fresh (settings : UpstreamServer)

/-- An entry without what synchronizations change. -/
structure EntryView where
  /-- Current settings. -/
  server : UpstreamServer
  /-- Its client. -/
  client : ClientView

/-- The view of an entry, where identities from the given one on are new. -/
def viewEntry (first : ℕ) (entry : RegistryEntry) : EntryView :=
  ⟨entry.server,if entry.client.uid<first then .kept entry.client else .fresh entry.client.server⟩

/-- The view of what is registered under an id. -/
def view (first : ℕ) (sid : String) (reg : Registry) : Option EntryView :=
  (reg.entries.get? sid).map (viewEntry first)

/-- The settings registered under an id. -/
def registered (app : AppState) (sid : String) : Option UpstreamServer :=
  (app.registry.entries.get? sid).map RegistryEntry.server

/-- What a step makes of the entry under an id. -/
def write (sid : String) (found : Option EntryView) : ReloadStep→Option EntryView
  | .deregister serverId => if serverId=sid then none else found
  | .register server => if server.id=sid then some ⟨server,.fresh server⟩ else found
  | .update server =>
    if server.id=sid then found.map (fun e => {e with server := server}) else found
  | _ => found

/-- The id whose entry a step creates, removes or updates. -/
def written : ReloadStep→Option String
  | .deregister serverId => some serverId
  | .register server => some server.id
  | .update server => some server.id
  | _ => none

/-- The step writes the entry under an id. -/
def writes (sid : String) (s : ReloadStep) : Bool := decide (written s=some sid)

/-- Settings do not depend on the moment of comparison. -/
theorem registered_view (first : ℕ) (app : AppState) (sid : String) :
    registered app sid=(view first sid app.registry).map EntryView.server := by
  unfold registered view
  rw [Option.map_map]
  rfl

/-- A step that does not write an id leaves its view alone. -/
theorem write_other {sid : String} {s : ReloadStep} (h : writes sid s=false)
    (found : Option EntryView) : write sid found s=found := by
  have hne : written s≠some sid := of_decide_eq_false h
  cases s with
  | deregister serverId => exact if_neg (fun he => hne (congrArg some he))
  | register server => exact if_neg (fun he => hne (congrArg some he))
  | update server => exact if_neg (fun he => hne (congrArg some he))
  | sync serverId answer => rfl
  | swapPolicies cfg => rfl
  | install cfg => rfl

/-- A removal empties the entry of its id. -/
theorem write_deregister (sid : String) (found : Option EntryView) :
    write sid found (.deregister sid)=none := if_pos rfl

/-- A registration replaces the entry of its id. -/
theorem write_register {sid : String} {server : UpstreamServer} (hid : server.id=sid)
    (found : Option EntryView) :
    write sid found (.register server)=some ⟨server,.fresh server⟩ := if_pos hid

/-- An update changes the entry of its id, if there is one. -/
theorem write_update {sid : String} {server : UpstreamServer} (hid : server.id=sid)
    (found : Option EntryView) :
    write sid found (.update server)=found.map (fun e => {e with server := server}) := if_pos hid

/-- Only the steps that write an id matter for its view. -/
theorem foldl_writes (sid : String) (steps : List ReloadStep) (found : Option EntryView) :
    steps.foldl (write sid) found=(steps.filter (writes sid)).foldl (write sid) found :=
  foldl_relevant (fun found _ h => write_other h found) found steps

/-- A synchronization keeps settings and clients. -/
theorem view_finishSync (first : ℕ) (sid serverId : String) (reg : Registry) (uid : ℕ)
    (answer : Except String (List RawTool)) :
    view first sid (reg.finishSync serverId uid answer)=view first sid reg := by
  unfold view
  rcases finishSync_cases reg serverId uid answer with ⟨entry,hg,-,hentries⟩ | ⟨-,hentries⟩
  · obtain ⟨hserver,hclient⟩ := syncEntry_frame reg.naming reg.entries entry answer
    rw [hentries,Dict.get?_set]
    split
    · rename_i he
      rw [←he,hg,Option.map_some,Option.map_some]
      unfold viewEntry
      rw [hserver,hclient]
    · rfl
  · rw [hentries]

/-- Deregistering a server removes its view. -/
theorem view_deregister (first : ℕ) (sid serverId : String) (reg : Registry) :
    view first sid (reg.deregister serverId)=
      if serverId=sid then none else view first sid reg := by
  obtain ⟨hentries,-,-,-⟩ := deregister_frame reg serverId
  unfold view
  rw [hentries,Dict.get?_pop]
  by_cases h : serverId=sid
  · simp only [if_pos h,Option.map_none]
  · simp only [if_neg h]

/-- Registering a server replaces its view by that of a new entry. -/
theorem view_register {first : ℕ} (sid : String) (server : UpstreamServer) {reg : Registry}
    (hn : first≤reg.nextUid) :
    view first sid (reg.register server)=write sid (view first sid reg) (.register server) := by
  unfold view write Registry.register
  dsimp only
  rw [Dict.get?_set]
  split
  · rw [Option.map_some]
    unfold viewEntry
    dsimp only
    rw [if_neg (Nat.not_lt.mpr hn)]
  · rfl

/-- Updating a server changes the server of its view. -/
theorem view_updateServer (first : ℕ) (sid : String) (server : UpstreamServer) (reg : Registry) :
    view first sid (reg.updateServer server)=
      write sid (view first sid reg) (.update server) := by
  unfold view write Registry.updateServer
  dsimp only
  rw [Dict.get?_modify]
  split
  · rename_i he
    rw [he,Option.map_map,Option.map_map]
    rfl
  · rfl

/-- One step writes the view of an id, and hands out identities in order. -/
theorem view_step (rt : Runtime) {first : ℕ} (sid : String) {r : ReloadRun}
    (hn : first≤r.app.registry.nextUid) (s : ReloadStep) :
    view first sid (step rt r s).app.registry=write sid (view first sid r.app.registry) s ∧
      first≤(step rt r s).app.registry.nextUid := by
  cases s with
  | deregister serverId =>
    obtain ⟨-,huid,-,-⟩ := deregister_frame r.app.registry serverId
    have hregistry : (step rt r (.deregister serverId)).app.registry=
        r.app.registry.deregister serverId := rfl
    rw [hregistry,huid]
    exact ⟨view_deregister first sid serverId r.app.registry,hn⟩
  | register server =>
    have hregistry : (step rt r (.register server)).app.registry=
        r.app.registry.register server := rfl
    rw [hregistry]
    exact ⟨view_register sid server hn,Nat.le_succ_of_le hn⟩
  | update server =>
    have hregistry : (step rt r (.update server)).app.registry=
        r.app.registry.updateServer server := rfl
    rw [hregistry]
    exact ⟨view_updateServer first sid server r.app.registry,hn⟩
  | sync serverId answer =>
    unfold step
    cases r.captured with
    | none => exact ⟨rfl,hn⟩
    | some uid =>
      have hframe := finishSync_frame r.app.registry serverId uid answer
      exact ⟨view_finishSync first sid serverId r.app.registry uid answer,
        le_of_le_of_eq hn hframe.1.symm⟩
  | swapPolicies cfg =>
    have hregistry : (step rt r (.swapPolicies cfg)).app.registry=r.app.registry :=
      swapPolicies_registry rt cfg.toGatewayConfig r.app.orchestrator
    rw [hregistry]
    exact ⟨rfl,hn⟩
  | install cfg => exact ⟨rfl,hn⟩

/-- The view of an id after any steps is the fold of its writes. -/
theorem view_run (rt : Runtime) {first : ℕ} (sid : String) {r : ReloadRun}
    (hn : first≤r.app.registry.nextUid) (steps : List ReloadStep) :
    view first sid (final (step rt) r steps).app.registry=
      (steps.filter (writes sid)).foldl (write sid) (view first sid r.app.registry) := by
  rw [←foldl_writes]
  induction steps generalizing r with
  | nil => rfl
  | cons s rest ih =>
    obtain ⟨hview,hnext⟩ := view_step rt sid hn s
    rw [List.foldl_cons,←hview]
    exact ih hnext

/-- An id without a configured server is no configured id. -/
theorem configured_eq_none {cfg : LoadedConfig} {sid : String} :
    cfg.configured sid=none ↔ sid∉cfg.ids := by
  unfold LoadedConfig.configured LoadedConfig.ids
  rw [List.find?_eq_none,List.mem_map]
  constructor
  · intro h hm
    obtain ⟨server,hs,hid⟩ := hm
    exact h server hs (beq_iff_eq.mpr hid)
  · intro h server hs hid
    exact h ⟨server,hs,beq_iff_eq.mp hid⟩

/-- The configured server of an id is one of the servers and has this id. -/
theorem configured_mem {cfg : LoadedConfig} {sid : String} {server : UpstreamServer}
    (h : cfg.configured sid=some server) : server∈cfg.upstreams ∧ server.id=sid := by
  have hid := List.find?_some (p:=fun s : UpstreamServer => s.id==sid) h
  exact ⟨List.mem_of_find?_eq_some h,beq_iff_eq.mp hid⟩

/-- The first server with an id of a list of distinct ids is the only one. -/
theorem find_of_mem {servers : List UpstreamServer} (hn : (servers.map UpstreamServer.id).Nodup)
    {server : UpstreamServer} (h : server∈servers) :
    servers.find? (fun s => s.id==server.id)=some server := by
  induction servers with
  | nil => exact absurd h List.not_mem_nil
  | cons head rest ih =>
    rw [List.map_cons,List.nodup_cons] at hn
    rcases List.mem_cons.mp h with rfl | hr
    · exact List.find?_cons_of_pos (beq_self_eq_true _)
    · have hne : head.id≠server.id := fun he => hn.1 (he ▸ List.mem_map_of_mem hr)
      rw [List.find?_cons_of_neg (p:=fun s : UpstreamServer => s.id==server.id)
        (fun he => hne (beq_iff_eq.mp he))]
      exact ih hn.2 hr

/-- Every server is the configured one of its id. -/
theorem configured_of_mem {cfg : LoadedConfig} {server : UpstreamServer}
    (h : server∈cfg.upstreams) : cfg.configured server.id=some server :=
  find_of_mem cfg.uniqueIds h

/-- What a reload does with the entry of one id. -/
def entrySteps (sid : String) : Option UpstreamServer→Option UpstreamServer→List ReloadStep
  | none,none => []
  | some _,none => [.deregister sid]
  | none,some server => [.register server]
  | some prior,some server =>
    if Reconnects prior server then [.deregister sid,.register server] else [.update server]

/-- The steps for a server that is reconnected. -/
theorem entrySteps_reconnects {sid : String} {prior server : UpstreamServer}
    (h : Reconnects prior server) :
    entrySteps sid (some prior) (some server)=[.deregister sid]++[.register server] := if_pos h

/-- The steps for a server that is kept. -/
theorem entrySteps_kept {sid : String} {prior server : UpstreamServer}
    (h : ¬Reconnects prior server) :
    entrySteps sid (some prior) (some server)=[]++[.update server] := if_neg h

/-- Of the removals of distinct ids, one writes an id that is removed. -/
theorem removals_writes {removed : List String} (hn : removed.Nodup) (sid : String) :
    (removed.map ReloadStep.deregister).filter (writes sid)=
      if sid∈removed then [.deregister sid] else [] := by
  induction removed with
  | nil => rfl
  | cons head rest ih =>
    obtain ⟨hhead,hrest⟩ := List.nodup_cons.mp hn
    rw [List.map_cons]
    by_cases hs : head=sid
    · subst hs
      have hw : writes head (.deregister head)=true := decide_eq_true rfl
      rw [List.filter_cons_of_pos hw,ih hrest,if_neg hhead,if_pos List.mem_cons_self]
    · have hw : writes sid (.deregister head)=false :=
        decide_eq_false (fun he => hs (Option.some.inj he))
      rw [List.filter_cons_of_neg (by rw [hw]; exact Bool.noConfusion),ih hrest]
      simp only [List.mem_cons,Ne.symm hs,false_or]

/-- The part of one server writes its own id. -/
theorem serverSteps_writes (old : LoadedConfig) (world : ReloadWorld) (server : UpstreamServer)
    (sid : String) :
    (serverSteps old world server).filter (writes sid)=
      if server.id=sid then entrySteps sid (old.configured sid) (some server) else [] := by
  by_cases hs : server.id=sid
  · subst hs
    rw [if_pos rfl]
    unfold serverSteps
    cases hc : old.configured server.id with
    | none => simp [entrySteps,writes,written]
    | some prior =>
      unfold entrySteps
      dsimp only
      split <;> simp [writes,written]
  · rw [if_neg hs]
    unfold serverSteps
    cases hc : old.configured server.id with
    | none => simp [writes,written,hs]
    | some prior =>
      dsimp only
      split <;> simp [writes,written,hs]

/-- Of the parts of servers with distinct ids, one writes an id that is
configured. -/
theorem servers_writes (old : LoadedConfig) (world : ReloadWorld)
    {servers : List UpstreamServer} (hn : (servers.map UpstreamServer.id).Nodup) (sid : String) :
    (servers.flatMap (serverSteps old world)).filter (writes sid)=
      match servers.find? (fun s => s.id==sid) with
      | none => []
      | some server => entrySteps sid (old.configured sid) (some server) := by
  induction servers with
  | nil => rfl
  | cons head rest ih =>
    rw [List.map_cons,List.nodup_cons] at hn
    rw [List.flatMap_cons,List.filter_append,serverSteps_writes,ih hn.2]
    by_cases hs : head.id=sid
    · have hnone : rest.find? (fun s => s.id==sid)=none := by
        rw [List.find?_eq_none]
        intro server hm hid
        exact hn.1 (hs.trans (beq_iff_eq.mp hid).symm ▸ List.mem_map_of_mem hm)
      rw [if_pos hs,List.find?_cons_of_pos (p:=fun s : UpstreamServer => s.id==sid)
        (beq_iff_eq.mpr hs),hnone]
      exact List.append_nil _
    · rw [if_neg hs,List.find?_cons_of_neg (p:=fun s : UpstreamServer => s.id==sid)
        (fun he => hs (beq_iff_eq.mp he)),List.nil_append]

/-- The steps of a reload that write an id are those for its two configured
servers. -/
theorem program_writes (old new : LoadedConfig) (world : ReloadWorld) (sid : String) :
    (program old new world).filter (writes sid)=
      entrySteps sid (old.configured sid) (new.configured sid) := by
  have hperm := world.order_perm (old.ids.filter (fun sid => decide (sid∉new.ids)))
  have hnodup := hperm.nodup_iff.mpr (old.uniqueIds.filter (fun sid => decide (sid∉new.ids)))
  have hmem : sid∈world.order (old.ids.filter (fun sid => decide (sid∉new.ids))) ↔
      sid∈old.ids ∧ sid∉new.ids := by
    rw [hperm.mem_iff,List.mem_filter,decide_eq_true_iff]
  unfold program
  dsimp only
  rw [List.filter_append,List.filter_append,removals_writes hnodup,
    servers_writes old world new.uniqueIds]
  simp only [hmem]
  have htail : [ReloadStep.swapPolicies new,.install new].filter (writes sid)=[] := rfl
  rw [htail,List.append_nil]
  have hnew : new.upstreams.find? (fun s => s.id==sid)=new.configured sid := rfl
  rw [hnew]
  cases hn : new.configured sid with
  | some server =>
    have hin : sid∈new.ids := by
      by_contra hout
      rw [configured_eq_none.mpr hout] at hn
      cases hn
    rw [if_neg (fun h => h.2 hin)]
    rfl
  | none =>
    have hout := configured_eq_none.mp hn
    cases ho : old.configured sid with
    | none =>
      rw [if_neg (fun h => configured_eq_none.mp ho h.1)]
      rfl
    | some prior =>
      obtain ⟨hprior,hid⟩ := configured_mem ho
      rw [if_pos ⟨hid ▸ List.mem_map_of_mem hprior,hout⟩]
      rfl

/-- What a reload makes of the entry of one id. -/
def reloadedView : Option UpstreamServer→Option UpstreamServer→Option EntryView→
    Option EntryView
  | none,none,found => found
  | some _,none,_ => none
  | none,some server,_ => some ⟨server,.fresh server⟩
  | some prior,some server,found =>
    if Reconnects prior server then some ⟨server,.fresh server⟩
    else found.map (fun e => {e with server := server})

/-- A reload that reconnects a server replaces its entry. -/
theorem reloadedView_reconnects {prior server : UpstreamServer} (h : Reconnects prior server)
    (found : Option EntryView) :
    reloadedView (some prior) (some server) found=some ⟨server,.fresh server⟩ := if_pos h

/-- A reload that keeps a server changes its entry, if there is one. -/
theorem reloadedView_kept {prior server : UpstreamServer} (h : ¬Reconnects prior server)
    (found : Option EntryView) :
    reloadedView (some prior) (some server) found=
      found.map (fun e => {e with server := server}) := if_neg h

/-- The steps for one id make of its entry what the reload makes of it. -/
theorem entrySteps_view {sid : String} (old : Option UpstreamServer)
    {new : Option UpstreamServer} (hid : ∀ server, new=some server→server.id=sid)
    (found : Option EntryView) :
    (entrySteps sid old new).foldl (write sid) found=reloadedView old new found := by
  cases new with
  | none =>
    cases old with
    | none => rfl
    | some prior => exact write_deregister sid found
  | some server =>
    have hserver := hid server rfl
    cases old with
    | none => exact write_register hserver found
    | some prior =>
      by_cases hr : Reconnects prior server
      · rw [entrySteps_reconnects hr,reloadedView_reconnects hr]
        exact write_register hserver _
      · rw [entrySteps_kept hr,reloadedView_kept hr]
        exact write_update hserver found

/-- A program writes each id as the reload of its two configured servers. -/
theorem program_fold (old new : LoadedConfig) (world : ReloadWorld) (sid : String)
    (found : Option EntryView) :
    (program old new world).foldl (write sid) found=
      reloadedView (old.configured sid) (new.configured sid) found := by
  rw [foldl_writes,program_writes]
  exact entrySteps_view _ (fun server hs => (configured_mem hs).2) _

/-- A reload acts on each id by itself, through its two configured servers. -/
theorem program_view (rt : Runtime) {first : ℕ} (sid : String) {r : ReloadRun}
    (hn : first≤r.app.registry.nextUid) (old new : LoadedConfig) (world : ReloadWorld) :
    view first sid (final (step rt) r (program old new world)).app.registry=
      reloadedView (old.configured sid) (new.configured sid)
        (view first sid r.app.registry) := by
  rw [view_run rt sid hn,←foldl_writes]
  exact program_fold old new world sid _

/-- The id that a step is about. -/
def concerned : ReloadStep→Option String
  | .sync serverId _ => some serverId
  | s => written s

/-- A step leaves the entries of all other ids alone. -/
theorem step_other (rt : Runtime) (r : ReloadRun) {s : ReloadStep} {sid : String}
    (h : concerned s≠some sid) :
    (step rt r s).app.registry.entries.get? sid=r.app.registry.entries.get? sid := by
  cases s with
  | deregister serverId =>
    have hne : serverId≠sid := fun he => h (congrArg some he)
    have hentries := (deregister_frame r.app.registry serverId).1
    have hget : (r.app.registry.deregister serverId).entries.get? sid=
        r.app.registry.entries.get? sid := by
      rw [hentries,Dict.get?_pop,if_neg hne]
    exact hget
  | register server =>
    have hne : server.id≠sid := fun he => h (congrArg some he)
    exact Dict.get?_set_other _ hne _
  | update server =>
    have hne : server.id≠sid := fun he => h (congrArg some he)
    exact (Dict.get?_modify _ _ _ _).trans (if_neg hne)
  | sync serverId answer =>
    have hne : serverId≠sid := fun he => h (congrArg some he)
    unfold step
    cases r.captured with
    | none => rfl
    | some uid => exact finishSync_other r.app.registry hne uid answer
  | swapPolicies cfg =>
    have hregistry : (step rt r (.swapPolicies cfg)).app.registry=r.app.registry :=
      swapPolicies_registry rt cfg.toGatewayConfig r.app.orchestrator
    rw [hregistry]
  | install cfg => rfl

/-- Steps about other ids leave an entry alone. -/
theorem run_other (rt : Runtime) (r : ReloadRun) {steps : List ReloadStep} {sid : String}
    (h : ∀ s∈steps, concerned s≠some sid) :
    (final (step rt) r steps).app.registry.entries.get? sid=
      r.app.registry.entries.get? sid := by
  induction steps generalizing r with
  | nil => rfl
  | cons s rest ih =>
    have hrest := ih (step rt r s) (fun t ht => h t (List.mem_cons_of_mem _ ht))
    exact hrest.trans (step_other rt r (h s List.mem_cons_self))

/-- A reload is about configured ids only. -/
theorem program_concerned {old new : LoadedConfig} {world : ReloadWorld} {s : ReloadStep}
    (h : s∈program old new world) {sid : String} (hc : concerned s=some sid) :
    sid∈old.ids ∨ sid∈new.ids := by
  unfold program at h
  dsimp only at h
  rcases List.mem_append.mp h with h | h
  · rcases List.mem_append.mp h with h | h
    · obtain ⟨serverId,hm,rfl⟩ := List.mem_map.mp h
      cases hc
      have hremoved := (world.order_perm _).mem_iff.mp hm
      exact Or.inl (List.mem_filter.mp hremoved).1
    · obtain ⟨server,hm,hs⟩ := List.mem_flatMap.mp h
      have hid : concerned s=some server.id := by
        unfold serverSteps at hs
        split at hs
        · rcases List.mem_pair.mp hs with rfl | rfl <;> rfl
        · split at hs
          · rcases List.mem_cons.mp hs with rfl | hs
            · rfl
            · rcases List.mem_pair.mp hs with rfl | rfl <;> rfl
          · rw [List.mem_singleton.mp hs]
            rfl
      rw [hc] at hid
      exact Or.inr (Option.some.inj hid ▸ List.mem_map_of_mem hm)
  · rcases List.mem_pair.mp h with rfl | rfl <;> cases hc

/-- Every step is a registry operation or none, and keeps entries under their
ids. -/
theorem keyed_reload (rt : Runtime) (r : ReloadRun) (s : ReloadStep) (h : Keyed r.app.registry) :
    Keyed (step rt r s).app.registry := by
  cases s with
  | deregister serverId => exact keyed_step ⟨r.app.registry,[]⟩ (.deregister serverId) h
  | register server => exact keyed_step ⟨r.app.registry,[]⟩ (.register server) h
  | update server => exact keyed_step ⟨r.app.registry,[]⟩ (.updateServer server) h
  | sync serverId answer =>
    unfold step
    cases r.captured with
    | none => exact h
    | some uid => exact keyed_step ⟨r.app.registry,[(serverId,uid)]⟩ (.syncFinish 0 answer) h
  | swapPolicies cfg =>
    have hregistry : (step rt r (.swapPolicies cfg)).app.registry=r.app.registry :=
      swapPolicies_registry rt cfg.toGatewayConfig r.app.orchestrator
    rw [hregistry]
    exact h
  | install cfg => exact h

/-- A completed reload is the run of its program. -/
theorem doReload_eq {rt : Runtime} {app app' : AppState} {new : LoadedConfig}
    {world : ReloadWorld} {result : ReloadResult}
    (h : doReload rt app new world=.ok (app',result)) :
    app'=(final (step rt) ⟨app,none⟩ (program app.config new world)).app ∧
      ∃ safety, SafetyFilter.new rt new.guardrails=.ok safety := by
  unfold doReload at h
  cases hs : SafetyFilter.new rt new.guardrails with
  | error text =>
    rw [hs] at h
    cases h
  | ok safety =>
    rw [hs] at h
    cases h
    exact ⟨rfl,safety,rfl⟩

/-- What a completed reload makes of each id. -/
theorem doReload_view {rt : Runtime} {app app' : AppState} {new : LoadedConfig}
    {world : ReloadWorld} {result : ReloadResult}
    (h : doReload rt app new world=.ok (app',result)) (sid : String) :
    view app.registry.nextUid sid app'.registry=
      reloadedView (app.config.configured sid) (new.configured sid)
        (view app.registry.nextUid sid app.registry) := by
  rw [(doReload_eq h).1]
  exact program_view rt sid (le_refl _) app.config new world

/-- A reload remembers the configuration it loaded. -/
theorem program_config (rt : Runtime) (r : ReloadRun) (old new : LoadedConfig)
    (world : ReloadWorld) : (final (step rt) r (program old new world)).app.config=new := by
  unfold program final
  rw [List.foldl_append]
  rfl

/-- The step works on the registry alone. -/
def OnRegistry : ReloadStep→Prop
  | .swapPolicies _ => False
  | .install _ => False
  | _ => True

/-- A registry step changes nothing else of the process. -/
theorem step_onRegistry (rt : Runtime) (r : ReloadRun) {s : ReloadStep} (h : OnRegistry s) :
    ∃ registry, (step rt r s).app=r.app.withRegistry registry := by
  cases s with
  | deregister serverId => exact ⟨_,rfl⟩
  | register server => exact ⟨_,rfl⟩
  | update server => exact ⟨_,rfl⟩
  | sync serverId answer =>
    unfold step
    cases r.captured with
    | none => exact ⟨r.app.registry,rfl⟩
    | some uid => exact ⟨_,rfl⟩
  | swapPolicies cfg => exact h.elim
  | install cfg => exact h.elim

/-- Registry steps change nothing else of the process. -/
theorem run_onRegistry (rt : Runtime) (r : ReloadRun) {steps : List ReloadStep}
    (h : ∀ s∈steps, OnRegistry s) :
    ∃ registry, (final (step rt) r steps).app=r.app.withRegistry registry := by
  induction steps generalizing r with
  | nil => exact ⟨r.app.registry,rfl⟩
  | cons s rest ih =>
    obtain ⟨first,hfirst⟩ := step_onRegistry rt r (h s List.mem_cons_self)
    obtain ⟨later,hlater⟩ := ih (step rt r s) (fun t ht => h t (List.mem_cons_of_mem _ ht))
    refine ⟨later,hlater.trans ?_⟩
    rw [hfirst]
    rfl

/-- The part of one server works on the registry alone. -/
theorem serverSteps_onRegistry (old : LoadedConfig) (world : ReloadWorld)
    (server : UpstreamServer) : ∀ s∈serverSteps old world server, OnRegistry s := by
  intro s hs
  unfold serverSteps at hs
  split at hs
  · rcases List.mem_pair.mp hs with rfl | rfl <;> trivial
  · split at hs
    · rcases List.mem_cons.mp hs with rfl | hs
      · trivial
      · rcases List.mem_pair.mp hs with rfl | rfl <;> trivial
    · rw [List.mem_singleton.mp hs]
      trivial

/-- A reload works on the registry, then swaps the policies, then installs. -/
theorem program_eq (old new : LoadedConfig) (world : ReloadWorld) :
    ∃ steps, program old new world=steps++[.swapPolicies new,.install new] ∧
      ∀ s∈steps, OnRegistry s := by
  refine ⟨_,rfl,fun s hs => ?_⟩
  rcases List.mem_append.mp hs with hs | hs
  · obtain ⟨serverId,-,rfl⟩ := List.mem_map.mp hs
    trivial
  · obtain ⟨server,-,hm⟩ := List.mem_flatMap.mp hs
    exact serverSteps_onRegistry old world server s hm

/-- A proper initial part of a list that ends with two elements lacks the last
one, and the one before as well unless it is everything else. -/
theorem take_cases {α : Type} (l : List α) (a b : α) {n : ℕ} (hn : n<(l++[a,b]).length) :
    (l++[a,b]).take n=l.take n ∨ (l++[a,b]).take n=l++[a] := by
  have hlength : (l++[a,b]).length=l.length+2 := by rw [List.length_append]; rfl
  by_cases hle : n≤l.length
  · exact Or.inl (List.take_append_of_le_length hle)
  · have heq : n=l.length+1 := by omega
    right
    rw [heq,List.take_length_add_append]
    rfl

/-- A reload that has not finished has executed registry steps, perhaps
followed by the swap of the policies. -/
theorem executed_eq {old new : LoadedConfig} {world : ReloadWorld} {n : ℕ}
    (hn : n<(program old new world).length) :
    ∃ steps, (∀ s∈steps, OnRegistry s) ∧ ((program old new world).take n=steps ∨
      (program old new world).take n=steps++[.swapPolicies new]) := by
  obtain ⟨steps,hprogram,honly⟩ := program_eq old new world
  rw [hprogram] at hn ⊢
  rcases take_cases steps (.swapPolicies new) (.install new) hn with htake | htake
  · exact ⟨steps.take n,fun s hs => honly s (List.mem_of_mem_take hs),Or.inl htake⟩
  · exact ⟨steps,honly,Or.inr htake⟩

/-- Sets are visited in the given order and no upstream has tools. -/
def quietWorld : ReloadWorld where
  order := fun ids => ids
  order_perm := fun ids => List.Perm.refl ids
  answers := fun _ => .ok []
  timestamp := ""

/-- A configuration with default policies. -/
def plainConfig (upstreams : List UpstreamServer)
    (h : (upstreams.map UpstreamServer.id).Nodup := by decide) : LoadedConfig where
  upstreams := upstreams
  uniqueIds := h

/-- The ids of a single server are distinct. -/
theorem unique_plain (id : String) : ([plainServer id].map UpstreamServer.id).Nodup :=
  List.nodup_singleton id

/-- A process with default policies that remembers a configuration, after some
registry operations. -/
def plainApp (cfg : LoadedConfig) (actions : List RegistryAction) : AppState where
  config := cfg
  authorizer := {}
  orchestrator := plainOrchestrator actions
  webhooks := []

end McpGateway.ConfigReload
