import Mathlib
import McpGateway.PyDict
import McpGateway.StepRun
import McpGateway.GatewaySettings
import McpGateway.ToolNaming
import McpGateway.ServerRegistry
import McpGateway.RegistryRuns
import McpGateway.PyRuntime
import McpGateway.PiiRedactor
import McpGateway.Guardrails
import McpGateway.ToolOrchestrator
import McpGateway.CallMediation
import McpGateway.GatewayRuns
import McpGateway.ConfigReload

/-!
# Interrupted reloads

A reload that raises has executed an initial part of its program: an await may
raise between any two steps, and a guardrail pattern that does not compile
ends the program within the swap of the policies. Nothing is undone, so the
process is as before exactly when every executed step has nothing to do.
-/

namespace McpGateway.ReloadAtomicity

open PyDict StepRun GatewaySettings ToolNaming ServerRegistry RegistryRuns PyRuntime PiiRedactor
open Guardrails ToolOrchestrator CallMediation GatewayRuns ConfigReload

/-- The registry, the policy objects, the authorizer and the configuration of
a process are as before. -/
structure Unchanged (before after : AppState) : Prop where
  /-- Registered entries, in order. -/
  entries : after.registry.entries=before.registry.entries
  /-- Breakers. -/
  breakers : after.registry.cbRegistry=before.registry.cbRegistry
  /-- Naming settings. -/
  naming : after.registry.naming=before.registry.naming
  /-- Policy objects of the orchestrator. -/
  policies : policies after.orchestrator=policies before.orchestrator
  /-- `app.state.authorizer`. -/
  authorizer : after.authorizer=before.authorizer
  /-- `app.state.config`. -/
  config : after.config=before.config

/-- A step has nothing to do in a process. -/
def Void (rt : Runtime) (app : AppState) : ReloadStep→Prop
  | .deregister serverId => app.registry.entries.get? serverId=none
  | .register _ => False
  | .sync _ _ => True
  | .update server => ∀ entry, app.registry.entries.get? server.id=some entry→
    entry.server=server
  | .swapPolicies cfg => policies (swapPolicies rt cfg.toGatewayConfig app.orchestrator)=
    policies app.orchestrator
  | .install cfg => app.config=cfg ∧ app.authorizer=app.orchestrator.authorizer

/-- The process after the first steps of a reload. -/
def interrupted (rt : Runtime) (app : AppState) (executed : List ReloadStep) : AppState :=
  (final (ConfigReload.step rt) ⟨app,none⟩ executed).app

/-- A step with nothing to do keeps the process as before. -/
theorem unchanged_step {rt : Runtime} {app : AppState} {r : ReloadRun}
    (h : Unchanged app r.app) (hc : r.captured=none) {s : ReloadStep} (hv : Void rt app s) :
    Unchanged app (ConfigReload.step rt r s).app ∧
      (ConfigReload.step rt r s).captured=none := by
  cases s with
  | deregister serverId =>
    obtain ⟨hentries,-,htable,hnaming⟩ := deregister_frame r.app.registry serverId
    have habsent : r.app.registry.entries.get? serverId=none := by
      rw [h.entries]
      exact hv
    rw [Dict.pop_absent habsent] at hentries
    exact ⟨⟨hentries.trans h.entries,htable.trans h.breakers,hnaming.trans h.naming,h.policies,
      h.authorizer,h.config⟩,hc⟩
  | register server => exact hv.elim
  | sync serverId answer =>
    unfold ConfigReload.step
    rw [hc]
    exact ⟨h,hc⟩
  | update server =>
    have hsame : r.app.registry.entries.modify server.id (fun e => {e with server := server})=
        r.app.registry.entries := by
      refine Dict.modify_self fun entry he => ?_
      rw [h.entries] at he
      have hserver := hv entry he
      cases entry
      cases hserver
      rfl
    exact ⟨⟨hsame.trans h.entries,h.breakers,h.naming,h.policies,h.authorizer,h.config⟩,hc⟩
  | swapPolicies cfg =>
    have hregistry : (ConfigReload.step rt r (.swapPolicies cfg)).app.registry=r.app.registry :=
      swapPolicies_registry rt cfg.toGatewayConfig r.app.orchestrator
    have hpolicies : policies (swapPolicies rt cfg.toGatewayConfig r.app.orchestrator)=
        policies app.orchestrator := by
      rw [policies_swap,h.policies,←policies_swap]
      exact hv
    refine ⟨⟨?_,?_,?_,hpolicies,h.authorizer,h.config⟩,hc⟩
    · rw [hregistry]
      exact h.entries
    · rw [hregistry]
      exact h.breakers
    · rw [hregistry]
      exact h.naming
  | install cfg =>
    obtain ⟨hconfig,hauthorizer⟩ := hv
    have hinstalled : r.app.orchestrator.authorizer=app.orchestrator.authorizer :=
      congrArg PolicySet.authorizer h.policies
    exact ⟨⟨h.entries,h.breakers,h.naming,h.policies,hinstalled.trans hauthorizer.symm,
      hconfig.symm⟩,hc⟩

/-- Steps with nothing to do keep the process as before. -/
theorem unchanged_run {rt : Runtime} {app : AppState} {steps : List ReloadStep}
    (hv : ∀ s∈steps, Void rt app s) : Unchanged app (interrupted rt app steps) := by
  have hrun : ∀ r : ReloadRun, Unchanged app r.app→ r.captured=none→
      Unchanged app (final (ConfigReload.step rt) r steps).app := by
    induction steps with
    | nil => exact fun r h _ => h
    | cons s rest ih =>
      intro r h hc
      obtain ⟨hnext,hcaptured⟩ := unchanged_step h hc (hv s List.mem_cons_self)
      exact ih (fun t ht => hv t (List.mem_cons_of_mem _ ht)) _ hnext hcaptured
  exact hrun ⟨app,none⟩ ⟨rfl,rfl,rfl,rfl,rfl,rfl⟩ rfl

/-- No registered client is newer than the moment of comparison. -/
theorem view_not_fresh {reg : Registry} (hk : Keyed reg) (sid : String)
    (server settings : UpstreamServer) :
    view reg.nextUid sid reg≠some ⟨server,.fresh settings⟩ := by
  intro h
  obtain ⟨entry,hget,hentry⟩ := Option.map_eq_some_iff.mp h
  have hold := (hk sid entry hget).2.2
  unfold viewEntry at hentry
  rw [if_pos hold] at hentry
  cases hentry

/-- A removal that leaves the view of its id as it was had nothing to do. -/
theorem void_deregister {rt : Runtime} {app : AppState} {first : ℕ} {sid : String}
    (h : none=view first sid app.registry) : Void rt app (.deregister sid) :=
  Option.map_eq_none_iff.mp h.symm

/-- An update that leaves the view of its id as it was had nothing to do. -/
theorem void_update {rt : Runtime} {app : AppState} {first : ℕ} {server : UpstreamServer}
    (h : (view first server.id app.registry).map (fun e => {e with server := server})=
      view first server.id app.registry) : Void rt app (.update server) := by
  intro entry hentry
  unfold view at h
  rw [hentry,Option.map_some,Option.map_some] at h
  exact (congrArg EntryView.server (Option.some.inj h)).symm

/-- When the steps executed for an id leave its view as it was, each of them
had nothing to do. -/
theorem void_of_view {rt : Runtime} {app : AppState} {sid : String} (hk : Keyed app.registry)
    {old new : Option UpstreamServer} (hid : ∀ server, new=some server→server.id=sid)
    {executed : List ReloadStep} (hexecuted : executed <+: entrySteps sid old new)
    (hview : executed.foldl (write sid) (view app.registry.nextUid sid app.registry)=
      view app.registry.nextUid sid app.registry) : ∀ s∈executed, Void rt app s := by
  have hregister : ∀ server found, server.id=sid→
      write sid found (.register server)≠view app.registry.nextUid sid app.registry := by
    intro server found hserver he
    exact view_not_fresh hk sid server server (he.symm.trans (write_register hserver found))
  cases executed with
  | nil => exact fun s hs => absurd hs List.not_mem_nil
  | cons s rest =>
    cases new with
    | none =>
      cases old with
      | none => exact absurd hexecuted.length_le (by simp [entrySteps])
      | some prior =>
        obtain ⟨rfl,hrest⟩ := List.cons_prefix_cons.mp hexecuted
        cases List.prefix_nil.mp hrest
        rw [List.foldl_cons,List.foldl_nil,write_deregister] at hview
        intro t ht
        rw [List.mem_singleton.mp ht]
        exact void_deregister hview
    | some server =>
      have hserver := hid server rfl
      cases old with
      | none =>
        obtain ⟨rfl,hrest⟩ := List.cons_prefix_cons.mp hexecuted
        cases List.prefix_nil.mp hrest
        exact absurd hview (hregister server _ hserver)
      | some prior =>
        by_cases hr : Reconnects prior server
        · rw [entrySteps_reconnects hr] at hexecuted
          obtain ⟨rfl,hrest⟩ := List.cons_prefix_cons.mp hexecuted
          cases rest with
          | nil =>
            rw [List.foldl_cons,List.foldl_nil,write_deregister] at hview
            intro t ht
            rw [List.mem_singleton.mp ht]
            exact void_deregister hview
          | cons t later =>
            obtain ⟨rfl,hlater⟩ := List.cons_prefix_cons.mp hrest
            cases List.prefix_nil.mp hlater
            exact absurd hview (hregister server _ hserver)
        · rw [entrySteps_kept hr] at hexecuted
          obtain ⟨rfl,hrest⟩ := List.cons_prefix_cons.mp hexecuted
          cases List.prefix_nil.mp hrest
          rw [List.foldl_cons,List.foldl_nil,write_update hserver,←hserver] at hview
          intro t ht
          rw [List.mem_singleton.mp ht]
          exact void_update hview

/-- A process whose policy objects are as before a swap had the new ones. -/
theorem void_swap {rt : Runtime} {app : AppState} {cfg : LoadedConfig} {steps : List ReloadStep}
    (honly : ∀ s∈steps, OnRegistry s)
    (h : Unchanged app (interrupted rt app (steps++[.swapPolicies cfg]))) :
    Void rt app (.swapPolicies cfg) := by
  obtain ⟨registry,hregistry⟩ := run_onRegistry rt ⟨app,none⟩ honly
  have hswap : policies (interrupted rt app (steps++[.swapPolicies cfg])).orchestrator=
      policies (swapPolicies rt cfg.toGatewayConfig
        (final (ConfigReload.step rt) ⟨app,none⟩ steps).app.orchestrator) := by
    unfold interrupted final
    rw [List.foldl_append]
    rfl
  have hframe : policies (final (ConfigReload.step rt) ⟨app,none⟩ steps).app.orchestrator=
      policies app.orchestrator := by
    rw [hregistry]
    rfl
  have hagain : policies (swapPolicies rt cfg.toGatewayConfig app.orchestrator)=
      policies (swapPolicies rt cfg.toGatewayConfig
        (final (ConfigReload.step rt) ⟨app,none⟩ steps).app.orchestrator) := by
    rw [policies_swap,policies_swap,hframe]
  exact hagain.trans (hswap.symm.trans h.policies)

/-- A process that is as before has executed only steps with nothing to do. -/
theorem void_of_unchanged {rt : Runtime} {app : AppState} {new : LoadedConfig}
    {world : ReloadWorld} {n : ℕ} (hk : Keyed app.registry)
    (hn : n<(program app.config new world).length)
    (h : Unchanged app (interrupted rt app ((program app.config new world).take n))) :
    ∀ s∈(program app.config new world).take n, Void rt app s := by
  intro s hs
  have hwritten : ∀ sid, written s=some sid→Void rt app s := by
    intro sid hsid
    have hexecuted := (List.take_prefix n (program app.config new world)).filter (writes sid)
    rw [program_writes] at hexecuted
    have hview := view_run rt sid (r:=⟨app,none⟩) (le_refl app.registry.nextUid)
      ((program app.config new world).take n)
    have hsame : view app.registry.nextUid sid
        (interrupted rt app ((program app.config new world).take n)).registry=
        view app.registry.nextUid sid app.registry := by
      unfold view
      rw [h.entries]
    exact void_of_view hk (fun server hm => (configured_mem hm).2) hexecuted
      (hview.symm.trans hsame) s (List.mem_filter.mpr ⟨hs,decide_eq_true hsid⟩)
  cases s with
  | deregister serverId => exact hwritten serverId rfl
  | register server => exact hwritten server.id rfl
  | update server => exact hwritten server.id rfl
  | sync serverId answer => trivial
  | swapPolicies cfg =>
    obtain ⟨steps,honly,htake | htake⟩ := executed_eq hn
    · rw [htake] at hs
      exact (honly _ hs).elim
    · rw [htake] at hs h
      rcases List.mem_append.mp hs with hs | hs
      · exact (honly _ hs).elim
      · cases List.mem_singleton.mp hs
        exact void_swap honly h
  | install cfg =>
    obtain ⟨steps,honly,htake | htake⟩ := executed_eq hn
    · rw [htake] at hs
      exact (honly _ hs).elim
    · rw [htake] at hs
      rcases List.mem_append.mp hs with hs | hs
      · exact (honly _ hs).elim
      · cases List.mem_singleton.mp hs

/-- A reload that raises leaves the process as before exactly when every step
it has executed had nothing to do. -/
theorem atomic_iff (rt : Runtime) (app : AppState) (new : LoadedConfig) (world : ReloadWorld)
    (n : ℕ) (hk : Keyed app.registry) (hn : n<(program app.config new world).length) :
    Unchanged app (interrupted rt app ((program app.config new world).take n)) ↔
      ∀ s∈(program app.config new world).take n, Void rt app s :=
  ⟨void_of_unchanged hk hn,unchanged_run⟩

/-- A runtime that compiles no pattern, as for an open parenthesis. -/
def patternRuntime : Runtime :=
  {asciiRuntime with
    compile := fun _ => .error "missing ), unterminated subpattern at position 0"}

/-- A configuration with such a guardrail pattern. -/
def patternConfig (upstreams : List UpstreamServer)
    (h : (upstreams.map UpstreamServer.id).Nodup := by decide) : LoadedConfig :=
  {plainConfig upstreams h with guardrails := {rules := [{name := "r",forbiddenRegex := ["("]}]}}

/-- A process with one server, as configured. -/
def servingApp : AppState :=
  plainApp (plainConfig [plainServer "a"] (unique_plain "a")) [.register (plainServer "a")]

theorem atomic_iff_same_servers :
    2<(program servingApp.config (patternConfig [plainServer "a"]) quietWorld).length ∧
    Unchanged servingApp (interrupted patternRuntime servingApp
      ((program servingApp.config (patternConfig [plainServer "a"]) quietWorld).take 2)) := by
  refine ⟨by decide,(atomic_iff patternRuntime servingApp (patternConfig [plainServer "a"])
    quietWorld 2 (keyed_final {} {} _) (by decide)).mpr fun s hs => ?_⟩
  rcases List.mem_pair.mp hs with rfl | rfl
  · intro entry hentry
    cases hentry
    rfl
  · rfl

/-- A reload that removes the server and fails on the pattern has removed it
while the process remembers the configuration with it. -/
theorem removed_before_failure :
    doReload patternRuntime servingApp (patternConfig []) quietWorld=
      .error "missing ), unterminated subpattern at position 0" ∧
    2<(program servingApp.config (patternConfig []) quietWorld).length ∧
    (interrupted patternRuntime servingApp
      ((program servingApp.config (patternConfig []) quietWorld).take 2)).config.ids=["a"] ∧
    ¬Unchanged servingApp (interrupted patternRuntime servingApp
      ((program servingApp.config (patternConfig []) quietWorld).take 2)) := by
  refine ⟨rfl,by decide,rfl,fun h => ?_⟩
  have hsize := congrArg Dict.size h.entries
  exact absurd hsize (by decide)

end McpGateway.ReloadAtomicity
