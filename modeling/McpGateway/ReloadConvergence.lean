import Mathlib
import McpGateway.PyDict
import McpGateway.StepRun
import McpGateway.GatewaySettings
import McpGateway.ToolNaming
import McpGateway.ServerRegistry
import McpGateway.RegistryRuns
import McpGateway.PyRuntime
import McpGateway.ToolOrchestrator
import McpGateway.CallMediation
import McpGateway.GatewayRuns
import McpGateway.ConfigReload

/-!
# Convergence of the registry

After every reload of a sequence the registry holds the servers of the
configuration last loaded, with its settings, besides the servers that no
configuration mentions. A server that both configurations of a reload mention
keeps its client exactly when its address is unchanged.
-/

namespace McpGateway.ReloadConvergence

open PyDict StepRun GatewaySettings ToolNaming ServerRegistry RegistryRuns PyRuntime
open ToolOrchestrator CallMediation GatewayRuns ConfigReload

/-- What a reload from one configuration to another leaves behind, besides
servers that neither mentions. -/
structure Reloaded (old new : LoadedConfig) (extra : String→Prop) (before after : AppState) :
    Prop where
  /-- The new configuration is remembered. -/
  remembered : after.config=new
  /-- The registered ids are those of the new configuration and the others. -/
  keys : ∀ sid, after.registry.entries.contains sid=true ↔ sid∈new.ids ∨ extra sid
  /-- Each configured server has its new settings. -/
  servers : ∀ server∈new.upstreams, registered after server.id=some server
  /-- The other entries are unchanged. -/
  others : ∀ sid, extra sid→ after.registry.entries.get? sid=before.registry.entries.get? sid
  /-- A server of both configurations keeps its client exactly when its
  address and its transport are unchanged. -/
  clients : ∀ server∈new.upstreams, ∀ prior∈old.upstreams, prior.id=server.id→ ∀ entry entry',
    before.registry.entries.get? server.id=some entry→
    after.registry.entries.get? server.id=some entry'→
    (entry'.client=entry.client ↔
      prior.baseUrl=server.baseUrl ∧ prior.transport=server.transport)

/-- The registered ids are those of the remembered configuration and the
others. -/
def Covered (extra : String→Prop) (app : AppState) : Prop :=
  ∀ sid, app.registry.entries.contains sid=true ↔ sid∈app.config.ids ∨ extra sid

/-- Every reload of a sequence, as long as they complete, leaves behind what a
reload should. -/
def Converges (rt : Runtime) (extra : String→Prop) :
    AppState→List (LoadedConfig×ReloadWorld)→Prop
  | _,[] => True
  | app,(new,world)::rest => ∀ app' result, doReload rt app new world=.ok (app',result)→
    Reloaded app.config new extra app app' ∧ Converges rt extra app' rest

/-- Two settings agree on the address exactly when they need no new session. -/
theorem not_reconnects_iff {prior server : UpstreamServer} :
    ¬Reconnects prior server ↔ prior.baseUrl=server.baseUrl ∧ prior.transport=server.transport := by
  unfold Reconnects
  rw [not_or,not_not,not_not]

/-- An id is registered exactly when it has a view. -/
theorem contains_view (first : ℕ) (sid : String) (reg : Registry) :
    reg.entries.contains sid=true ↔ (view first sid reg).isSome=true := by
  unfold Dict.contains view
  rw [Option.isSome_map]

/-- A configured server that was registered if it was configured before is
registered afterwards, with its new settings. -/
theorem reloadedView_server {old : Option UpstreamServer} (server : UpstreamServer)
    {found : Option EntryView} (h : old≠none→found.isSome=true) :
    ∃ client, reloadedView old (some server) found=some ⟨server,client⟩ := by
  cases old with
  | none => exact ⟨_,rfl⟩
  | some prior =>
    unfold reloadedView
    dsimp only
    split
    · exact ⟨_,rfl⟩
    · obtain ⟨e,he⟩ := Option.isSome_iff_exists.mp (h (by simp))
      rw [he]
      exact ⟨e.client,rfl⟩

/-- An id without a configured server keeps its entry unless it had one. -/
theorem reloadedView_isSome (old new : Option UpstreamServer) (found : Option EntryView)
    (h : old≠none→found.isSome=true) :
    (reloadedView old new found).isSome=true ↔ new≠none ∨ (old=none ∧ found.isSome=true) := by
  cases new with
  | some server =>
    obtain ⟨client,hview⟩ := reloadedView_server server h
    rw [hview]
    simp
  | none => cases old <;> simp [reloadedView]

section Step

variable {rt : Runtime} {app app' : AppState} {new : LoadedConfig} {world : ReloadWorld}
variable {result : ReloadResult} {extra : String→Prop}

/-- In a covered registry every configured id has a view. -/
theorem view_of_configured (hc : Covered extra app) (first : ℕ) (sid : String)
    (h : app.config.configured sid≠none) : (view first sid app.registry).isSome=true := by
  refine (contains_view first sid app.registry).mp ((hc sid).mpr (Or.inl ?_))
  by_contra hout
  exact h (configured_eq_none.mpr hout)

/-- A completed reload registers the ids of the new configuration and keeps
the others. -/
theorem doReload_keys (hc : Covered extra app) (hold : ∀ sid, extra sid→sid∉app.config.ids)
    (h : doReload rt app new world=.ok (app',result)) (sid : String) :
    app'.registry.entries.contains sid=true ↔ sid∈new.ids ∨ extra sid := by
  have hfound := view_of_configured hc app.registry.nextUid sid
  rw [contains_view app.registry.nextUid,doReload_view h,reloadedView_isSome _ _ _ hfound,
    ←contains_view,hc sid,ne_eq,configured_eq_none,configured_eq_none,not_not]
  constructor
  · intro hs
    rcases hs with hnew | ⟨hout,hin | hextra⟩
    · exact Or.inl hnew
    · exact absurd hin hout
    · exact Or.inr hextra
  · intro hs
    rcases hs with hnew | hextra
    · exact Or.inl hnew
    · exact Or.inr ⟨hold sid hextra,Or.inr hextra⟩

/-- A completed reload gives each configured server its new settings. -/
theorem doReload_servers (hc : Covered extra app)
    (h : doReload rt app new world=.ok (app',result)) {server : UpstreamServer}
    (hs : server∈new.upstreams) : registered app' server.id=some server := by
  rw [registered_view app.registry.nextUid,doReload_view h,configured_of_mem hs]
  obtain ⟨client,hview⟩ := reloadedView_server server
    (view_of_configured hc app.registry.nextUid server.id)
  rw [hview]
  rfl

/-- A completed reload keeps the client of a server exactly when its address
is unchanged. -/
theorem doReload_client (hk : Keyed app.registry)
    (h : doReload rt app new world=.ok (app',result)) {server prior : UpstreamServer}
    (hs : server∈new.upstreams) (hp : prior∈app.config.upstreams) (hid : prior.id=server.id)
    {entry entry' : RegistryEntry} (hbefore : app.registry.entries.get? server.id=some entry)
    (hafter : app'.registry.entries.get? server.id=some entry') :
    entry'.client=entry.client ↔
      prior.baseUrl=server.baseUrl ∧ prior.transport=server.transport := by
  have hold := (hk server.id entry hbefore).2.2
  have hview := doReload_view h server.id
  have hprior : app.config.configured server.id=some prior := hid ▸ configured_of_mem hp
  unfold view at hview
  rw [hafter,hbefore,hprior,configured_of_mem hs] at hview
  unfold reloadedView viewEntry at hview
  simp only [Option.map_some,if_pos hold] at hview
  rw [←not_reconnects_iff]
  by_cases hr : Reconnects prior server
  · rw [if_pos hr] at hview
    have hclient := congrArg EntryView.client (Option.some.inj hview)
    refine ⟨fun he => ?_,fun hn => absurd hr hn⟩
    dsimp only at hclient
    rw [he,if_pos hold] at hclient
    cases hclient
  · rw [if_neg hr] at hview
    have hclient := congrArg EntryView.client (Option.some.inj hview)
    refine ⟨fun _ => hr,fun _ => ?_⟩
    dsimp only at hclient
    split at hclient
    · exact ClientView.kept.inj hclient
    · cases hclient

/-- A completed reload leaves behind what it should, and a registry with every
entry under its id. -/
theorem doReload_reloaded (hk : Keyed app.registry) (hc : Covered extra app)
    (hold : ∀ sid, extra sid→sid∉app.config.ids) (hnew : ∀ sid, extra sid→sid∉new.ids)
    (h : doReload rt app new world=.ok (app',result)) :
    Reloaded app.config new extra app app' ∧ Keyed app'.registry := by
  obtain ⟨hrun,-⟩ := doReload_eq h
  refine ⟨⟨?_,doReload_keys hc hold h,fun server hs => doReload_servers hc h hs,?_,?_⟩,?_⟩
  · rw [hrun]
    exact program_config rt _ app.config new world
  · intro sid hextra
    rw [hrun]
    refine run_other rt ⟨app,none⟩ (fun s hs hconcerned => ?_)
    rcases program_concerned hs hconcerned with hin | hin
    · exact hold sid hextra hin
    · exact hnew sid hextra hin
  · intro server hs prior hp hid entry entry' hbefore hafter
    exact doReload_client hk h hs hp hid hbefore hafter
  · rw [hrun]
    exact final_invariant (I:=fun r : ReloadRun => Keyed r.app.registry)
      (fun r s => keyed_reload rt r s) hk _

end Step

/-- In every sequence of completed reloads each one leaves the registry as its
configuration wants it, and everything else in it as it was. -/
theorem converges (rt : Runtime) (extra : String→Prop) (app : AppState)
    (reloads : List (LoadedConfig×ReloadWorld)) (hk : Keyed app.registry)
    (hc : Covered extra app) (hold : ∀ sid, extra sid→sid∉app.config.ids)
    (hnew : ∀ reload∈reloads, ∀ sid, extra sid→sid∉reload.1.ids) :
    Converges rt extra app reloads := by
  induction reloads generalizing app with
  | nil => trivial
  | cons reload rest ih =>
    obtain ⟨new,world⟩ := reload
    intro app' result h
    have hfirst := hnew _ List.mem_cons_self
    obtain ⟨hreloaded,hkeyed⟩ := doReload_reloaded hk hc hold hfirst h
    have hconfig := hreloaded.remembered
    refine ⟨hreloaded,ih app' hkeyed ?_ ?_ (fun r hr => hnew r (List.mem_cons_of_mem _ hr))⟩
    · intro sid
      rw [hconfig]
      exact hreloaded.keys sid
    · rw [hconfig]
      exact hfirst

/-- A process whose configuration has one of its two servers. -/
def oneConfigured : AppState :=
  plainApp (plainConfig [plainServer "a"] (unique_plain "a"))
    [.register (plainServer "a"),.register (plainServer "x")]

/-- A configuration with that server at another address and a new one. -/
def movedConfig : LoadedConfig :=
  plainConfig [{id := "a",baseUrl := "http://a.invalid"},plainServer "b"]

theorem converges_moved :
    (∃ app' result, doReload asciiRuntime oneConfigured movedConfig quietWorld=.ok (app',result)) ∧
    Converges asciiRuntime (fun sid => sid="x") oneConfigured [(movedConfig,quietWorld)] := by
  have hcovered : Covered (fun sid => sid="x") oneConfigured := by
    intro sid
    have hentries : oneConfigured.registry.entries=(Dict.empty.set "a" ⟨plainServer "a",
        ⟨0,plainServer "a"⟩,[],none,false⟩).set "x" ⟨plainServer "x",⟨1,plainServer "x"⟩,[],none,
        false⟩ := rfl
    have hids : oneConfigured.config.ids=["a"] := rfl
    rw [hentries,Dict.contains_set,Dict.contains_set,hids,List.mem_singleton]
    simp only [Dict.contains_empty,Bool.false_eq_true,or_false]
    rw [or_comm,eq_comm (a:=sid) (b:="a"),eq_comm (a:=sid)]
  refine ⟨⟨_,_,rfl⟩,converges asciiRuntime _ oneConfigured [(movedConfig,quietWorld)]
    (keyed_final {} {} _) hcovered ?_ ?_⟩
  · intro sid hs
    subst hs
    decide
  · intro reload hr sid hs
    subst hs
    rw [List.mem_singleton.mp hr]
    decide

end McpGateway.ReloadConvergence
