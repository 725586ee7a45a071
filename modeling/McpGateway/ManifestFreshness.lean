import Mathlib
import McpGateway.PyText
import McpGateway.PyDict
import McpGateway.StepRun
import McpGateway.JsonValue
import McpGateway.GatewaySettings
import McpGateway.CircuitBreakers
import McpGateway.ToolNaming
import McpGateway.ServerRegistry
import McpGateway.RegistryRuns
import McpGateway.ToolRouting
import McpGateway.PyRuntime
import McpGateway.PiiRedactor
import McpGateway.Guardrails
import McpGateway.ResultCache
import McpGateway.UpstreamContent
import McpGateway.ToolOrchestrator
import McpGateway.CallMediation
import McpGateway.GatewayRuns
import McpGateway.CacheProvenance

/-!
# Freshness of the manifest

The manifest without a tag is cached for its lifetime, and only the policy
swap of a reload drops it; no registry operation does. An operation changes
the aggregate exactly when it changes what its own server contributes to it,
and the gateway answers with current manifests as long as no operation does
that while one is cached.
-/

namespace McpGateway.ManifestFreshness

open PyText PyDict StepRun JsonValue GatewaySettings CircuitBreakers ToolNaming ServerRegistry
open RegistryRuns ToolRouting PyRuntime PiiRedactor Guardrails ResultCache UpstreamContent
open ToolOrchestrator CallMediation GatewayRuns CacheProvenance

/-- The tools that an entry contributes to the aggregate. -/
def listed (entry : RegistryEntry) : List ToolDefinition :=
  if entry.server.enabled=true ∧ entry.healthy=true then entry.tools else []

/-- The tools that the server under an id contributes. -/
def contribution (reg : Registry) (serverId : String) : List ToolDefinition :=
  (reg.entries.get? serverId).elim [] listed

/-- The operation changes nothing of what its server contributes. -/
def KeepsListing (s : RegistryRun) : RegistryAction→Prop
  | .register server => contribution s.registry server.id=[]
  | .deregister serverId => contribution s.registry serverId=[]
  | .setEnabled serverId enabled => ∀ entry, s.registry.entries.get? serverId=some entry→
      entry.server.enabled=enabled ∨ entry.healthy=false ∨ entry.tools=[]
  | .updateServer server => ∀ entry, s.registry.entries.get? server.id=some entry→
      entry.server.enabled=server.enabled ∨ entry.healthy=false ∨ entry.tools=[]
  | .syncStart _ => True
  | .syncFinish index answer => ∀ serverId uid entry, s.syncs[index]?=some (serverId,uid)→
      s.registry.entries.get? serverId=some entry→entry.client.uid=uid→
        listed (Registry.syncEntry s.registry.naming s.registry.entries entry answer)=listed entry

/-- The manifest that a request without a tag would find in the cache. -/
def cachedManifest (o : Orchestrator) (now : ℚ) : Option ToolManifest :=
  o.cache.bind (fun cache => (cache.getManifest now).2)

/-- Manifest requests answer with what the registry holds now. -/
structure Current (g : Gateway) : Prop where
  /-- A request without a tag lists the tools of a recomputation. -/
  recomputed : (buildManifest g.orchestrator g.clock none).2.tools=
    (computeManifest g.orchestrator.registry none).tools
  /-- No request lists a tool of a server that is not registered and enabled. -/
  withdrawn : ∀ sid,
    (∀ entry, g.orchestrator.registry.entries.get? sid=some entry→entry.server.enabled=false)→
    ∀ tag, ∀ td∈(buildManifest g.orchestrator g.clock tag).2.tools, td.serverId≠some sid

/-- A registry operation that finds a cached manifest keeps what its server
contributes. -/
def KeepsAggregate (g : Gateway) (a : GatewayAction) : Prop :=
  ∀ action, a=.registry action→(cachedManifest g.orchestrator g.clock).isSome=true→
    KeepsListing ⟨g.orchestrator.registry,g.syncs⟩ action

/-- Every stored tool names the id it is stored under. -/
def Tagged (reg : Registry) : Prop :=
  ∀ sid entry, reg.entries.get? sid=some entry→∀ td∈entry.tools, td.serverId=some sid

section Aggregate

/-- The aggregate is made of the contributions in registration order. -/
theorem computeManifest_tools (reg : Registry) :
    (computeManifest reg none).tools=reg.entries.values.flatMap listed := by
  unfold computeManifest
  dsimp only
  induction reg.entries.values with
  | nil => rfl
  | cons entry rest ih =>
    have hnone : present none=false := rfl
    rw [List.flatMap_cons,←ih,listed]
    cases he : entry.server.enabled with
    | false => simp [he]
    | true =>
      cases hh : entry.healthy with
      | false => simp [he,hh]
      | true => simp [he,hh,hnone]

/-- Every manifest lists tools of enabled entries only. -/
theorem mem_computeManifest {reg : Registry} {tag : Option String} {td : ToolDefinition}
    (h : td∈(computeManifest reg tag).tools) :
    ∃ sid entry, reg.entries.get? sid=some entry ∧ entry.server.enabled=true ∧ td∈entry.tools := by
  obtain ⟨entry,he,htd⟩ := List.mem_flatMap.mp h
  obtain ⟨hv,hlisted⟩ := List.mem_filter.mp he
  obtain ⟨sid,hg⟩ := Dict.mem_values_iff.mp hv
  exact ⟨sid,entry,hg,by simp only [Bool.and_eq_true] at hlisted; exact hlisted.1.1,htd⟩

/-- New settings keep a contribution when the entry stays enabled or disabled,
or has nothing to list. -/
theorem listed_settings (entry : RegistryEntry) (server : UpstreamServer) :
    listed {entry with server := server}=listed entry ↔
      entry.server.enabled=server.enabled ∨ entry.healthy=false ∨ entry.tools=[] := by
  unfold listed
  cases entry.server.enabled <;> cases server.enabled <;> cases entry.healthy <;>
    simp [eq_comm]

/-- A settings update keeps the aggregate exactly when it keeps the
contribution of its entry. -/
theorem modify_listing (entries : Dict String RegistryEntry) (serverId : String)
    (f : RegistryEntry→RegistryEntry) :
    (entries.modify serverId f).values.flatMap listed=entries.values.flatMap listed ↔
      ∀ entry, entries.get? serverId=some entry→listed (f entry)=listed entry := by
  unfold Dict.modify
  cases hg : entries.get? serverId with
  | none => exact ⟨fun _ _ h => (by cases h),fun _ => rfl⟩
  | some entry =>
    dsimp only
    rw [Dict.flatMap_set_iff,hg]
    constructor
    · intro h other ho
      cases ho
      exact h
    · exact fun h => h entry rfl

/-- A completed synchronization keeps the aggregate exactly when it keeps the
contribution of the entry it captured. -/
theorem finishSync_listing (reg : Registry) (serverId : String) (uid : ℕ)
    (answer : Except String (List RawTool)) :
    (reg.finishSync serverId uid answer).entries.values.flatMap listed=
      reg.entries.values.flatMap listed ↔
      ∀ entry, reg.entries.get? serverId=some entry→entry.client.uid=uid→
        listed (Registry.syncEntry reg.naming reg.entries entry answer)=listed entry := by
  rcases finishSync_cases reg serverId uid answer with ⟨entry,hg,hu,hentries⟩ | ⟨hgone,hentries⟩
  · rw [hentries,Dict.flatMap_set_iff,hg]
    constructor
    · intro h other ho _
      cases ho
      exact h
    · exact fun h => h entry rfl hu
  · rw [hentries]
    exact ⟨fun _ entry hg hu => absurd hu (hgone entry hg),fun _ => rfl⟩

/-- An operation keeps the aggregate exactly when it keeps the contribution
of the server it is about. -/
theorem aggregate_step (s : RegistryRun) (a : RegistryAction) :
    (computeManifest (RegistryRuns.step s a).registry none).tools=
      (computeManifest s.registry none).tools ↔ KeepsListing s a := by
  rw [computeManifest_tools,computeManifest_tools]
  cases a with
  | register server =>
    have hempty : listed {server := server,client := ⟨s.registry.nextUid,server⟩}=[] := by
      simp [listed]
    have hset := Dict.flatMap_set_iff listed s.registry.entries server.id
      {server := server,client := ⟨s.registry.nextUid,server⟩}
    rw [hempty] at hset
    exact hset.trans eq_comm
  | deregister serverId =>
    simp only [RegistryRuns.step,(deregister_frame s.registry serverId).1]
    exact Dict.flatMap_pop_iff listed s.registry.entries serverId
  | setEnabled serverId enabled =>
    refine (modify_listing s.registry.entries serverId _).trans ?_
    exact forall₂_congr fun entry _ => listed_settings entry {entry.server with enabled := enabled}
  | updateServer server =>
    refine (modify_listing s.registry.entries server.id _).trans ?_
    exact forall₂_congr fun entry _ => listed_settings entry server
  | syncStart serverId =>
    simp only [RegistryRuns.step,KeepsListing,iff_true]
    split <;> rfl
  | syncFinish index answer =>
    simp only [RegistryRuns.step,KeepsListing]
    cases hs : s.syncs[index]? with
    | none => exact ⟨fun _ _ _ _ h => (by cases h),fun _ => rfl⟩
    | some captured =>
      obtain ⟨serverId,uid⟩ := captured
      dsimp only
      rw [finishSync_listing]
      constructor
      · intro h sid u entry hc
        cases hc
        exact h entry
      · exact fun h entry => h serverId uid entry rfl

end Aggregate

section Cached

/-- Settings and stored manifests of the cache. -/
def manifests (o : Orchestrator) : Option (CacheConfig×TTLStore ToolManifest) :=
  o.cache.map (fun cache => (cache.cfg,cache.manifestStore))

/-- A request without a tag answers with the cached manifest or a recomputed one. -/
theorem buildManifest_none (o : Orchestrator) (now : ℚ) :
    (buildManifest o now none).2=(cachedManifest o now).getD (computeManifest o.registry none) := by
  unfold buildManifest cachedManifest
  cases hc : o.cache with
  | none => rfl
  | some cache =>
    simp only [Option.bind_some]
    cases (cache.getManifest now).2 with
    | none => rfl
    | some manifest => rfl

/-- A request with a tag is always recomputed. -/
theorem buildManifest_some (o : Orchestrator) (now : ℚ) (tag : String) :
    (buildManifest o now (some tag)).2=computeManifest o.registry (some tag) := rfl

/-- The cached manifest is read from settings and stored manifests. -/
theorem cachedManifest_congr {o o' : Orchestrator} (h : manifests o'=manifests o) (now : ℚ) :
    cachedManifest o' now=cachedManifest o now := by
  unfold manifests at h
  unfold cachedManifest
  cases hc : o.cache with
  | none =>
    rw [hc] at h
    rw [Option.map_eq_none_iff.mp h]
  | some cache =>
    rw [hc] at h
    obtain ⟨cache',hc',hsame⟩ := Option.map_eq_some_iff.mp h
    obtain ⟨hcfg,hstore⟩ := Prod.mk.inj hsame
    rw [hc']
    simp only [Option.bind_some,ToolCache.getManifest]
    rw [hcfg,hstore]
    split <;> rfl

/-- Manifests are cached at all. -/
def Caching (cfg : CacheConfig) : Prop := ¬(cfg.enabled=false ∨ cfg.manifestTtl≤0)

/-- What is cached is stored and has not expired. -/
theorem cachedManifest_iff {o : Orchestrator} {now : ℚ} {manifest : ToolManifest} :
    cachedManifest o now=some manifest ↔ ∃ cfg store entry, manifests o=some (cfg,store) ∧
      Caching cfg ∧ store.entries.get? ToolCache.manifestKey=some entry ∧
      entry.value=manifest ∧ now≤entry.expiresAt := by
  unfold cachedManifest manifests
  constructor
  · intro h
    obtain ⟨cache,hc,hget⟩ := Option.bind_eq_some_iff.mp h
    unfold ToolCache.getManifest at hget
    split at hget
    · cases hget
    · rename_i hon
      obtain ⟨entry,hentry,hvalue,hlive⟩ := TTLStore.get_some hget
      exact ⟨cache.cfg,cache.manifestStore,entry,by rw [hc]; rfl,hon,hentry,hvalue,hlive⟩
  · rintro ⟨cfg,store,entry,hm,hon,hentry,hvalue,hlive⟩
    obtain ⟨cache,hc,hpair⟩ := Option.map_eq_some_iff.mp hm
    obtain ⟨rfl,rfl⟩ := Prod.mk.inj hpair
    have hfresh : ¬entry.expiresAt<now := not_lt.mpr hlive
    rw [hc,Option.bind_some,ToolCache.getManifest,if_neg hon]
    simp only [TTLStore.get,hentry,if_neg hfresh,hvalue]

/-- A manifest that is still found was found before. -/
theorem cachedManifest_earlier {o : Orchestrator} {now later : ℚ} {manifest : ToolManifest}
    (hle : now≤later) (h : cachedManifest o later=some manifest) :
    cachedManifest o now=some manifest := by
  obtain ⟨cfg,store,entry,hm,hon,hentry,hvalue,hlive⟩ := cachedManifest_iff.mp h
  exact cachedManifest_iff.mpr ⟨cfg,store,entry,hm,hon,hentry,hvalue,hle.trans hlive⟩

/-- After a manifest request the settings are the same, and what is stored was
stored before or is the aggregate of that moment. -/
theorem manifests_buildManifest {o : Orchestrator} {now : ℚ} {tag : Option String}
    {cfg : CacheConfig} {store : TTLStore ToolManifest} {entry : CacheEntry ToolManifest}
    (hm : manifests (buildManifest o now tag).1=some (cfg,store))
    (hentry : store.entries.get? ToolCache.manifestKey=some entry) :
    ∃ earlier, manifests o=some (cfg,earlier) ∧
      (earlier.entries.get? ToolCache.manifestKey=some entry ∨
        entry.value=computeManifest o.registry none) := by
  cases tag with
  | some tag => exact ⟨store,hm,Or.inl hentry⟩
  | none =>
    cases hc : o.cache with
    | none =>
      have hsame : (buildManifest o now none).1=o := by simp only [buildManifest,hc]
      rw [hsame] at hm
      exact ⟨store,hm,Or.inl hentry⟩
    | some cache =>
      have hbefore : manifests o=some (cache.cfg,cache.manifestStore) := by
        rw [manifests,hc]
        rfl
      unfold buildManifest at hm
      rw [hc] at hm
      simp only [ToolCache.getManifest] at hm
      by_cases hoff : cache.cfg.enabled=false ∨ cache.cfg.manifestTtl≤0
      · simp only [if_pos hoff,ToolCache.setManifest,manifests,Option.map_some,
          Option.some.injEq,Prod.mk.injEq] at hm
        obtain ⟨rfl,rfl⟩ := hm
        exact ⟨_,hbefore,Or.inl hentry⟩
      · simp only [if_neg hoff] at hm
        cases hf : (cache.manifestStore.get ToolCache.manifestKey now).2 with
        | some manifest =>
          simp only [hf,manifests,Option.map_some,Option.some.injEq,Prod.mk.injEq] at hm
          obtain ⟨rfl,rfl⟩ := hm
          exact ⟨_,hbefore,Or.inl (TTLStore.get_entries hentry)⟩
        | none =>
          simp only [hf,ToolCache.setManifest,if_neg hoff,manifests,Option.map_some,
            Option.some.injEq,Prod.mk.injEq] at hm
          obtain ⟨rfl,rfl⟩ := hm
          refine ⟨_,hbefore,?_⟩
          rcases TTLStore.set_entries hentry with hold | ⟨-,-,hnew⟩
          · exact Or.inl (TTLStore.get_entries hold)
          · exact Or.inr (by rw [hnew])

/-- After a manifest request the cached manifest is the earlier one or the
aggregate of that moment. -/
theorem cachedManifest_buildManifest {o : Orchestrator} {now : ℚ} {tag : Option String}
    {manifest : ToolManifest} (h : cachedManifest (buildManifest o now tag).1 now=some manifest) :
    cachedManifest o now=some manifest ∨ manifest=computeManifest o.registry none := by
  obtain ⟨cfg,store,entry,hm,hon,hentry,hvalue,hlive⟩ := cachedManifest_iff.mp h
  obtain ⟨earlier,hbefore,hold | hnew⟩ := manifests_buildManifest hm hentry
  · exact Or.inl (cachedManifest_iff.mpr ⟨cfg,earlier,entry,hbefore,hon,hold,hvalue,hlive⟩)
  · exact Or.inr (hvalue.symm.trans hnew)

/-- A manifest request leaves the registry alone. -/
theorem buildManifest_registry (o : Orchestrator) (now : ℚ) (tag : Option String) :
    (buildManifest o now tag).1.registry=o.registry := by
  unfold buildManifest
  split
  · dsimp only
    split <;> rfl
  · rfl

end Cached

section Frames

/-- The registry and the manifests of two orchestrators agree. -/
def SameManifests (o o' : Orchestrator) : Prop :=
  o'.registry=o.registry ∧ manifests o'=manifests o

/-- A lookup of a result concerns no manifest. -/
theorem lookupResult_frame (rt : Runtime) (o : Orchestrator) (now : ℚ) (f : CallFrame)
    (sent : Json) : SameManifests o (lookupResult rt o now f sent).1 := by
  unfold lookupResult
  cases hc : o.cache with
  | none => exact ⟨rfl,rfl⟩
  | some cache =>
    dsimp only
    split
    · exact ⟨rfl,rfl⟩
    · refine ⟨rfl,?_⟩
      simp only [manifests,hc,Option.map_some,ToolCache.getResult]
      split <;> rfl

/-- The first half of a call concerns no manifest. -/
theorem startCall_frame (rt : Runtime) (o : Orchestrator) (now : ℚ) (request : CallRequest) :
    SameManifests o (startCall rt o now request).orchestrator := by
  unfold startCall
  cases resolve o.registry request.name request.serverId with
  | error e => exact ⟨rfl,rfl⟩
  | ok found =>
    obtain ⟨entry,rawTool⟩ := found
    dsimp only
    split
    · exact ⟨rfl,rfl⟩
    · obtain ⟨limiter,hgates⟩ := gates_frame rt o now ⟨request,entry,rawTool⟩
      rw [hgates]
      cases (gates rt o now ⟨request,entry,rawTool⟩).2 with
      | error refusal => exact ⟨rfl,rfl⟩
      | ok pair =>
        obtain ⟨sent,reqRedacted⟩ := pair
        have hlook := lookupResult_frame rt {o with rateLimiter := limiter} now
          ⟨request,entry,rawTool⟩ sent
        dsimp only
        split <;> exact hlook

/-- The second half of a call concerns no manifest. -/
theorem finishCall_frame (rt : Runtime) (o : Orchestrator) (now : ℚ) (call : PendingCall)
    (answer : UpstreamAnswer) : SameManifests o (finishCall rt o now call answer).orchestrator := by
  have hstore : ∀ clean, SameManifests o (storeResult rt o call now clean).1 := by
    intro clean
    unfold storeResult
    cases hc : o.cache with
    | none => exact ⟨rfl,rfl⟩
    | some cache =>
      dsimp only
      split
      · exact ⟨rfl,rfl⟩
      · refine ⟨rfl,?_⟩
        simp only [manifests,hc,Option.map_some,ToolCache.setResult]
        split <;> rfl
  cases answer with
  | upstreamError e => exact ⟨rfl,rfl⟩
  | exception text => exact ⟨rfl,rfl⟩
  | cancelled => exact ⟨rfl,rfl⟩
  | content value =>
    unfold finishCall
    dsimp only
    split
    · exact ⟨rfl,rfl⟩
    · exact hstore _

/-- A policy swap keeps the registry, and the cache or installs an empty one. -/
theorem swapPolicies_cached {rt : Runtime} {cfg : GatewayConfig} {o : Orchestrator} {now : ℚ}
    {manifest : ToolManifest} (h : cachedManifest (swapPolicies rt cfg o) now=some manifest) :
    cachedManifest o now=some manifest := by
  unfold swapPolicies at h
  dsimp only at h
  split at h
  · exact h
  · obtain ⟨settings,store,entry,hm,-,hentry,-⟩ := cachedManifest_iff.mp h
    cases hm
    cases hentry

end Frames

section Tags

/-- Built tools name the server they are built for. -/
theorem nameTools_serverId {naming : NamingConfig} {entries : Dict String RegistryEntry}
    {server : UpstreamServer} {existing : Dict String String} {raws : List RawTool}
    {tools : List ToolDefinition} (hb : nameTools naming entries server existing raws=.ok tools) :
    ∀ td∈tools, td.serverId=some server.id := by
  induction raws generalizing existing tools with
  | nil =>
    cases hb
    exact fun _ h => absurd h List.not_mem_nil
  | cons raw rest ih =>
    rcases nameTools_cons hb with ⟨-,ht⟩ | ⟨q,later,-,ht,rfl⟩
    · exact ih ht
    · intro td hm
      rcases List.mem_cons.mp hm with rfl | hlater
      · rfl
      · exact ih ht td hlater

/-- A synchronized entry has the tools it had or tools built for its server. -/
theorem syncEntry_serverId (naming : NamingConfig) (entries : Dict String RegistryEntry)
    {entry : RegistryEntry} (h : ∀ td∈entry.tools, td.serverId=some entry.server.id)
    (answer : Except String (List RawTool)) :
    ∀ td∈(Registry.syncEntry naming entries entry answer).tools,
      td.serverId=some entry.server.id := by
  unfold Registry.syncEntry
  cases answer with
  | error text => exact h
  | ok raws =>
    dsimp only
    cases hb : buildToolDefinitions naming entries entry.server raws with
    | error conflict => exact h
    | ok tools => exact nameTools_serverId hb

/-- Every operation keeps tools under the id they name. -/
theorem tagged_step {s : RegistryRun} (hk : Keyed s.registry) (h : Tagged s.registry)
    (a : RegistryAction) : Tagged (RegistryRuns.step s a).registry := by
  intro sid entry hg
  cases step_origin hg with
  | registered server action named made =>
    rw [made]
    exact fun _ ht => absurd ht List.not_mem_nil
  | settings old found server named made =>
    rw [made]
    exact h sid old found
  | synced old found index answer action captured made =>
    have hid := (hk sid old found).1
    have hown : ∀ td∈old.tools, td.serverId=some old.server.id := by
      rw [hid]
      exact h sid old found
    have htools := syncEntry_serverId s.registry.naming s.registry.entries hown answer
    rw [hid] at htools
    rw [made]
    exact htools

end Tags

/-- Entries and their tools are stored under the ids they name. -/
def Filed (g : Gateway) : Prop :=
  Keyed g.orchestrator.registry ∧ Tagged g.orchestrator.registry

/-- The cached manifest, if there is one, lists what the registry holds. -/
def CacheCurrent (o : Orchestrator) (now : ℚ) : Prop :=
  ∀ manifest, cachedManifest o now=some manifest→
    manifest.tools=(computeManifest o.registry none).tools

/-- Manifest requests are current exactly when the cached manifest is. -/
theorem current_iff {g : Gateway} (hf : Filed g) :
    Current g ↔ CacheCurrent g.orchestrator g.clock := by
  have hnone := buildManifest_none g.orchestrator g.clock
  constructor
  · intro h manifest hm
    have hrecomputed := h.recomputed
    rw [hnone,hm,Option.getD_some] at hrecomputed
    exact hrecomputed
  · intro h
    have hrecomputed : (buildManifest g.orchestrator g.clock none).2.tools=
        (computeManifest g.orchestrator.registry none).tools := by
      rw [hnone]
      cases hm : cachedManifest g.orchestrator g.clock with
      | none => rfl
      | some manifest => exact h manifest hm
    have hlisted : ∀ tag, ∀ td∈(buildManifest g.orchestrator g.clock tag).2.tools,
        ∃ tag, td∈(computeManifest g.orchestrator.registry tag).tools := by
      intro tag td htd
      cases tag with
      | none =>
        rw [hrecomputed] at htd
        exact ⟨none,htd⟩
      | some tag =>
        rw [buildManifest_some] at htd
        exact ⟨some tag,htd⟩
    refine ⟨hrecomputed,fun sid hoff tag td htd hsid => ?_⟩
    obtain ⟨shown,hshown⟩ := hlisted tag td htd
    obtain ⟨other,entry,hg,henabled,htool⟩ := mem_computeManifest hshown
    have hother := hf.2 other entry hg td htool
    rw [hsid] at hother
    cases hother
    rw [hoff entry hg] at henabled
    cases henabled

/-- `invalidate_manifest` on the cache, if there is one. -/
def invalidated (o : Orchestrator) : Orchestrator :=
  {o with cache := o.cache.map ToolCache.invalidateManifest}

/-- Dropping the cached manifest makes manifest requests current. -/
theorem current_of_invalidated {g : Gateway} (hf : Filed g) :
    Current {g with orchestrator := invalidated g.orchestrator} := by
  have hfiled : Filed {g with orchestrator := invalidated g.orchestrator} := hf
  refine (current_iff hfiled).mpr fun manifest hm => ?_
  obtain ⟨cfg,store,entry,hstore,-,hentry,-⟩ := cachedManifest_iff.mp hm
  obtain ⟨cache,hc,hpair⟩ := Option.map_eq_some_iff.mp hstore
  obtain ⟨earlier,-,rfl⟩ := Option.map_eq_some_iff.mp hc
  obtain ⟨-,rfl⟩ := Prod.mk.inj hpair
  have hgone : earlier.invalidateManifest.manifestStore.entries.get? ToolCache.manifestKey=
      none := by
    exact (Dict.get?_pop _ _ _).trans (if_pos rfl)
  rw [hgone] at hentry
  cases hentry

/-- A step of the gateway acts on the registry by a registry operation alone. -/
theorem step_registry (rt : Runtime) (g : Gateway) (a : GatewayAction) :
    (∃ action, a=.registry action ∧ (GatewayRuns.step rt g a).1.orchestrator.registry=
      (RegistryRuns.step ⟨g.orchestrator.registry,g.syncs⟩ action).registry) ∨
    ((∀ action, a≠.registry action) ∧
      (GatewayRuns.step rt g a).1.orchestrator.registry=g.orchestrator.registry) := by
  cases a with
  | registry action => exact Or.inl ⟨action,rfl,rfl⟩
  | reload cfg => exact Or.inr ⟨fun _ h => (by cases h),swapPolicies_registry rt cfg _⟩
  | installWebhooks => exact Or.inr ⟨fun _ h => (by cases h),rfl⟩
  | manifest tag => exact Or.inr ⟨fun _ h => (by cases h),buildManifest_registry _ _ tag⟩
  | tick elapsed => exact Or.inr ⟨fun _ h => (by cases h),rfl⟩
  | callStart request =>
    exact Or.inr ⟨fun _ h => (by cases h),(startCall_frame rt _ _ request).1⟩
  | callFinish index outcome =>
    refine Or.inr ⟨fun _ h => (by cases h),?_⟩
    simp only [GatewayRuns.step]
    split
    · rfl
    · exact (finishCall_frame rt _ _ _ _).1

/-- Every action keeps entries and tools under their ids. -/
theorem filed_step (rt : Runtime) (g : Gateway) (a : GatewayAction) (h : Filed g) :
    Filed (GatewayRuns.step rt g a).1 := by
  unfold Filed
  rcases step_registry rt g a with ⟨action,-,hreg⟩ | ⟨-,hreg⟩
  · rw [hreg]
    exact ⟨keyed_step ⟨g.orchestrator.registry,g.syncs⟩ action h.1,tagged_step h.1 h.2 action⟩
  · rw [hreg]
    exact h

/-- After any action but a registry operation, the cached manifest is the
earlier one or the aggregate of that moment. -/
theorem cachedManifest_step {rt : Runtime} {g : Gateway} {a : GatewayAction}
    (ha : ∀ action, a≠.registry action) {manifest : ToolManifest}
    (h : cachedManifest (GatewayRuns.step rt g a).1.orchestrator (GatewayRuns.step rt g a).1.clock=
      some manifest) :
    cachedManifest g.orchestrator g.clock=some manifest ∨
      manifest=computeManifest g.orchestrator.registry none := by
  cases a with
  | registry action => exact absurd rfl (ha action)
  | reload cfg => exact Or.inl (swapPolicies_cached h)
  | installWebhooks => exact Or.inl h
  | manifest tag => exact cachedManifest_buildManifest h
  | tick elapsed =>
    have hpos : (0 : ℚ)≤elapsed := elapsed.2
    have hle : g.clock≤g.clock+elapsed := by linarith
    exact Or.inl (cachedManifest_earlier hle h)
  | callStart request =>
    have hsame := (startCall_frame rt g.orchestrator g.clock request).2
    exact Or.inl ((cachedManifest_congr hsame g.clock).symm.trans h)
  | callFinish index outcome =>
    simp only [GatewayRuns.step] at h
    split at h
    · exact Or.inl h
    · rename_i call _
      have hsame := (finishCall_frame rt g.orchestrator g.clock call (clientAnswer rt outcome)).2
      exact Or.inl ((cachedManifest_congr hsame g.clock).symm.trans h)

/-- One action keeps the cached manifest current exactly when it changes no
contribution under it. -/
theorem cacheCurrent_step (rt : Runtime) {g : Gateway}
    (h : CacheCurrent g.orchestrator g.clock) (a : GatewayAction) :
    CacheCurrent (GatewayRuns.step rt g a).1.orchestrator (GatewayRuns.step rt g a).1.clock ↔
      KeepsAggregate g a := by
  rcases step_registry rt g a with ⟨action,rfl,-⟩ | ⟨ha,hreg⟩
  · have haggregate := aggregate_step ⟨g.orchestrator.registry,g.syncs⟩ action
    constructor
    · intro hnext other hother hcached
      cases hother
      obtain ⟨manifest,hm⟩ := Option.isSome_iff_exists.mp hcached
      exact haggregate.mp ((hnext manifest hm).symm.trans (h manifest hm))
    · intro hkeeps manifest hm
      have hcached : (cachedManifest g.orchestrator g.clock).isSome=true :=
        Option.isSome_iff_exists.mpr ⟨manifest,hm⟩
      exact (h manifest hm).trans (haggregate.mpr (hkeeps action rfl hcached)).symm
  · refine ⟨fun _ action haction => absurd haction (ha action),fun _ manifest hm => ?_⟩
    rw [hreg]
    rcases cachedManifest_step ha hm with hold | rfl
    · exact h manifest hold
    · rfl

/-- A booted gateway holds no entry and caches no manifest. -/
theorem boot_empty {rt : Runtime} {cfg : GatewayConfig} {cbPolicy : CircuitBreakerPolicy}
    {now : ℚ} {g : Gateway} (hb : boot rt cfg cbPolicy now=.ok g) :
    Filed g ∧ CacheCurrent g.orchestrator g.clock := by
  unfold boot at hb
  cases hs : SafetyFilter.new rt cfg.guardrails with
  | error text =>
    rw [hs] at hb
    cases hb
  | ok safety =>
    rw [hs] at hb
    cases hb
    refine ⟨⟨keyed_start cfg.naming cbPolicy,fun _ _ h => by cases h⟩,fun manifest hm => ?_⟩
    obtain ⟨settings,store,entry,hm,-,hentry,-⟩ := cachedManifest_iff.mp hm
    cases hm
    cases hentry

/-- From boot on, every state answers manifest requests with what the
registry holds, and lists no tool of a withdrawn server, exactly when no
registry operation changes what its server contributes while a manifest is
cached. -/
theorem manifests_current_iff (rt : Runtime) (cfg : GatewayConfig)
    (cbPolicy : CircuitBreakerPolicy) (now : ℚ) (g : Gateway)
    (hb : boot rt cfg cbPolicy now=.ok g) (actions : List GatewayAction) :
    Always (fun g a => (GatewayRuns.step rt g a).1) Current g actions ↔
      Meets (fun g a => (GatewayRuns.step rt g a).1) KeepsAggregate g actions := by
  obtain ⟨hfiled,hcurrent⟩ := boot_empty hb
  refine always_iff_meets (filed_step rt) ?_ hfiled ((current_iff hfiled).mpr hcurrent) actions
  intro g a hf hp
  rw [current_iff (filed_step rt g a hf)]
  exact cacheCurrent_step rt ((current_iff hf).mp hp) a

/-- A server is synchronized, a manifest is requested, and the server is
withdrawn. -/
def withdrawal (action : RegistryAction) : List GatewayAction :=
  [.registry (.register (plainServer "a")),.registry (.syncStart "a"),
    .registry (.syncFinish 0 (.ok [{name := "t"}])),.manifest none,.registry action]

/-- The gateway after a withdrawal. -/
def withdrawn (action : RegistryAction) : Gateway :=
  final (fun g a => (GatewayRuns.step asciiRuntime g a).1) cachingGateway (withdrawal action)

theorem manifests_current_iff_withdrawal :
    Always (fun g a => (GatewayRuns.step asciiRuntime g a).1) Current cachingGateway
      (withdrawal (.deregister "a")) ↔
    Meets (fun g a => (GatewayRuns.step asciiRuntime g a).1) KeepsAggregate cachingGateway
      (withdrawal (.deregister "a")) :=
  manifests_current_iff asciiRuntime cachingConfig {} 0 cachingGateway rfl _

/-- Manifest requests are not current when they list a tool and the registry
has none. -/
theorem not_current {g : Gateway}
    (hnone : (computeManifest g.orchestrator.registry none).tools.length=0)
    (hsome : (buildManifest g.orchestrator g.clock none).2.tools.length=1) : ¬Current g := by
  intro h
  have hlength := congrArg List.length h.recomputed
  rw [hsome,hnone] at hlength
  cases hlength

/-- The default lifetime keeps listing the tools of a server that is removed
or disabled. -/
theorem withdrawn_still_listed :
    ((withdrawn (.deregister "a")).orchestrator.registry.entries.keys=[] ∧
      (buildManifest (withdrawn (.deregister "a")).orchestrator
        (withdrawn (.deregister "a")).clock none).2.tools.map ToolDefinition.serverId=[some "a"] ∧
      ¬Current (withdrawn (.deregister "a"))) ∧
    ((buildManifest (withdrawn (.setEnabled "a" false)).orchestrator
        (withdrawn (.setEnabled "a" false)).clock none).2.tools.map ToolDefinition.serverId=
        [some "a"] ∧
      ¬Current (withdrawn (.setEnabled "a" false))) := by
  refine ⟨⟨by decide +kernel,by decide +kernel,?_⟩,by decide +kernel,?_⟩
  · exact not_current (by decide +kernel) (by decide +kernel)
  · exact not_current (by decide +kernel) (by decide +kernel)

end McpGateway.ManifestFreshness
