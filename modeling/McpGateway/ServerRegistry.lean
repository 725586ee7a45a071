import Mathlib
import McpGateway.PyText
import McpGateway.PyDict
import McpGateway.GatewaySettings
import McpGateway.CircuitBreakers
import McpGateway.ToolNaming

/-!
# The server registry

Entries by server id, with the operations that change them and the lookup of
a tool by its advertised name. A synchronization asks the upstream for its
manifest between its start and its finish; the finish addresses the entry
object captured at the start, which the client identity distinguishes from a
later registration under the same id. Names are unique when no two tools of
the whole registry share a non-empty qualified name.
-/

namespace McpGateway.ServerRegistry

open PyText PyDict GatewaySettings CircuitBreakers ToolNaming

/-- The registry of one gateway process. -/
structure Registry where
  /-- Registered servers in insertion order. -/
  entries : Dict String RegistryEntry := Dict.empty
  /-- Breakers by server id; they outlive registrations. -/
  cbRegistry : CircuitBreakerRegistry := {}
  /-- Naming settings, fixed at construction. -/
  naming : NamingConfig := {}
  /-- Identity of the next client object. -/
  nextUid : ℕ := 0
  /-- The gauge of registered servers. -/
  registeredServers : ℕ := 0
  /-- The gauge of tools of enabled servers. -/
  registeredTools : ℕ := 0

namespace Registry

/-- `_recompute_tool_count`. -/
def recomputeToolCount (reg : Registry) : Registry :=
  let enabled := reg.entries.values.filter (fun e => e.server.enabled)
  {reg with registeredTools := (enabled.map (fun e => e.tools.length)).sum}

/-- `register` without its synchronization: a fresh client and an entry
without tools replace whatever the id held. -/
def register (reg : Registry) (server : UpstreamServer) : Registry :=
  let entries := reg.entries.set server.id {server := server,client := ⟨reg.nextUid,server⟩}
  {reg with
    entries := entries
    cbRegistry :=
      if reg.cbRegistry.policy.enabled=true then (reg.cbRegistry.get server.id).1
      else reg.cbRegistry
    nextUid := reg.nextUid+1
    registeredServers := entries.size}

/-- `deregister`: an unknown id changes nothing but the gauge. -/
def deregister (reg : Registry) (serverId : String) : Registry :=
  let entries := reg.entries.pop serverId
  let popped := {reg with entries := entries,registeredServers := entries.size}
  if reg.entries.contains serverId=true then popped.recomputeToolCount else popped

/-- `set_enabled`. -/
def setEnabled (reg : Registry) (serverId : String) (enabled : Bool) : Registry :=
  {reg with
    entries := reg.entries.modify serverId
      (fun e => {e with server := {e.server with enabled := enabled}})}

/-- The in-place update of a reload: new settings under an unchanged client. -/
def updateServer (reg : Registry) (server : UpstreamServer) : Registry :=
  {reg with entries := reg.entries.modify server.id (fun e => {e with server := server})}

/-- First part of `sync_one`: the captured entry, when there is one to ask. -/
def startSync (reg : Registry) (serverId : String) : Option ℕ :=
  match reg.entries.get? serverId with
  | some entry => if entry.server.enabled=true then some entry.client.uid else none
  | none => none

/-- The captured entry after the upstream's answer. A failure keeps its tools. -/
def syncEntry (naming : NamingConfig) (entries : Dict String RegistryEntry)
    (entry : RegistryEntry) (answer : Except String (List RawTool)) : RegistryEntry :=
  match answer with
  | .error text => {entry with healthy := false,lastError := some text}
  | .ok rawTools =>
    match buildToolDefinitions naming entries entry.server rawTools with
    | .error conflict => {entry with healthy := false,lastError := some conflict.message}
    | .ok tools => {entry with tools := tools,healthy := true,lastError := none}

/-- Second part of `sync_one`. An entry that was removed or replaced in the
meantime is still updated, and nobody sees it. -/
def finishSync (reg : Registry) (serverId : String) (uid : ℕ)
    (answer : Except String (List RawTool)) : Registry :=
  match reg.entries.get? serverId with
  | some entry =>
    if entry.client.uid=uid then
      let synced := syncEntry reg.naming reg.entries entry answer
      {reg with entries := reg.entries.set serverId synced}.recomputeToolCount
    else reg.recomputeToolCount
  | none => reg.recomputeToolCount

/-- Step 1 of the lookup: the first tool with this qualified name. -/
def exactMatch (reg : Registry) (q : String) : Option (RegistryEntry×String) :=
  reg.entries.values.findSome? (fun entry =>
    (entry.tools.find? (fun td => td.qualifiedName==some q)).map (fun td => (entry,td.name)))

/-- Step 2 of the lookup: the first server whose prefix stands before the
first dot, with whatever follows it as the raw name. -/
def prefixSplit (reg : Registry) (q : String) : Option (RegistryEntry×String) :=
  match partitionAt '.' q with
  | none => none
  | some (head,raw) =>
    (reg.entries.values.find? (fun entry => entry.server.effectivePrefix==head)).map
      (fun entry => (entry,raw))

/-- Every tool with this raw name. -/
def bareMatches (reg : Registry) (q : String) : List (RegistryEntry×String) :=
  reg.entries.values.flatMap (fun entry =>
    (entry.tools.filter (fun td => td.name==q)).map (fun _ => (entry,q)))

/-- Step 3 of the lookup: a raw name that exactly one tool has. -/
def bareMatch (reg : Registry) (q : String) : Option (RegistryEntry×String) :=
  match reg.bareMatches q with
  | [found] => some found
  | _ => none

/-- `find_by_qualified_tool`. -/
def findByQualifiedTool (reg : Registry) (q : String) : Option (RegistryEntry×String) :=
  (reg.exactMatch q).or ((reg.prefixSplit q).or (reg.bareMatch q))

end Registry

/-- Non-empty advertised names of all servers, with multiplicity. -/
def advertised (entries : Dict String RegistryEntry) : List String :=
  entries.values.flatMap (fun entry => advertisedNames entry.tools)

/-- No two tools share a non-empty qualified name. -/
def UniqueNames (entries : Dict String RegistryEntry) : Prop := (advertised entries).Nodup

/-- Each entry is stored under its own server id, with a client built for
that id whose identity has been handed out. -/
def Keyed (reg : Registry) : Prop :=
  ∀ sid entry, reg.entries.get? sid=some entry→
    entry.server.id=sid ∧ entry.client.server.id=sid ∧ entry.client.uid<reg.nextUid

/-- Every tool with an advertised name is the one its name resolves to. -/
def RoutingSound (reg : Registry) : Prop :=
  UniqueNames reg.entries ∧ ∀ entry∈reg.entries.values, ∀ td∈entry.tools, ∀ q,
    td.qualifiedName=some q→q≠""→ reg.findByQualifiedTool q=some (entry,td.name)

/-- Uniqueness splits into each manifest and each pair of servers. -/
theorem uniqueNames_iff (entries : Dict String RegistryEntry) :
    UniqueNames entries ↔
      (∀ sid entry, entries.get? sid=some entry→(advertisedNames entry.tools).Nodup) ∧
      ∀ s₁ s₂ e₁ e₂, entries.get? s₁=some e₁→entries.get? s₂=some e₂→s₁≠s₂→
        List.Disjoint (advertisedNames e₁.tools) (advertisedNames e₂.tools) := by
  have hpair := Dict.pairwise_values_iff
    (R:=fun a b : RegistryEntry =>
      List.Disjoint (advertisedNames a.tools) (advertisedNames b.tools))
    (fun _ _ h => List.disjoint_symm h) entries
  rw [UniqueNames,advertised,List.nodup_flatMap,←hpair]
  refine and_congr_left fun _ => ?_
  constructor
  · intro h sid entry hg
    exact h entry (Dict.mem_values_iff.mpr ⟨sid,hg⟩)
  · intro h entry hm
    obtain ⟨sid,hg⟩ := Dict.mem_values_iff.mp hm
    exact h sid entry hg

/-- Uniqueness depends only on the tools stored under each key that remains. -/
theorem UniqueNames.mono {entries entries' : Dict String RegistryEntry} (h : UniqueNames entries)
    (hsub : ∀ sid entry', entries'.get? sid=some entry'→
      ∃ entry, entries.get? sid=some entry ∧ entry.tools=entry'.tools) :
    UniqueNames entries' := by
  obtain ⟨heach,hpair⟩ := (uniqueNames_iff entries).mp h
  refine (uniqueNames_iff entries').mpr ⟨?_,?_⟩
  · intro sid entry' hg
    obtain ⟨entry,hg₀,ht⟩ := hsub sid entry' hg
    rw [←ht]
    exact heach sid entry hg₀
  · intro s₁ s₂ e₁ e₂ h₁ h₂ hne
    obtain ⟨d₁,hd₁,ht₁⟩ := hsub s₁ e₁ h₁
    obtain ⟨d₂,hd₂,ht₂⟩ := hsub s₂ e₂ h₂
    rw [←ht₁,←ht₂]
    exact hpair s₁ s₂ d₁ d₂ hd₁ hd₂ hne

/-- Storing an entry over one with the same tools keeps uniqueness. -/
theorem UniqueNames.set_same {entries : Dict String RegistryEntry} (h : UniqueNames entries)
    {sid : String} {entry entry' : RegistryEntry} (hg : entries.get? sid=some entry)
    (ht : entry.tools=entry'.tools) : UniqueNames (entries.set sid entry') := by
  refine h.mono fun other e he => ?_
  rw [Dict.get?_set] at he
  by_cases hs : sid=other
  · rw [if_pos hs] at he
    cases he
    exact ⟨entry,hs ▸ hg,ht⟩
  · rw [if_neg hs] at he
    exact ⟨e,he,rfl⟩

/-- Storing an entry keeps uniqueness exactly when its names are distinct and
none is claimed by another server. -/
theorem uniqueNames_set {entries : Dict String RegistryEntry} (h : UniqueNames entries)
    (sid : String) (entry : RegistryEntry) :
    UniqueNames (entries.set sid entry) ↔ (advertisedNames entry.tools).Nodup ∧
      ∀ q∈advertisedNames entry.tools, (claimedByOthers entries sid).contains q=false := by
  obtain ⟨heach,hpair⟩ := (uniqueNames_iff entries).mp h
  rw [uniqueNames_iff]
  constructor
  · intro hu
    refine ⟨hu.1 sid entry (Dict.get?_set_self _ _ _),fun q hq => ?_⟩
    cases hc : (claimedByOthers entries sid).contains q with
    | false => rfl
    | true =>
      obtain ⟨other,e,hg,hne,hm⟩ := (claimedByOthers_contains _ _ _).mp hc
      have hg' : (entries.set sid entry).get? other=some e := by
        rw [Dict.get?_set_other _ (Ne.symm hne),hg]
      exact absurd hm (hu.2 sid other entry e (Dict.get?_set_self _ _ _) hg' (Ne.symm hne) hq)
  · intro hn
    have hfree : ∀ other e, entries.get? other=some e→ other≠sid→
        List.Disjoint (advertisedNames entry.tools) (advertisedNames e.tools) := by
      intro other e hg hne q hq hm
      have hc := (claimedByOthers_contains entries sid q).mpr ⟨other,e,hg,hne,hm⟩
      rw [hn.2 q hq] at hc
      cases hc
    refine ⟨?_,?_⟩
    · intro other e hg
      rw [Dict.get?_set] at hg
      by_cases ho : sid=other
      · rw [if_pos ho] at hg
        cases hg
        exact hn.1
      · rw [if_neg ho] at hg
        exact heach other e hg
    · intro s₁ s₂ e₁ e₂ h₁ h₂ hne
      rw [Dict.get?_set] at h₁ h₂
      by_cases hs₁ : sid=s₁
      · rw [if_pos hs₁] at h₁
        have hs₂ : sid≠s₂ := fun he => hne (hs₁.symm.trans he)
        rw [if_neg hs₂] at h₂
        cases h₁
        exact hfree s₂ e₂ h₂ (Ne.symm hs₂)
      · rw [if_neg hs₁] at h₁
        by_cases hs₂ : sid=s₂
        · rw [if_pos hs₂] at h₂
          cases h₂
          exact List.disjoint_symm (hfree s₁ e₁ h₁ (Ne.symm hs₁))
        · rw [if_neg hs₂] at h₂
          exact hpair s₁ s₂ e₁ e₂ h₁ h₂ hne

/-- Within one manifest of distinct names, a name is found at its definition. -/
theorem find_of_nodup {tools : List ToolDefinition} {td : ToolDefinition} {q : String}
    (ht : td∈tools) (ha : td.advertisedName=some q) (hn : (advertisedNames tools).Nodup) :
    tools.find? (fun d => d.qualifiedName==some q)=some td := by
  obtain ⟨hq,hne⟩ := advertisedName_eq_some.mp ha
  induction tools with
  | nil => exact absurd ht List.not_mem_nil
  | cons d rest ih =>
    by_cases hd : d.qualifiedName=some q
    · have hdq : d.advertisedName=some q := advertisedName_eq_some.mpr ⟨hd,hne⟩
      simp only [advertisedNames,List.filterMap_cons,hdq] at hn
      rcases List.mem_cons.mp ht with rfl | hr
      · simp [hd]
      · exact absurd (mem_advertisedNames.mpr ⟨td,hr,ha⟩) (List.nodup_cons.mp hn).1
    · rw [List.find?_cons_of_neg (by simpa using hd)]
      rcases List.mem_cons.mp ht with rfl | hr
      · exact absurd hq hd
      · refine ih hr ?_
        unfold advertisedNames at hn
        rw [List.filterMap_cons] at hn
        split at hn
        · exact hn
        · exact (List.nodup_cons.mp hn).2

/-- Across manifests whose names are all distinct, a name is found at its entry. -/
theorem findSome_of_nodup {values : List RegistryEntry} {entry : RegistryEntry}
    {td : ToolDefinition} {q : String} (he : entry∈values) (ht : td∈entry.tools)
    (ha : td.advertisedName=some q)
    (hn : (values.flatMap (fun e => advertisedNames e.tools)).Nodup) :
    values.findSome? (fun e => (e.tools.find? (fun d => d.qualifiedName==some q)).map
      (fun d => (e,d.name)))=some (entry,td.name) := by
  have hne := (advertisedName_eq_some.mp ha).2
  induction values with
  | nil => exact absurd he List.not_mem_nil
  | cons e rest ih =>
    rw [List.flatMap_cons,List.nodup_append] at hn
    obtain ⟨hhead,htail,hdisjoint⟩ := hn
    rw [List.findSome?_cons]
    rcases List.mem_cons.mp he with rfl | hr
    · rw [find_of_nodup ht ha hhead]
      rfl
    · have hlater : q∈rest.flatMap (fun e => advertisedNames e.tools) :=
        List.mem_flatMap.mpr ⟨entry,hr,mem_advertisedNames.mpr ⟨td,ht,ha⟩⟩
      have hnone : e.tools.find? (fun d => d.qualifiedName==some q)=none := by
        rw [List.find?_eq_none]
        intro d hd hdq
        have hmem := mem_advertisedNames.mpr
          ⟨d,hd,advertisedName_eq_some.mpr ⟨by simpa using hdq,hne⟩⟩
        exact hdisjoint q hmem q hlater rfl
      rw [hnone]
      exact ih hr htail

/-- The exact lookup finds the owner of a name that nobody else has. -/
theorem exactMatch_of_unique {reg : Registry} (hu : UniqueNames reg.entries)
    {entry : RegistryEntry} (he : entry∈reg.entries.values) {td : ToolDefinition}
    (ht : td∈entry.tools) {q : String} (hq : td.qualifiedName=some q) (hne : q≠"") :
    reg.exactMatch q=some (entry,td.name) :=
  findSome_of_nodup he ht (advertisedName_eq_some.mpr ⟨hq,hne⟩) hu

/-- Every step of the lookup answers with a registered entry. -/
theorem findByQualifiedTool_mem {reg : Registry} {q : String} {entry : RegistryEntry}
    {raw : String} (h : reg.findByQualifiedTool q=some (entry,raw)) :
    entry∈reg.entries.values := by
  unfold Registry.findByQualifiedTool at h
  rcases Option.or_eq_some_iff.mp h with hexact | ⟨-,hrest⟩
  · obtain ⟨e,he,hmap⟩ := List.exists_of_findSome?_eq_some hexact
    obtain ⟨td,-,hpair⟩ := Option.map_eq_some_iff.mp hmap
    cases hpair
    exact he
  · rcases Option.or_eq_some_iff.mp hrest with hsplit | ⟨-,hbare⟩
    · unfold Registry.prefixSplit at hsplit
      split at hsplit
      · cases hsplit
      · obtain ⟨e,hfind,hpair⟩ := Option.map_eq_some_iff.mp hsplit
        cases hpair
        exact List.mem_of_find?_eq_some hfind
    · unfold Registry.bareMatch at hbare
      split at hbare
      · rename_i found hone
        cases hbare
        have hm : (entry,raw)∈reg.bareMatches q := by
          rw [hone]
          exact List.mem_singleton_self _
        obtain ⟨e,he,hin⟩ := List.mem_flatMap.mp hm
        obtain ⟨td,-,hpair⟩ := List.mem_map.mp hin
        cases hpair
        exact he
      · cases hbare

/-- Routing is sound exactly when names are unique. -/
theorem routingSound_iff (reg : Registry) : RoutingSound reg ↔ UniqueNames reg.entries := by
  constructor
  · exact fun h => h.1
  · intro hu
    refine ⟨hu,fun entry he td ht q hq hne => ?_⟩
    rw [Registry.findByQualifiedTool,exactMatch_of_unique hu he ht hq hne]
    rfl

/-- A new registration starts without tools. -/
theorem uniqueNames_register {reg : Registry} (h : UniqueNames reg.entries)
    (server : UpstreamServer) : UniqueNames (reg.register server).entries :=
  (uniqueNames_set h _ _).mpr ⟨List.nodup_nil,fun _ hq => absurd hq List.not_mem_nil⟩

/-- A removal pops the entry and changes neither the identities, the breakers
nor the naming. -/
theorem deregister_frame (reg : Registry) (serverId : String) :
    (reg.deregister serverId).entries=reg.entries.pop serverId ∧
      (reg.deregister serverId).nextUid=reg.nextUid ∧
      (reg.deregister serverId).cbRegistry=reg.cbRegistry ∧
      (reg.deregister serverId).naming=reg.naming := by
  unfold Registry.deregister
  dsimp only
  split <;> exact ⟨rfl,rfl,rfl,rfl⟩

/-- A synchronization changes neither the identities, the breakers nor the
naming. -/
theorem finishSync_frame (reg : Registry) (serverId : String) (uid : ℕ)
    (answer : Except String (List RawTool)) :
    (reg.finishSync serverId uid answer).nextUid=reg.nextUid ∧
      (reg.finishSync serverId uid answer).cbRegistry=reg.cbRegistry ∧
      (reg.finishSync serverId uid answer).naming=reg.naming := by
  unfold Registry.finishSync
  split
  · dsimp only
    split <;> exact ⟨rfl,rfl,rfl⟩
  · exact ⟨rfl,rfl,rfl⟩

/-- What a completed synchronization does to the entries: it replaces the one
it captured, should that still be registered. -/
theorem finishSync_cases (reg : Registry) (serverId : String) (uid : ℕ)
    (answer : Except String (List RawTool)) :
    (∃ entry, reg.entries.get? serverId=some entry ∧ entry.client.uid=uid ∧
      (reg.finishSync serverId uid answer).entries=reg.entries.set serverId
        (Registry.syncEntry reg.naming reg.entries entry answer)) ∨
    ((∀ entry, reg.entries.get? serverId=some entry→entry.client.uid≠uid) ∧
      (reg.finishSync serverId uid answer).entries=reg.entries) := by
  unfold Registry.finishSync
  cases hg : reg.entries.get? serverId with
  | none => exact Or.inr ⟨fun _ h => (by cases h),rfl⟩
  | some entry =>
    by_cases hu : entry.client.uid=uid
    · simp only [if_pos hu]
      exact Or.inl ⟨entry,rfl,hu,rfl⟩
    · simp only [if_neg hu]
      refine Or.inr ⟨fun e h => ?_,rfl⟩
      cases h
      exact hu

/-- A completed synchronization leaves the entries of other servers alone. -/
theorem finishSync_other (reg : Registry) {serverId sid : String} (h : serverId≠sid) (uid : ℕ)
    (answer : Except String (List RawTool)) :
    (reg.finishSync serverId uid answer).entries.get? sid=reg.entries.get? sid := by
  rcases finishSync_cases reg serverId uid answer with ⟨entry,-,-,hentries⟩ | ⟨-,hentries⟩
  · rw [hentries,Dict.get?_set_other _ h]
  · rw [hentries]

/-- Removal keeps the other servers' tools. -/
theorem uniqueNames_deregister {reg : Registry} (h : UniqueNames reg.entries)
    (serverId : String) : UniqueNames (reg.deregister serverId).entries := by
  rw [(deregister_frame reg serverId).1]
  refine h.mono fun sid entry hg => ⟨entry,?_,rfl⟩
  rw [Dict.get?_pop] at hg
  split at hg
  · cases hg
  · exact hg

/-- Replacing settings in place keeps every tool list. -/
theorem uniqueNames_modify {entries : Dict String RegistryEntry} (h : UniqueNames entries)
    (serverId : String) (f : RegistryEntry→RegistryEntry) (hf : ∀ e, (f e).tools=e.tools) :
    UniqueNames (entries.modify serverId f) := by
  refine h.mono fun sid entry hg => ?_
  rw [Dict.get?_modify] at hg
  by_cases hs : serverId=sid
  · rw [if_pos hs,Option.map_eq_some_iff] at hg
    obtain ⟨e,he,rfl⟩ := hg
    exact ⟨e,hs ▸ he,(hf e).symm⟩
  · rw [if_neg hs] at hg
    exact ⟨entry,hg,rfl⟩

/-- The answer of a synchronization assigns only new names. It is about the
entry still registered under the captured identity; other answers are void. -/
def SyncFresh (reg : Registry) (serverId : String) (uid : ℕ)
    (answer : Except String (List RawTool)) : Prop :=
  ∀ entry rawTools, reg.entries.get? serverId=some entry→entry.client.uid=uid→
    answer=.ok rawTools→
      FreshClaims reg.naming reg.entries entry.server
        (claimedByOthers reg.entries entry.server.id) rawTools

/-- A completed synchronization keeps names unique exactly when every name it
assigns is new at its turn. -/
theorem uniqueNames_finishSync {reg : Registry} (hk : Keyed reg) (h : UniqueNames reg.entries)
    (serverId : String) (uid : ℕ) (answer : Except String (List RawTool)) :
    UniqueNames (reg.finishSync serverId uid answer).entries ↔
      SyncFresh reg serverId uid answer := by
  unfold SyncFresh
  rcases finishSync_cases reg serverId uid answer with ⟨entry,hg,hu,hentries⟩ | ⟨hgone,hentries⟩
  · have hid := (hk serverId entry hg).1
    rw [hentries]
    cases answer with
    | error text => exact ⟨fun _ _ _ _ _ ha => (by cases ha),fun _ => h.set_same hg rfl⟩
    | ok rawTools =>
      simp only [Registry.syncEntry]
      cases hb : buildToolDefinitions reg.naming reg.entries entry.server rawTools with
      | error conflict =>
        have hc : reg.naming.onConflict≠.suffix := by
          intro hc
          exact buildToolDefinitions_ne_error hc hb
        refine ⟨fun _ e raws he _ _ => ?_,fun _ => h.set_same hg rfl⟩
        exact freshClaims_of_refusing hc _ _ _ _
      | ok tools =>
        dsimp only
        rw [uniqueNames_set h]
        constructor
        · rintro ⟨hn,hd⟩ e raws he - ha
          rw [hg] at he
          cases he
          cases ha
          rw [←hid] at hd
          exact freshClaims_of_names hb hn hd
        · intro hf
          have hfresh := nameTools_fresh hb (hf entry rawTools hg hu rfl)
          rw [hid] at hfresh
          exact hfresh
  · rw [hentries]
    exact ⟨fun _ e _ he hu => absurd hu (hgone e he),fun _ => h⟩

end McpGateway.ServerRegistry
