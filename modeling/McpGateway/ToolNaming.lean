import Mathlib
import McpGateway.PyText
import McpGateway.PyDict
import McpGateway.JsonValue
import McpGateway.GatewaySettings

/-!
# Qualified tool names

One synchronization names the tools of one server against the names that the
other servers hold at that moment. The table of taken names is threaded
through the manifest exactly as the source loop does, and the collision
policy decides each tool. Every accepted name is shown to be new under the
two refusing policies; under the renaming policy it is new exactly when no
renamed tool meets a taken name.
-/

namespace McpGateway.ToolNaming

open PyText PyDict JsonValue GatewaySettings

/-- A tool as an upstream lists it. -/
structure RawTool where
  /-- Raw tool name, chosen by the upstream. -/
  name : String
  /-- Description, empty when the upstream has none. -/
  description : String := ""
  /-- Schema of the arguments. -/
  inputSchema : Json := .obj []

/-- A tool with its gateway metadata. -/
structure ToolDefinition where
  /-- Raw tool name. -/
  name : String
  /-- Description. -/
  description : Option String := none
  /-- Schema of the arguments. -/
  inputSchema : Json := .obj []
  /-- Server that exposes the tool. -/
  serverId : Option String := none
  /-- Name under which the gateway advertises the tool. -/
  qualifiedName : Option String := none
  /-- Whether the server lists the tool as mutable. -/
  mutable : Bool := false
  /-- Tags of the server. -/
  tags : List String := []

/-- The client object of one registration: its identity and the server
settings it was constructed from. -/
structure ClientRef where
  /-- Object identity; every registration builds a new client. -/
  uid : ℕ
  /-- Settings at construction. -/
  server : UpstreamServer

/-- A registered server. The client identity also identifies the entry. -/
structure RegistryEntry where
  /-- Current settings, replaced by in-place updates. -/
  server : UpstreamServer
  /-- The client built at registration. -/
  client : ClientRef
  /-- Tools of the last successful synchronization. -/
  tools : List ToolDefinition := []
  /-- Text of the last synchronization failure. -/
  lastError : Option String := none
  /-- Whether the last synchronization succeeded. -/
  healthy : Bool := false

/-- Raised under the `error` policy. -/
structure ToolNameConflict where
  /-- Exception text. -/
  message : String
  deriving DecidableEq

/-- The qualified name when it is true in Python, so neither absent nor empty. -/
def ToolDefinition.advertisedName (td : ToolDefinition) : Option String :=
  match td.qualifiedName with
  | some q => if q="" then none else some q
  | none => none

/-- Record the advertised names of one server. -/
def claimTools (sid : String) (existing : Dict String String) (tools : List ToolDefinition) :
    Dict String String :=
  tools.foldl (fun acc td =>
    match td.advertisedName with
    | some q => acc.set q sid
    | none => acc) existing

/-- `existing`: names claimed by every server but the given one. -/
def claimedByOthers (entries : Dict String RegistryEntry) (serverId : String) :
    Dict String String :=
  entries.items.foldl (fun acc item =>
    if item.1=serverId then acc else claimTools item.1 acc item.2.tools) Dict.empty

/-- `collides`: some other server exposes this raw name. -/
def collides (entries : Dict String RegistryEntry) (serverId bare : String) : Bool :=
  entries.items.any (fun item =>
    decide (item.1≠serverId) && item.2.tools.any (fun t => t.name==bare))

/-- Name chosen by the strategy before the collision policy. -/
def baseName (strategy : NamingStrategy) (entries : Dict String RegistryEntry)
    (server : UpstreamServer) (bare : String) : String :=
  match strategy with
  | .prefixAlways => server.effectivePrefix++"."++bare
  | .bare => bare
  | .prefixOnConflict =>
    if collides entries server.id bare=true then server.effectivePrefix++"."++bare else bare

/-- Name of a renamed tool. -/
def suffixed (base serverId : String) : String := base++"_"++serverId

/-- Collision policy for one tool: its final name, nothing when the tool is
skipped, or the exception that rejects the manifest. -/
def claimName (onConflict : OnConflict) (existing : Dict String String) (serverId base : String) :
    Except ToolNameConflict (Option String) :=
  match existing.get? base with
  | none => .ok (some base)
  | some owner =>
    match onConflict with
    | .error => .error ⟨"tool '"++base++"' already registered by server '"++owner++
        "'; cannot register from '"++serverId++"'"⟩
    | .suffix => .ok (some (suffixed base serverId))
    | .warn => .ok none

/-- The definition built for a raw tool under its final name. -/
def toolDefinition (server : UpstreamServer) (raw : RawTool) (qualified : String) :
    ToolDefinition :=
  ⟨raw.name,some raw.description,raw.inputSchema,some server.id,some qualified,
    decide (raw.name∈server.mutableTools),server.tags⟩

/-- The loop over the manifest with its table of taken names. -/
def nameTools (naming : NamingConfig) (entries : Dict String RegistryEntry)
    (server : UpstreamServer) : Dict String String→List RawTool→
    Except ToolNameConflict (List ToolDefinition)
  | _,[] => .ok []
  | existing,raw::rest =>
    match claimName naming.onConflict existing server.id
        (baseName naming.strategy entries server raw.name) with
    | .error conflict => .error conflict
    | .ok none => nameTools naming entries server existing rest
    | .ok (some qualified) =>
      match nameTools naming entries server (existing.set qualified server.id) rest with
      | .error conflict => .error conflict
      | .ok tools => .ok (toolDefinition server raw qualified::tools)

/-- `_build_tool_definitions`. -/
def buildToolDefinitions (naming : NamingConfig) (entries : Dict String RegistryEntry)
    (server : UpstreamServer) (rawTools : List RawTool) :
    Except ToolNameConflict (List ToolDefinition) :=
  nameTools naming entries server (claimedByOthers entries server.id) rawTools

/-- Non-empty advertised names with multiplicity, in tool order. -/
def advertisedNames (tools : List ToolDefinition) : List String :=
  tools.filterMap ToolDefinition.advertisedName

/-- An advertised name belongs to one of the listed tools. -/
theorem mem_advertisedNames {tools : List ToolDefinition} {q : String} :
    q∈advertisedNames tools ↔ ∃ td∈tools, td.advertisedName=some q := List.mem_filterMap

/-- Advertised names are the non-empty qualified names. -/
theorem advertisedName_eq_some {td : ToolDefinition} {q : String} :
    td.advertisedName=some q ↔ td.qualifiedName=some q ∧ q≠"" := by
  unfold ToolDefinition.advertisedName
  cases hq : td.qualifiedName with
  | none => simp
  | some q' =>
    by_cases he : q'=""
    · simp only [he,if_true,reduceCtorEq,Option.some.injEq,false_iff,not_and,not_not]
      exact fun h => h.symm
    · simp only [if_neg he,Option.some.injEq]
      exact ⟨fun h => ⟨h,h ▸ he⟩,fun h => h.1⟩

/-- Recording a server's tools adds exactly its advertised names. -/
theorem claimTools_contains (sid : String) (existing : Dict String String)
    (tools : List ToolDefinition) (q : String) :
    (claimTools sid existing tools).contains q=true ↔
      existing.contains q=true ∨ q∈advertisedNames tools := by
  unfold claimTools
  induction tools generalizing existing with
  | nil => simp [advertisedNames]
  | cons td tools ih =>
    rw [List.foldl_cons,ih]
    cases hn : td.advertisedName with
    | none => simp [advertisedNames,hn]
    | some p =>
      simp only [advertisedNames,List.filterMap_cons,hn,List.mem_cons,Dict.contains_set]
      constructor
      · rintro ((h|h)|h)
        · exact Or.inr (Or.inl h.symm)
        · exact Or.inl h
        · exact Or.inr (Or.inr h)
      · rintro (h|h|h)
        · exact Or.inl (Or.inr h)
        · exact Or.inl (Or.inl h.symm)
        · exact Or.inr h

/-- The taken table holds exactly the advertised names of the other servers. -/
theorem claimedByOthers_contains (entries : Dict String RegistryEntry) (serverId q : String) :
    (claimedByOthers entries serverId).contains q=true ↔
      ∃ sid entry, entries.get? sid=some entry ∧ sid≠serverId ∧ q∈advertisedNames entry.tools := by
  have hfold : ∀ (items : List (String×RegistryEntry)) (acc : Dict String String),
      (items.foldl (fun acc item =>
        if item.1=serverId then acc else claimTools item.1 acc item.2.tools) acc).contains q=true ↔
        acc.contains q=true ∨
          ∃ item∈items, item.1≠serverId ∧ q∈advertisedNames item.2.tools := by
    intro items
    induction items with
    | nil => simp
    | cons item items ih =>
      intro acc
      rw [List.foldl_cons,ih]
      by_cases h : item.1=serverId
      · simp [h]
      · rw [if_neg h,claimTools_contains]
        simp only [List.mem_cons,exists_eq_or_imp,ne_eq,h,not_false_eq_true,true_and]
        exact or_assoc
  rw [claimedByOthers,hfold]
  simp only [Dict.contains_empty,Bool.false_eq_true,false_or]
  constructor
  · rintro ⟨⟨sid,entry⟩,hm,hne,hq⟩
    exact ⟨sid,entry,Dict.mem_items_iff.mp hm,hne,hq⟩
  · rintro ⟨sid,entry,hg,hne,hq⟩
    exact ⟨(sid,entry),Dict.mem_items_iff.mpr hg,hne,hq⟩

/-- Every name the policy assigns along the manifest is new at its turn. -/
def FreshClaims (naming : NamingConfig) (entries : Dict String RegistryEntry)
    (server : UpstreamServer) : Dict String String→List RawTool→Prop
  | _,[] => True
  | existing,raw::rest =>
    match claimName naming.onConflict existing server.id
        (baseName naming.strategy entries server raw.name) with
    | .error _ => True
    | .ok none => FreshClaims naming entries server existing rest
    | .ok (some qualified) => existing.contains qualified=false ∧
        FreshClaims naming entries server (existing.set qualified server.id) rest

/-- Under the renaming policy: whenever a tool's name is already taken, by
another server or an earlier tool of the manifest, its renamed form is not. -/
def RenamesFree (serverId : String) : List String→List String→Prop
  | _,[] => True
  | taken,base::rest =>
    if base∈taken then
      suffixed base serverId∉taken ∧ RenamesFree serverId (suffixed base serverId::taken) rest
    else RenamesFree serverId (base::taken) rest

/-- An accepted name is the untaken base name, or renames a taken one. -/
theorem claimName_some {onConflict : OnConflict} {existing : Dict String String}
    {serverId base q : String} (h : claimName onConflict existing serverId base=.ok (some q)) :
    (existing.contains base=false ∧ q=base) ∨
      (existing.contains base=true ∧ onConflict=.suffix ∧ q=suffixed base serverId) := by
  unfold claimName at h
  unfold Dict.contains
  cases hg : existing.get? base with
  | none =>
    rw [hg] at h
    cases h
    exact .inl ⟨rfl,rfl⟩
  | some owner =>
    rw [hg] at h
    cases onConflict with
    | warn => cases h
    | error => cases h
    | suffix =>
      cases h
      exact .inr ⟨rfl,rfl,rfl⟩

/-- Only the policy that warns skips a tool, for a taken name. -/
theorem claimName_none {onConflict : OnConflict} {existing : Dict String String}
    {serverId base : String} (h : claimName onConflict existing serverId base=.ok none) :
    existing.contains base=true ∧ onConflict=.warn := by
  unfold claimName at h
  unfold Dict.contains
  cases hg : existing.get? base with
  | none =>
    rw [hg] at h
    cases h
  | some owner =>
    rw [hg] at h
    cases onConflict with
    | warn => exact ⟨rfl,rfl⟩
    | error => cases h
    | suffix => cases h

/-- Without renaming an accepted name is the untaken base name. -/
theorem claimName_refusing {onConflict : OnConflict} (hc : onConflict≠.suffix)
    {existing : Dict String String} {serverId base q : String}
    (h : claimName onConflict existing serverId base=.ok (some q)) :
    existing.contains q=false := by
  rcases claimName_some h with ⟨hfree,rfl⟩ | ⟨-,hsuffix,-⟩
  · exact hfree
  · exact absurd hsuffix hc

/-- Under the refusing policies every assigned name is new. -/
theorem freshClaims_of_refusing {naming : NamingConfig} (hc : naming.onConflict≠.suffix)
    (entries : Dict String RegistryEntry) (server : UpstreamServer)
    (existing : Dict String String) (raws : List RawTool) :
    FreshClaims naming entries server existing raws := by
  induction raws generalizing existing with
  | nil => trivial
  | cons raw rest ih =>
    unfold FreshClaims
    cases hn : claimName naming.onConflict existing server.id
        (baseName naming.strategy entries server raw.name) with
    | error conflict => trivial
    | ok name =>
      cases name with
      | none => exact ih existing
      | some q => exact ⟨claimName_refusing hc hn,ih _⟩

/-- Under the renaming policy no manifest is rejected. -/
theorem buildToolDefinitions_ne_error {naming : NamingConfig} (hc : naming.onConflict=.suffix)
    {entries : Dict String RegistryEntry} {server : UpstreamServer} {raws : List RawTool}
    {conflict : ToolNameConflict} :
    buildToolDefinitions naming entries server raws≠.error conflict := by
  unfold buildToolDefinitions
  generalize claimedByOthers entries server.id=existing
  induction raws generalizing existing with
  | nil => exact fun h => by cases h
  | cons raw rest ih =>
    unfold nameTools claimName
    rw [hc]
    cases existing.get? (baseName naming.strategy entries server raw.name) with
    | none =>
      dsimp only
      cases ht : nameTools naming entries server (existing.set _ server.id) rest with
      | error c => exact fun h => ih _ (ht.trans h)
      | ok tools => exact fun h => by cases h
    | some owner =>
      dsimp only
      cases ht : nameTools naming entries server (existing.set _ server.id) rest with
      | error c => exact fun h => ih _ (ht.trans h)
      | ok tools => exact fun h => by cases h

/-- A taken name is a key of the table. -/
theorem contains_iff_mem_keys (existing : Dict String String) (q : String) :
    existing.contains q=true ↔ q∈existing.keys := by
  rw [Dict.contains,Option.isSome_iff_exists]
  constructor
  · rintro ⟨owner,h⟩
    exact List.mem_map.mpr ⟨(q,owner),Dict.mem_items_iff.mpr h,rfl⟩
  · intro h
    obtain ⟨⟨k,owner⟩,hm,rfl⟩ := List.mem_map.mp h
    exact ⟨owner,Dict.mem_items_iff.mp hm⟩

/-- Freedom of the renamed forms depends only on which names are taken. -/
theorem renamesFree_congr (serverId : String) (bases : List String) {taken taken' : List String}
    (h : ∀ q, q∈taken ↔ q∈taken') :
    RenamesFree serverId taken bases ↔ RenamesFree serverId taken' bases := by
  induction bases generalizing taken taken' with
  | nil => exact Iff.rfl
  | cons base rest ih =>
    have hcons : ∀ p q, q∈p::taken ↔ q∈p::taken' := by
      intro p q
      rw [List.mem_cons,List.mem_cons,h]
    unfold RenamesFree
    by_cases hb : base∈taken
    · rw [if_pos hb,if_pos ((h base).mp hb),h,ih (hcons _)]
    · rw [if_neg hb,if_neg (fun hh => hb ((h base).mpr hh)),ih (hcons _)]

/-- Under the renaming policy, new names are exactly free renamed forms. -/
theorem freshClaims_iff_renamesFree {naming : NamingConfig} (hc : naming.onConflict=.suffix)
    (entries : Dict String RegistryEntry) (server : UpstreamServer)
    (existing : Dict String String) (raws : List RawTool) :
    FreshClaims naming entries server existing raws ↔
      RenamesFree server.id existing.keys
        (raws.map (fun raw => baseName naming.strategy entries server raw.name)) := by
  induction raws generalizing existing with
  | nil => exact Iff.rfl
  | cons raw rest ih =>
    have hset : ∀ q p, p∈(existing.set q server.id).keys ↔ p∈q::existing.keys := by
      intro q p
      rw [←contains_iff_mem_keys,Dict.contains_set,contains_iff_mem_keys,List.mem_cons]
      exact or_congr_left eq_comm
    have hkey := contains_iff_mem_keys existing
      (baseName naming.strategy entries server raw.name)
    rw [FreshClaims,List.map_cons,RenamesFree,hc]
    cases hg : existing.get? (baseName naming.strategy entries server raw.name) with
    | none =>
      have hn : existing.contains (baseName naming.strategy entries server raw.name)=false := by
        rw [Dict.contains,hg]
        rfl
      rw [if_neg (fun h => by rw [hkey.mpr h] at hn; cases hn)]
      simp only [claimName,hg,hn,true_and]
      rw [ih,renamesFree_congr _ _ (hset _)]
    | some owner =>
      have hn : existing.contains (baseName naming.strategy entries server raw.name)=true := by
        rw [Dict.contains,hg]
        rfl
      rw [if_pos (hkey.mp hn)]
      simp only [claimName,hg]
      rw [ih,renamesFree_congr _ _ (hset _),←contains_iff_mem_keys,Bool.not_eq_true]

/-- The loop skips a tool or puts its definition before those of the rest. -/
theorem nameTools_cons {naming : NamingConfig} {entries : Dict String RegistryEntry}
    {server : UpstreamServer} {existing : Dict String String} {raw : RawTool}
    {rest : List RawTool} {tools : List ToolDefinition}
    (h : nameTools naming entries server existing (raw::rest)=.ok tools) :
    (claimName naming.onConflict existing server.id
        (baseName naming.strategy entries server raw.name)=.ok none ∧
      nameTools naming entries server existing rest=.ok tools) ∨
    ∃ q later, claimName naming.onConflict existing server.id
        (baseName naming.strategy entries server raw.name)=.ok (some q) ∧
      nameTools naming entries server (existing.set q server.id) rest=.ok later ∧
      tools=toolDefinition server raw q::later := by
  unfold nameTools at h
  cases hn : claimName naming.onConflict existing server.id
      (baseName naming.strategy entries server raw.name) with
  | error conflict =>
    rw [hn] at h
    cases h
  | ok name =>
    cases name with
    | none =>
      rw [hn] at h
      exact Or.inl ⟨rfl,h⟩
    | some q =>
      rw [hn] at h
      cases ht : nameTools naming entries server (existing.set q server.id) rest with
      | error conflict =>
        simp only [ht] at h
        cases h
      | ok later =>
        simp only [ht,Except.ok.injEq] at h
        exact Or.inr ⟨q,later,rfl,ht,h.symm⟩

/-- A built tool is the definition of one of the manifest's tools. -/
theorem nameTools_mem {naming : NamingConfig} {entries : Dict String RegistryEntry}
    {server : UpstreamServer} {existing : Dict String String} {raws : List RawTool}
    {tools : List ToolDefinition} (hb : nameTools naming entries server existing raws=.ok tools)
    {td : ToolDefinition} (ht : td∈tools) : ∃ raw∈raws, ∃ q, td=toolDefinition server raw q := by
  induction raws generalizing existing tools with
  | nil =>
    cases hb
    exact absurd ht List.not_mem_nil
  | cons raw rest ih =>
    rcases nameTools_cons hb with ⟨-,hrest⟩ | ⟨q,later,-,hrest,rfl⟩
    · obtain ⟨r,hr,hbuilt⟩ := ih hrest ht
      exact ⟨r,List.mem_cons_of_mem _ hr,hbuilt⟩
    · rcases List.mem_cons.mp ht with rfl | hlater
      · exact ⟨raw,List.mem_cons_self,q,rfl⟩
      · obtain ⟨r,hr,hbuilt⟩ := ih hrest hlater
        exact ⟨r,List.mem_cons_of_mem _ hr,hbuilt⟩

/-- The empty name is never advertised. -/
theorem empty_not_advertised (tools : List ToolDefinition) : ""∉advertisedNames tools := by
  intro h
  obtain ⟨td,-,ha⟩ := mem_advertisedNames.mp h
  exact (advertisedName_eq_some.mp ha).2 rfl

/-- A built definition advertises its name unless that is empty. -/
theorem advertisedNames_cons (server : UpstreamServer) (raw : RawTool) (q : String)
    (later : List ToolDefinition) : advertisedNames (toolDefinition server raw q::later)=
      if q="" then advertisedNames later else q::advertisedNames later := by
  have hname : (toolDefinition server raw q).advertisedName=if q="" then none else some q := rfl
  unfold advertisedNames
  split
  · rename_i hq
    rw [List.filterMap_cons_none (by rw [hname,if_pos hq])]
  · rename_i hq
    rw [List.filterMap_cons_some (by rw [hname,if_neg hq])]

/-- Names of a built manifest are new and pairwise distinct exactly when each
was new at its turn, whatever the policy. -/
theorem nameTools_fresh {naming : NamingConfig} {entries : Dict String RegistryEntry}
    {server : UpstreamServer} {existing : Dict String String} {raws : List RawTool}
    {tools : List ToolDefinition}
    (hb : nameTools naming entries server existing raws=.ok tools)
    (hf : FreshClaims naming entries server existing raws) :
    (advertisedNames tools).Nodup ∧ ∀ q∈advertisedNames tools, existing.contains q=false := by
  induction raws generalizing existing tools with
  | nil =>
    cases hb
    exact ⟨List.nodup_nil,fun q hq => absurd hq List.not_mem_nil⟩
  | cons raw rest ih =>
    unfold FreshClaims at hf
    rcases nameTools_cons hb with ⟨hn,ht⟩ | ⟨q,later,hn,ht,rfl⟩
    · rw [hn] at hf
      exact ih ht hf
    · rw [hn] at hf
      obtain ⟨hnew,hrest⟩ := hf
      obtain ⟨hnodup,hdisjoint⟩ := ih ht hrest
      have hlater : ∀ p∈advertisedNames later, q≠p ∧ existing.contains p=false :=
        fun p hp => Dict.contains_set_false.mp (hdisjoint p hp)
      rw [advertisedNames_cons]
      split
      · exact ⟨hnodup,fun p hp => (hlater p hp).2⟩
      · refine ⟨List.nodup_cons.mpr ⟨fun hm => (hlater q hm).1 rfl,hnodup⟩,?_⟩
        intro p hp
        rcases List.mem_cons.mp hp with rfl | hm
        · exact hnew
        · exact (hlater p hm).2

/-- A renamed tool never has the empty name. -/
theorem suffixed_ne_empty (base serverId : String) : suffixed base serverId≠"" := by
  intro h
  have hl := congrArg String.length h
  simp only [suffixed,String.length_append] at hl
  have h1 : ("_" : String).length=1 := by decide
  have h0 : ("" : String).length=0 := by decide
  omega

/-- An accepted name is untaken, or it is a renamed one and so not empty. -/
theorem claimName_new {onConflict : OnConflict} {existing : Dict String String}
    {serverId base q : String} (h : claimName onConflict existing serverId base=.ok (some q)) :
    existing.contains q=false ∨ q≠"" := by
  rcases claimName_some h with ⟨hfree,rfl⟩ | ⟨-,-,rfl⟩
  · exact .inl hfree
  · exact .inr (suffixed_ne_empty _ _)

/-- Conversely, new and distinct names were each new at their turn: only a
renamed tool could have met a taken name, and its name is not empty. -/
theorem freshClaims_of_names {naming : NamingConfig} {entries : Dict String RegistryEntry}
    {server : UpstreamServer} {existing : Dict String String} {raws : List RawTool}
    {tools : List ToolDefinition}
    (hb : nameTools naming entries server existing raws=.ok tools)
    (hnodup : (advertisedNames tools).Nodup)
    (hdisjoint : ∀ q∈advertisedNames tools, existing.contains q=false) :
    FreshClaims naming entries server existing raws := by
  induction raws generalizing existing tools with
  | nil => trivial
  | cons raw rest ih =>
    unfold FreshClaims
    rcases nameTools_cons hb with ⟨hn,ht⟩ | ⟨q,later,hn,ht,rfl⟩
    · rw [hn]
      exact ih ht hnodup hdisjoint
    · rw [hn]
      rw [advertisedNames_cons] at hnodup hdisjoint
      have hnew : existing.contains q=false := by
        rcases claimName_new hn with hnew | hq
        · exact hnew
        · rw [if_neg hq] at hdisjoint
          exact hdisjoint q List.mem_cons_self
      have hlater : (advertisedNames later).Nodup ∧ q∉advertisedNames later ∧
          ∀ p∈advertisedNames later, existing.contains p=false := by
        by_cases hq : q=""
        · rw [if_pos hq] at hnodup hdisjoint
          rw [hq]
          exact ⟨hnodup,empty_not_advertised later,hdisjoint⟩
        · rw [if_neg hq] at hnodup hdisjoint
          obtain ⟨hhead,htail⟩ := List.nodup_cons.mp hnodup
          exact ⟨htail,hhead,fun p hp => hdisjoint p (List.mem_cons_of_mem _ hp)⟩
      obtain ⟨htail,hhead,hold⟩ := hlater
      refine ⟨hnew,ih ht htail ?_⟩
      intro p hp
      have hne : q≠p := fun he => hhead (he ▸ hp)
      exact Dict.contains_set_false.mpr ⟨hne,hold p hp⟩

end McpGateway.ToolNaming
