import Mathlib
import McpGateway.PyText
import McpGateway.PyDict
import McpGateway.StepRun
import McpGateway.GatewaySettings
import McpGateway.CircuitBreakers
import McpGateway.ToolNaming
import McpGateway.ServerRegistry
import McpGateway.RegistryRuns
import McpGateway.RoutingOrder

/-!
# The conflict report

The report lists the raw names that more than one tool of the enabled servers
has; the lookup of a bare name asks the tools of all servers, and a tool that
is advertised under that name answers whoever else has it. The two agree on a
name exactly when it is the name of one tool only, or when either two enabled
tools have it or some tool is advertised under it, and not both.
-/

namespace McpGateway.ConflictReport

open PyText PyDict StepRun GatewaySettings CircuitBreakers ToolNaming ServerRegistry RegistryRuns
open RoutingOrder

section Definitions

/-- One element of the report. -/
structure ToolConflict where
  /-- The raw tool name. -/
  tool : String
  /-- The server of each tool of that name, in order. -/
  servers : List String
  deriving DecidableEq

/-- `enabled_entries`. -/
def enabledEntries (reg : Registry) : List RegistryEntry :=
  reg.entries.values.filter (fun entry => entry.server.enabled)

/-- `seen.setdefault(td.name, []).append(entry.server.id)`. -/
def noteTool (serverId : String) (seen : Dict String (List String)) (td : ToolDefinition) :
    Dict String (List String) :=
  seen.set td.name (((seen.get? td.name).getD [])++[serverId])

/-- The loop over the tools of one entry; a disabled one is skipped. -/
def noteEntry (seen : Dict String (List String)) (entry : RegistryEntry) :
    Dict String (List String) :=
  if entry.server.enabled=false then seen
  else entry.tools.foldl (noteTool entry.server.id) seen

/-- `list_conflicts`. -/
def listConflicts (reg : Registry) : List ToolConflict :=
  let seen := reg.entries.values.foldl noteEntry Dict.empty
  (seen.items.filter (fun item => 1 < item.2.length)).map (fun item => ⟨item.1,item.2⟩)

/-- The report lists this name. -/
def Listed (reg : Registry) (n : String) : Prop := ∃ conflict∈listConflicts reg, conflict.tool=n

/-- Number of tools of these entries with this raw name. -/
def toolsNamed (entries : List RegistryEntry) (n : String) : ℕ :=
  (entries.flatMap RegistryEntry.tools).countP (fun td => td.name==n)

/-- Some tool is advertised under this name. -/
def AdvertisedAs (reg : Registry) (n : String) : Prop :=
  ∃ entry∈reg.entries.values, ∃ td∈entry.tools, td.qualifiedName=some n

end Definitions

section Report

/-- Number of servers noted for a name. -/
def noted (seen : Dict String (List String)) (n : String) : ℕ := (seen.get? n).elim 0 List.length

/-- A tool is noted under its own name. -/
theorem noted_noteTool (serverId : String) (seen : Dict String (List String))
    (td : ToolDefinition) (n : String) :
    noted (noteTool serverId seen td) n=noted seen n+if td.name=n then 1 else 0 := by
  unfold noted noteTool
  rw [Dict.get?_set]
  by_cases hn : td.name=n
  · subst hn
    rw [if_pos rfl,if_pos rfl,Option.elim_some,List.length_append,List.length_singleton]
    cases seen.get? td.name <;> rfl
  · rw [if_neg hn,if_neg hn,Nat.add_zero]

/-- The tools of one entry are noted under their names. -/
theorem noted_tools (serverId : String) (seen : Dict String (List String))
    (tools : List ToolDefinition) (n : String) :
    noted (tools.foldl (noteTool serverId) seen) n=
      noted seen n+tools.countP (fun td => td.name==n) := by
  induction tools generalizing seen with
  | nil => rfl
  | cons td rest ih =>
    rw [List.foldl_cons,ih,noted_noteTool,List.countP_cons]
    simp only [beq_iff_eq]
    omega

/-- All tools of enabled entries are noted under their names. -/
theorem noted_entries (seen : Dict String (List String)) (entries : List RegistryEntry)
    (n : String) : noted (entries.foldl noteEntry seen) n=
      noted seen n+toolsNamed (entries.filter (fun entry => entry.server.enabled)) n := by
  induction entries generalizing seen with
  | nil => rfl
  | cons entry rest ih =>
    rw [List.foldl_cons,ih]
    unfold noteEntry toolsNamed
    cases he : entry.server.enabled with
    | false => rw [if_pos rfl,List.filter_cons_of_neg (by rw [he]; exact Bool.noConfusion)]
    | true =>
      rw [if_neg Bool.noConfusion,List.filter_cons_of_pos (by exact he),List.flatMap_cons,
        List.countP_append,noted_tools]
      omega

/-- A name is listed when at least two tools of enabled servers have it. -/
theorem listed_iff (reg : Registry) (n : String) :
    Listed reg n ↔ 2≤toolsNamed (enabledEntries reg) n := by
  have hnoted := noted_entries Dict.empty reg.entries.values n
  have hempty : noted Dict.empty n=0 := rfl
  rw [hempty,Nat.zero_add] at hnoted
  unfold enabledEntries
  rw [←hnoted]
  unfold Listed listConflicts noted
  dsimp only
  constructor
  · rintro ⟨conflict,hc,rfl⟩
    obtain ⟨item,hitem,rfl⟩ := List.mem_map.mp hc
    obtain ⟨hmem,hlength⟩ := List.mem_filter.mp hitem
    rw [Dict.mem_items_iff.mp hmem]
    exact of_decide_eq_true hlength
  · intro h
    cases hg : (reg.entries.values.foldl noteEntry Dict.empty).get? n with
    | none =>
      rw [hg] at h
      exact absurd h (by decide)
    | some sids =>
      rw [hg] at h
      refine ⟨⟨n,sids⟩,List.mem_map.mpr ⟨(n,sids),List.mem_filter.mpr ⟨?_,?_⟩,rfl⟩,rfl⟩
      · exact Dict.mem_items_iff.mpr hg
      · exact decide_eq_true h

end Report

section Lookup

/-- A list has no only element when it does not have exactly one. -/
theorem only_eq_none {α : Type*} (l : List α) : only l=none ↔ l.length≠1 := by
  match l with
  | [] => simp [only]
  | [a] => simp [only]
  | a::b::rest => simp [only]

/-- The bare rule counts the tools of all servers. -/
theorem bareMatches_length (reg : Registry) (n : String) :
    (reg.bareMatches n).length=toolsNamed reg.entries.values n := by
  unfold Registry.bareMatches toolsNamed
  induction reg.entries.values with
  | nil => rfl
  | cons entry rest ih =>
    rw [List.flatMap_cons,List.flatMap_cons,List.length_append,List.countP_append,ih,
      List.length_map,←List.countP_eq_length_filter]

/-- The exact rule finds nothing when nobody is advertised under the name. -/
theorem exactMatch_none_iff (reg : Registry) (n : String) :
    reg.exactMatch n=none ↔ ¬AdvertisedAs reg n := by
  unfold Registry.exactMatch AdvertisedAs
  rw [List.findSome?_eq_none_iff]
  simp only [Option.map_eq_none_iff,List.find?_eq_none,beq_iff_eq,not_exists,not_and]

/-- A name without a dot is unresolved when no tool is advertised under it and
not exactly one tool has it. -/
theorem unresolved_iff (reg : Registry) {n : String} (hn : '.'∉n.toList) :
    reg.findByQualifiedTool n=none ↔
      ¬AdvertisedAs reg n ∧ toolsNamed reg.entries.values n≠1 := by
  have hsplit : reg.prefixSplit n=none := by
    rw [Registry.prefixSplit,partitionAt,if_neg hn]
  rw [Registry.findByQualifiedTool,hsplit,Option.none_or,Option.or_eq_none_iff,
    exactMatch_none_iff,bareMatch_eq,only_eq_none,bareMatches_length]

end Lookup

section Agreement

/-- Enabled servers have no more tools of a name than all servers. -/
theorem toolsNamed_enabled_le (reg : Registry) (n : String) :
    toolsNamed (enabledEntries reg) n≤toolsNamed reg.entries.values n :=
  (List.filter_sublist.flatMap RegistryEntry.tools).countP_le

/-- The report lists a name exactly when the lookup does not resolve it. -/
def ReportAgrees (reg : Registry) (n : String) : Prop :=
  Listed reg n ↔ reg.findByQualifiedTool n=none

/-- A name that several tools have is either shared by tools of enabled
servers or advertised, and not both. -/
def SharedAsListed (reg : Registry) (n : String) : Prop :=
  2≤toolsNamed reg.entries.values n→
    (2≤toolsNamed (enabledEntries reg) n ↔ ¬AdvertisedAs reg n)

/-- In any registry the report agrees with the lookup of a raw name without
dots exactly when the name is shared as it is listed. -/
theorem reportAgrees_iff (reg : Registry) {n : String} (hn : '.'∉n.toList)
    (hexposed : ∃ entry∈reg.entries.values, ∃ td∈entry.tools, td.name=n) :
    ReportAgrees reg n ↔ SharedAsListed reg n := by
  have hpositive : 1≤toolsNamed reg.entries.values n := by
    obtain ⟨entry,he,td,ht,hname⟩ := hexposed
    refine List.countP_pos_iff.mpr ⟨td,List.mem_flatMap.mpr ⟨entry,he,ht⟩,?_⟩
    exact beq_iff_eq.mpr hname
  have hle := toolsNamed_enabled_le reg n
  unfold ReportAgrees SharedAsListed
  rw [listed_iff,unresolved_iff reg hn]
  by_cases hadvertised : AdvertisedAs reg n
  · simp only [hadvertised,not_true,false_and,iff_false]
    omega
  · simp only [hadvertised,not_false_iff,true_and,iff_true]
    omega

/-- In every state of every run, under every naming, the report agrees with
the lookup of a raw name without dots exactly when the name is shared as it is
listed. -/
theorem reportAgrees_run_iff (naming : NamingConfig) (policy : CircuitBreakerPolicy)
    (actions : List RegistryAction) (n : String) (hn : '.'∉n.toList)
    (hexposed : ∃ entry∈(final RegistryRuns.step (start naming policy)
      actions).registry.entries.values, ∃ td∈entry.tools, td.name=n) :
    ReportAgrees (final RegistryRuns.step (start naming policy) actions).registry n ↔
      SharedAsListed (final RegistryRuns.step (start naming policy) actions).registry n :=
  reportAgrees_iff _ hn hexposed

end Agreement

/-- Bare names with renaming, after both servers listed the tool `t`. -/
def renamedPair : Registry :=
  (final RegistryRuns.step (start bareSuffix {})
    (twoSyncs [{name := "t"}] [{name := "t"}])).registry

theorem reportAgrees_run_iff_prefixed :
    ReportAgrees (final RegistryRuns.step (start {} {})
      (twoSyncs [{name := "t"}] [{name := "t"}])).registry "t" ↔
    SharedAsListed (final RegistryRuns.step (start {} {})
      (twoSyncs [{name := "t"}] [{name := "t"}])).registry "t" :=
  reportAgrees_run_iff {} {} (twoSyncs [{name := "t"}] [{name := "t"}]) "t" (by decide)
    ⟨_,List.mem_cons_self,_,List.mem_cons_self,rfl⟩

/-- The first server keeps the bare name, so a listed name is resolved. -/
theorem listed_name_resolved :
    Listed renamedPair "t" ∧
    (renamedPair.findByQualifiedTool "t").map (fun found => found.1.server.id)=some "a" ∧
    ¬ReportAgrees renamedPair "t" := by
  have hlisted : Listed renamedPair "t" := ⟨⟨"t",["a","b"]⟩,by decide,rfl⟩
  have hfound : (renamedPair.findByQualifiedTool "t").map (fun found => found.1.server.id)=
      some "a" := by decide
  refine ⟨hlisted,hfound,fun h => ?_⟩
  rw [h.mp hlisted] at hfound
  cases hfound

end McpGateway.ConflictReport
