import Mathlib
import McpGateway.PyText
import McpGateway.PyDict
import McpGateway.StepRun
import McpGateway.GatewaySettings
import McpGateway.CircuitBreakers
import McpGateway.ToolNaming
import McpGateway.ServerRegistry
import McpGateway.RegistryRuns
import McpGateway.RegistryOperations

/-!
# Routing and the order of insertion

Two of the three rules of the lookup take the first hit in insertion order.
When all advertised names differ the exact rule has at most one hit, and the
bare rule refuses more than one. The prefix rule does not look for a second
server: routing is independent of the order, and refuses what two servers
claim alike, exactly when no two servers share a prefix that a name can have.
-/

namespace McpGateway.RoutingOrder

open PyText PyDict StepRun GatewaySettings CircuitBreakers ToolNaming ServerRegistry RegistryRuns
open RegistryOperations

section FirstHit

variable {α β : Type*}

/-- The first hit does not depend on the order when all hits agree. -/
theorem findSome_perm {f : α→Option β} {l l' : List α} (hp : l.Perm l')
    (hagree : ∀ a∈l, ∀ b∈l, ∀ x y, f a=some x→f b=some y→x=y) :
    l.findSome? f=l'.findSome? f := by
  cases h : l.findSome? f with
  | none =>
    rw [List.findSome?_eq_none_iff] at h
    exact (List.findSome?_eq_none_iff.mpr fun a ha => h a (hp.mem_iff.mpr ha)).symm
  | some x =>
    obtain ⟨a,ha,hx⟩ := List.exists_of_findSome?_eq_some h
    cases h' : l'.findSome? f with
    | none =>
      rw [List.findSome?_eq_none_iff] at h'
      rw [h' a (hp.mem_iff.mp ha)] at hx
      cases hx
    | some y =>
      obtain ⟨b,hb,hy⟩ := List.exists_of_findSome?_eq_some h'
      rw [hagree a ha b (hp.mem_iff.mpr hb) x y hx hy]

/-- The element of a list of exactly one. -/
def only : List α→Option α
  | [a] => some a
  | _ => none

/-- Being the only element does not depend on the order. -/
theorem only_perm {l l' : List α} (hp : l.Perm l') : only l=only l' := by
  have hlength := hp.length_eq
  match l with
  | [] => rw [List.nil_perm.mp hp]
  | [a] => rw [List.singleton_perm.mp hp]
  | a::b::rest =>
    match l' with
    | c::d::rest' => rfl

/-- The only element is mapped to the only element. -/
theorem only_map (f : α→β) (l : List α) : only (l.map f)=(only l).map f := by
  match l with
  | [] => rfl
  | [a] => rfl
  | a::b::rest => rfl

/-- Every element of a list is its only one. -/
theorem eq_of_only {l : List α} {a b : α} (h : only l=some a) (hb : b∈l) : b=a := by
  match l with
  | [c] =>
    cases h
    exact List.mem_singleton.mp hb

end FirstHit

section Definitions

/-- What routing reads of an entry. -/
def holding (entry : RegistryEntry) : UpstreamServer×List ToolDefinition :=
  (entry.server,entry.tools)

/-- What routing reads of a registry, in insertion order. -/
def holdings (reg : Registry) : List (UpstreamServer×List ToolDefinition) :=
  reg.entries.values.map holding

/-- The same servers with the same tools, inserted in some order. -/
def SameServers (reg reg' : Registry) : Prop := (holdings reg).Perm (holdings reg')

/-- The qualified names of all tools are pairwise distinct. -/
def DistinctNames (reg : Registry) : Prop :=
  (reg.entries.values.flatMap
    (fun entry => entry.tools.filterMap ToolDefinition.qualifiedName)).Nodup

/-- The server id and the raw tool name that a name leads to. -/
def route (reg : Registry) (q : String) : Option (String×String) :=
  (reg.findByQualifiedTool q).map (fun found => (found.1.server.id,found.2))

/-- The entry has a tool with this qualified name. -/
def claimsExactly (q : String) (entry : RegistryEntry) : Bool :=
  entry.tools.any (fun td => td.qualifiedName==some q)

/-- The prefix of the entry stands before the first dot of the name. -/
def claimsByPrefix (q : String) (entry : RegistryEntry) : Bool :=
  (partitionAt '.' q).any (fun parts => entry.server.effectivePrefix==parts.1)

/-- The entry has a tool with this raw name. -/
def claimsBare (q : String) (entry : RegistryEntry) : Bool :=
  entry.tools.any (fun td => td.name==q)

/-- The entries that claim a name by the first rule by which any entry does. -/
def claimants (reg : Registry) (q : String) : List RegistryEntry :=
  let exactly := reg.entries.values.filter (claimsExactly q)
  let split := reg.entries.values.filter (claimsByPrefix q)
  if exactly≠[] then exactly
  else if split≠[] then split
  else reg.entries.values.filter (claimsBare q)

/-- Two servers claim the name equally. -/
def Contested (reg : Registry) (q : String) : Prop :=
  ∃ e₁∈claimants reg q, ∃ e₂∈claimants reg q, e₁.server.id≠e₂.server.id

/-- Where a name leads is decided by the name and the servers alone. -/
structure RoutesByName (reg : Registry) : Prop where
  /-- Every insertion order of the same servers gives the same answers. -/
  orderFree : ∀ reg', SameServers reg reg'→∀ q, route reg' q=route reg q
  /-- What two servers claim equally is refused. -/
  refuses : ∀ q, Contested reg q→ reg.findByQualifiedTool q=none

/-- No two servers share a prefix without a dot. A prefix with a dot never
stands before the first dot of a name. -/
def PrefixesApart (reg : Registry) : Prop :=
  ∀ e₁∈reg.entries.values, ∀ e₂∈reg.entries.values,
    e₁.server.effectivePrefix=e₂.server.effectivePrefix→
    '.'∉e₁.server.effectivePrefix.toList→e₁.server.id=e₂.server.id

end Definitions

section Partition

/-- What stands before the first dot has no dot. -/
theorem partitionAt_head {q head raw : String} (h : partitionAt '.' q=some (head,raw)) :
    '.'∉head.toList := by
  unfold partitionAt at h
  split at h
  · cases h
    rw [String.toList_ofList]
    intro hm
    have hne := List.mem_takeWhile_imp hm
    simp at hne
  · cases h

/-- A name with a prefix without dots is split after the prefix. -/
theorem partitionAt_prefixed {head : String} (h : '.'∉head.toList) (raw : String) :
    partitionAt '.' (head++"."++raw)=some (head,raw) := by
  have hchars : (head++"."++raw).toList=head.toList++ '.'::raw.toList := by
    rw [String.toList_append,String.toList_append]
    simp
  have hall : ∀ c∈head.toList, (decide (c ≠ '.'))=true := by
    intro c hc
    rw [decide_eq_true_eq]
    rintro rfl
    exact h hc
  have htake : (head.toList++ '.'::raw.toList).takeWhile (· ≠ '.')=head.toList := by
    rw [List.takeWhile_append_of_pos hall,List.takeWhile_cons_of_neg (by decide),List.append_nil]
  have hdrop : (head.toList++ '.'::raw.toList).dropWhile (· ≠ '.')= '.'::raw.toList := by
    rw [List.dropWhile_append_of_pos hall,List.dropWhile_cons_of_neg (by decide)]
  rw [partitionAt,hchars,if_pos (by simp),htake,hdrop]
  simp

end Partition

section Route

/-- The exact rule on what routing reads. -/
def exactRoute (held : List (UpstreamServer×List ToolDefinition)) (q : String) :
    Option (String×String) :=
  held.findSome? (fun h =>
    (h.2.find? (fun td => td.qualifiedName==some q)).map (fun td => (h.1.id,td.name)))

/-- The prefix rule on what routing reads. -/
def prefixRoute (held : List (UpstreamServer×List ToolDefinition)) (q : String) :
    Option (String×String) :=
  (partitionAt '.' q).bind (fun parts => held.findSome? (fun h =>
    if h.1.effectivePrefix=parts.1 then some (h.1.id,parts.2) else none))

/-- The bare rule on what routing reads. -/
def bareRoute (held : List (UpstreamServer×List ToolDefinition)) (q : String) :
    Option (String×String) :=
  only (held.flatMap (fun h => (h.2.filter (fun td => td.name==q)).map (fun _ => (h.1.id,q))))

/-- The exact rule reads nothing else. -/
theorem exactMatch_route (reg : Registry) (q : String) :
    (reg.exactMatch q).map (fun found => (found.1.server.id,found.2))=
      exactRoute (holdings reg) q := by
  rw [Registry.exactMatch,exactRoute,holdings,List.findSome?_map,List.map_findSome?]
  refine congrArg (fun f => reg.entries.values.findSome? f) (funext fun entry => ?_)
  simp only [Function.comp_apply,Option.map_map,holding]
  rfl

/-- The first server of a prefix is a first hit. -/
theorem find_prefix (values : List RegistryEntry) (head raw : String) :
    (values.find? (fun entry => entry.server.effectivePrefix==head)).map
        (fun entry => (entry.server.id,raw))=
      values.findSome? (fun entry =>
        if entry.server.effectivePrefix=head then some (entry.server.id,raw) else none) := by
  induction values with
  | nil => rfl
  | cons entry rest ih =>
    by_cases h : entry.server.effectivePrefix=head
    · simp [h]
    · rw [List.find?_cons_of_neg (by simpa using h),List.findSome?_cons,if_neg h]
      exact ih

/-- The prefix rule reads nothing else. -/
theorem prefixSplit_route (reg : Registry) (q : String) :
    (reg.prefixSplit q).map (fun found => (found.1.server.id,found.2))=
      prefixRoute (holdings reg) q := by
  rw [Registry.prefixSplit,prefixRoute]
  cases partitionAt '.' q with
  | none => rfl
  | some parts =>
    dsimp only
    rw [Option.map_map,Option.bind_some,holdings,List.findSome?_map]
    exact find_prefix reg.entries.values parts.1 parts.2

/-- The bare rule answers with the only match. -/
theorem bareMatch_eq (reg : Registry) (q : String) : reg.bareMatch q=only (reg.bareMatches q) := by
  unfold Registry.bareMatch
  match reg.bareMatches q with
  | [] => rfl
  | [found] => rfl
  | _::_::_ => rfl

/-- The bare rule reads nothing else. -/
theorem bareMatch_route (reg : Registry) (q : String) :
    (reg.bareMatch q).map (fun found => (found.1.server.id,found.2))=
      bareRoute (holdings reg) q := by
  rw [bareMatch_eq,←only_map,bareRoute,Registry.bareMatches,holdings,List.map_flatMap,
    List.flatMap_map]
  refine congrArg (fun f => only (reg.entries.values.flatMap f)) (funext fun entry => ?_)
  rw [List.map_map]
  rfl

/-- Routing reads the servers and their tools. -/
theorem route_eq (reg : Registry) (q : String) :
    route reg q=(exactRoute (holdings reg) q).or
      ((prefixRoute (holdings reg) q).or (bareRoute (holdings reg) q)) := by
  rw [route,Registry.findByQualifiedTool,Option.map_or,Option.map_or,exactMatch_route,
    prefixSplit_route,bareMatch_route]

end Route

section Order

variable {reg : Registry}

/-- Two servers that have a tool of the same qualified name are one entry. -/
theorem exact_unique (hd : DistinctNames reg) {q : String} {e₁ e₂ : RegistryEntry}
    (h₁ : e₁∈reg.entries.values) (h₂ : e₂∈reg.entries.values)
    (hc₁ : claimsExactly q e₁=true) (hc₂ : claimsExactly q e₂=true) : e₁=e₂ := by
  have hnamed : ∀ {e : RegistryEntry}, claimsExactly q e=true→
      q∈e.tools.filterMap ToolDefinition.qualifiedName := by
    intro e hc
    obtain ⟨td,ht,hq⟩ := List.any_eq_true.mp hc
    exact List.mem_filterMap.mpr ⟨td,ht,by simpa using hq⟩
  by_contra hne
  have hpairwise := (List.nodup_flatMap.mp hd).2
  have : Std.Symm (Function.onFun List.Disjoint
      (fun entry : RegistryEntry => entry.tools.filterMap ToolDefinition.qualifiedName)) :=
    ⟨fun _ _ h => List.disjoint_symm h⟩
  exact hpairwise.forall h₁ h₂ hne (hnamed hc₁) (hnamed hc₂)

/-- The exact rule does not depend on the order of distinct names. -/
theorem exactRoute_perm (hd : DistinctNames reg) {held : List (UpstreamServer×List ToolDefinition)}
    (hp : (holdings reg).Perm held) (q : String) :
    exactRoute held q=exactRoute (holdings reg) q := by
  refine (findSome_perm hp ?_).symm
  intro a ha b hb x y hx hy
  obtain ⟨e₁,h₁,rfl⟩ := List.mem_map.mp ha
  obtain ⟨e₂,h₂,rfl⟩ := List.mem_map.mp hb
  have hclaims : ∀ {e : RegistryEntry} {z : String×String},
      ((holding e).2.find? (fun td => td.qualifiedName==some q)).map
        (fun td => ((holding e).1.id,td.name))=some z→claimsExactly q e=true := by
    intro e z hz
    obtain ⟨td,hfound,-⟩ := Option.map_eq_some_iff.mp hz
    have hpred := List.find?_some hfound
    exact List.any_eq_true.mpr ⟨td,List.mem_of_find?_eq_some hfound,hpred⟩
  have hsame := exact_unique hd h₁ h₂ (hclaims hx) (hclaims hy)
  rw [hsame,hy] at hx
  exact (Option.some.inj hx).symm

/-- The prefix rule does not depend on the order of servers with prefixes of
their own. -/
theorem prefixRoute_perm (ha : PrefixesApart reg)
    {held : List (UpstreamServer×List ToolDefinition)} (hp : (holdings reg).Perm held)
    (q : String) : prefixRoute held q=prefixRoute (holdings reg) q := by
  unfold prefixRoute
  cases hsplit : partitionAt '.' q with
  | none => rfl
  | some parts =>
    refine (findSome_perm hp ?_).symm
    intro a hm b hb x y hx hy
    obtain ⟨e₁,h₁,rfl⟩ := List.mem_map.mp hm
    obtain ⟨e₂,h₂,rfl⟩ := List.mem_map.mp hb
    obtain ⟨hhead₁,hx⟩ := Option.ite_none_right_eq_some.mp hx
    obtain ⟨hhead₂,hy⟩ := Option.ite_none_right_eq_some.mp hy
    cases hx
    cases hy
    have hdotless : '.'∉e₁.server.effectivePrefix.toList := by
      rw [show e₁.server.effectivePrefix=parts.1 from hhead₁]
      exact partitionAt_head hsplit
    have hid := ha e₁ h₁ e₂ h₂ (hhead₁.trans hhead₂.symm) hdotless
    exact Prod.ext hid rfl

/-- The bare rule does not depend on the order. -/
theorem bareRoute_perm {held held' : List (UpstreamServer×List ToolDefinition)}
    (hp : held.Perm held') (q : String) : bareRoute held' q=bareRoute held q :=
  (only_perm (hp.flatMap_right _)).symm

/-- A prefix claims the names that are split after it. -/
theorem claimsByPrefix_iff {q : String} {e : RegistryEntry} : claimsByPrefix q e=true ↔
    ∃ raw, partitionAt '.' q=some (e.server.effectivePrefix,raw) := by
  unfold claimsByPrefix
  cases partitionAt '.' q with
  | none => simp
  | some parts =>
    rw [Option.any_some,beq_iff_eq]
    constructor
    · intro h
      exact ⟨parts.2,by rw [h]⟩
    · rintro ⟨raw,h⟩
      cases h
      rfl

/-- Nobody claims the name by the exact rule when that rule finds nothing. -/
theorem exactMatch_none {q : String} (h : reg.entries.values.filter (claimsExactly q)=[]) :
    reg.exactMatch q=none := by
  refine List.findSome?_eq_none_iff.mpr fun e he => ?_
  rw [Option.map_eq_none_iff,List.find?_eq_none]
  intro td ht hq
  exact List.filter_eq_nil_iff.mp h e he (List.any_eq_true.mpr ⟨td,ht,hq⟩)

/-- Nobody claims the name by its prefix when that rule finds nothing. -/
theorem prefixSplit_none {q : String} (h : reg.entries.values.filter (claimsByPrefix q)=[]) :
    reg.prefixSplit q=none := by
  unfold Registry.prefixSplit
  cases hsplit : partitionAt '.' q with
  | none => rfl
  | some parts =>
    dsimp only
    rw [Option.map_eq_none_iff,List.find?_eq_none]
    intro e he hhead
    refine List.filter_eq_nil_iff.mp h e he (claimsByPrefix_iff.mpr ⟨parts.2,?_⟩)
    rw [hsplit,beq_iff_eq.mp hhead]

/-- An entry with a tool of this raw name is among the bare matches. -/
theorem mem_bareMatches {q : String} {e : RegistryEntry} (he : e∈reg.entries.values)
    (hc : claimsBare q e=true) : (e,q)∈reg.bareMatches q := by
  obtain ⟨td,ht,hname⟩ := List.any_eq_true.mp hc
  refine List.mem_flatMap.mpr ⟨e,he,List.mem_map.mpr ⟨td,?_,rfl⟩⟩
  exact List.mem_filter.mpr ⟨ht,hname⟩

/-- With prefixes apart, a name that two servers claim equally is refused. -/
theorem refused_of_contested (hd : DistinctNames reg) (ha : PrefixesApart reg) {q : String}
    (hc : Contested reg q) : reg.findByQualifiedTool q=none := by
  obtain ⟨e₁,h₁,e₂,h₂,hne⟩ := hc
  unfold claimants at h₁ h₂
  dsimp only at h₁ h₂
  split at h₁
  · rename_i hexact
    rw [if_pos hexact] at h₂
    obtain ⟨hm₁,hc₁⟩ := List.mem_filter.mp h₁
    obtain ⟨hm₂,hc₂⟩ := List.mem_filter.mp h₂
    exact absurd (congrArg (fun e => e.server.id) (exact_unique hd hm₁ hm₂ hc₁ hc₂)) hne
  · rename_i hexact
    rw [if_neg hexact] at h₂
    split at h₁
    · rename_i hsplit
      rw [if_pos hsplit] at h₂
      obtain ⟨hm₁,hc₁⟩ := List.mem_filter.mp h₁
      obtain ⟨hm₂,hc₂⟩ := List.mem_filter.mp h₂
      obtain ⟨raw₁,hparts₁⟩ := claimsByPrefix_iff.mp hc₁
      obtain ⟨raw₂,hparts₂⟩ := claimsByPrefix_iff.mp hc₂
      have hhead := congrArg Prod.fst (Option.some.inj (hparts₁.symm.trans hparts₂))
      exact absurd (ha e₁ hm₁ e₂ hm₂ hhead (partitionAt_head hparts₁)) hne
    · rename_i hsplit
      rw [if_neg hsplit] at h₂
      obtain ⟨hm₁,hc₁⟩ := List.mem_filter.mp h₁
      obtain ⟨hm₂,hc₂⟩ := List.mem_filter.mp h₂
      rw [Registry.findByQualifiedTool,exactMatch_none (not_not.mp hexact),
        prefixSplit_none (not_not.mp hsplit),bareMatch_eq,Option.none_or,Option.none_or]
      cases honly : only (reg.bareMatches q) with
      | none => rfl
      | some found =>
        have hfound₁ := eq_of_only honly (mem_bareMatches hm₁ hc₁)
        have hfound₂ := eq_of_only honly (mem_bareMatches hm₂ hc₂)
        have hsame := congrArg Prod.fst (hfound₁.trans hfound₂.symm)
        exact absurd (congrArg (fun e : RegistryEntry => e.server.id) hsame) hne

/-- Some name with a given prefix is no qualified name of the registry. -/
theorem exists_unclaimed (reg : Registry) (head : String) :
    ∃ raw, reg.entries.values.filter (claimsExactly (head++"."++raw))=[] := by
  let names := reg.entries.values.flatMap
    (fun entry => entry.tools.filterMap ToolDefinition.qualifiedName)
  have hinjective : Function.Injective (fun raw : String => head++"."++raw) := by
    intro raw raw' h
    exact String.append_right_inj _ |>.mp h
  obtain ⟨q,⟨raw,rfl⟩,hfresh⟩ :=
    (Set.infinite_range_of_injective hinjective).exists_notMem_finset names.toFinset
  refine ⟨raw,List.filter_eq_nil_iff.mpr fun e he hc => hfresh ?_⟩
  obtain ⟨td,ht,hq⟩ := List.any_eq_true.mp hc
  exact List.mem_toFinset.mpr (List.mem_flatMap.mpr
    ⟨e,he,List.mem_filterMap.mpr ⟨td,ht,by simpa using hq⟩⟩)

/-- A shared prefix without a dot leads some contested name to a server. -/
theorem contested_of_shared {e₁ e₂ : RegistryEntry} (h₁ : e₁∈reg.entries.values)
    (h₂ : e₂∈reg.entries.values) (hhead : e₁.server.effectivePrefix=e₂.server.effectivePrefix)
    (hdotless : '.'∉e₁.server.effectivePrefix.toList) (hne : e₁.server.id≠e₂.server.id) :
    ∃ q, Contested reg q ∧ reg.findByQualifiedTool q≠none := by
  obtain ⟨raw,hfresh⟩ := exists_unclaimed reg e₁.server.effectivePrefix
  have hsplit := partitionAt_prefixed hdotless raw
  have hclaims₁ : claimsByPrefix (e₁.server.effectivePrefix++"."++raw) e₁=true :=
    claimsByPrefix_iff.mpr ⟨raw,hsplit⟩
  have hclaims₂ : claimsByPrefix (e₁.server.effectivePrefix++"."++raw) e₂=true :=
    claimsByPrefix_iff.mpr ⟨raw,by rw [hsplit,hhead]⟩
  have hmem₁ := List.mem_filter.mpr ⟨h₁,hclaims₁⟩
  have hmem₂ := List.mem_filter.mpr ⟨h₂,hclaims₂⟩
  have hclaimants : claimants reg (e₁.server.effectivePrefix++"."++raw)=
      reg.entries.values.filter (claimsByPrefix (e₁.server.effectivePrefix++"."++raw)) := by
    unfold claimants
    dsimp only
    rw [if_neg (not_not.mpr hfresh),if_pos (List.ne_nil_of_mem hmem₁)]
  refine ⟨_,⟨e₁,hclaimants ▸ hmem₁,e₂,hclaimants ▸ hmem₂,hne⟩,?_⟩
  rw [Registry.findByQualifiedTool,exactMatch_none hfresh,Option.none_or]
  intro hnone
  have hsplitNone := (Option.or_eq_none_iff.mp hnone).1
  rw [Registry.prefixSplit,hsplit] at hsplitNone
  rw [Option.map_eq_none_iff,List.find?_eq_none] at hsplitNone
  exact hsplitNone e₁ h₁ (beq_self_eq_true _)

/-- In a registry of distinct qualified names, every insertion order gives the
same answers and what two servers claim equally is refused, exactly when no
two servers share a prefix without a dot. -/
theorem routesByName_iff (reg : Registry) (hd : DistinctNames reg) :
    RoutesByName reg ↔ PrefixesApart reg := by
  constructor
  · intro h e₁ h₁ e₂ h₂ hhead hdotless
    by_contra hne
    obtain ⟨q,hcontested,hfound⟩ := contested_of_shared h₁ h₂ hhead hdotless hne
    exact hfound (h.refuses q hcontested)
  · intro ha
    refine ⟨fun reg' hp q => ?_,fun q hc => refused_of_contested hd ha hc⟩
    rw [route_eq,route_eq,exactRoute_perm hd hp,prefixRoute_perm ha hp,bareRoute_perm hp]

end Order

/-- A server whose tools are found under the prefix `p`. -/
def prefixed (sid : String) : UpstreamServer := {plainServer sid with toolPrefix := some "p"}

/-- Bare names; `a` with the tool `x` and `b` with the tool `y`, both under the
prefix `p`, registered in a given order. -/
def sharing (ops : List RegistryOperation) : Registry :=
  final operate (start {strategy := .bare} {}).registry ops

/-- The registration of `a`. -/
def firstShare : RegistryOperation := .register (prefixed "a") true (.ok [{name := "x"}])

/-- The registration of `b`. -/
def secondShare : RegistryOperation := .register (prefixed "b") true (.ok [{name := "y"}])

theorem routesByName_iff_sharing :
    RoutesByName (sharing [firstShare,secondShare]) ↔
      PrefixesApart (sharing [firstShare,secondShare]) :=
  routesByName_iff (sharing [firstShare,secondShare]) (by unfold DistinctNames; decide)

/-- A prefixed name of the tool of `b` leads to the server that came first. -/
theorem first_inserted_answers :
    SameServers (sharing [firstShare,secondShare]) (sharing [secondShare,firstShare]) ∧
    DistinctNames (sharing [firstShare,secondShare]) ∧
    route (sharing [firstShare,secondShare]) "p.y"=some ("a","y") ∧
    route (sharing [secondShare,firstShare]) "p.y"=some ("b","y") ∧
    Contested (sharing [firstShare,secondShare]) "p.y" := by
  refine ⟨List.Perm.swap _ _ _,by unfold DistinctNames; decide,by decide,by decide,?_⟩
  exact ⟨_,List.mem_cons_self,_,List.mem_cons_of_mem _ List.mem_cons_self,by decide⟩

end McpGateway.RoutingOrder
