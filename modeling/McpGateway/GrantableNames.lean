import Mathlib
import McpGateway.PyDict
import McpGateway.StepRun
import McpGateway.JsonValue
import McpGateway.GatewaySettings
import McpGateway.CircuitBreakers
import McpGateway.ToolNaming
import McpGateway.ServerRegistry
import McpGateway.RegistryRuns
import McpGateway.ToolRouting
import McpGateway.ToolAuthorizer
import McpGateway.PyRuntime
import McpGateway.PiiRedactor
import McpGateway.Guardrails
import McpGateway.ToolOrchestrator
import McpGateway.CallMediation

/-!
# Granting a tool by its advertised name

The manifest shows the qualified name that the registry gave a tool, while a
permission list is matched against the raw name and against a qualified name
rebuilt from prefix and raw name. The two meet unless a tool was renamed. No
pattern is ever expanded, so the wildcard of a prefix grants nothing.
-/

namespace McpGateway.GrantableNames

open PyDict StepRun JsonValue GatewaySettings CircuitBreakers ToolNaming ServerRegistry
open RegistryRuns ToolRouting ToolAuthorizer PyRuntime PiiRedactor Guardrails ToolOrchestrator
open CallMediation

/-- The operation changes no settings in place. -/
def KeepsSettings (a : RegistryAction) : Prop := ∀ server, a≠.updateServer server

/-- The call is routed to an enabled server and its agent is authorized. -/
def PassesAuthorization (o : Orchestrator) (request : CallRequest) : Prop :=
  ∃ f : CallFrame, f.request=request ∧
    resolve o.registry request.name request.serverId=.ok (f.entry,f.rawTool) ∧
    f.entry.server.enabled=true ∧
    authorizeToolCall o.authorizer request.principal f.rawTool f.qualified f.mutable=.ok ()

/-- The first tool of the first server that has a tool of this qualified
name. -/
structure FirstNamed (reg : Registry) (q : String) (owner : RegistryEntry)
    (tool : ToolDefinition) : Prop where
  /-- No server before has one. -/
  server : ∃ before after, reg.entries.values=before++owner::after ∧
    ∀ e∈before, ∀ t∈e.tools, t.qualifiedName≠some q
  /-- Nor has the server one before. -/
  position : ∃ before after, owner.tools=before++tool::after ∧
    ∀ t∈before, t.qualifiedName≠some q
  /-- It has the name. -/
  named : tool.qualifiedName=some q

/-- The list has the wildcard, the raw name, or prefix and raw name. -/
def Listed (permissions : List String) (owner : RegistryEntry) (tool : ToolDefinition) : Prop :=
  "*"∈permissions ∨ tool.name∈permissions ∨
    owner.server.effectivePrefix++"."++tool.name∈permissions

/-- Names the registry can give to a tool. -/
inductive GivenName (naming : NamingConfig) (server : UpstreamServer) (raw : String) :
    String→Prop where
  /-- The raw name. -/
  | bare : GivenName naming server raw raw
  /-- Prefix and raw name. -/
  | prefixed : GivenName naming server raw (server.effectivePrefix++"."++raw)
  /-- A renamed form, under the renaming policy. -/
  | renamed (base : String) (policy : naming.onConflict=.suffix) :
    GivenName naming server raw (suffixed base server.id)

/-- A registered tool as its server's settings describe it. -/
structure Described (naming : NamingConfig) (server : UpstreamServer) (td : ToolDefinition) :
    Prop where
  /-- Its mutability is listed. -/
  mutable : td.mutable=decide (td.name∈server.mutableTools)
  /-- It has a given name. -/
  named : ∃ q, td.qualifiedName=some q ∧ GivenName naming server td.name q

/-- Every registered tool is described by the settings of its server. -/
def AllDescribed (naming : NamingConfig) (s : RegistryRun) : Prop :=
  s.registry.naming=naming ∧ ∀ sid entry, s.registry.entries.get? sid=some entry→
    ∀ td∈entry.tools, Described naming entry.server td

/-- The strategy gives a raw name or a prefixed one. -/
theorem baseName_given (naming : NamingConfig) (entries : Dict String RegistryEntry)
    (server : UpstreamServer) (raw : String) :
    GivenName naming server raw (baseName naming.strategy entries server raw) := by
  unfold baseName
  cases naming.strategy with
  | prefixAlways => exact .prefixed
  | bare => exact .bare
  | prefixOnConflict =>
    dsimp only
    split
    · exact .prefixed
    · exact .bare

/-- Built definitions are described by the settings they were built from. -/
theorem nameTools_described {naming : NamingConfig} {entries : Dict String RegistryEntry}
    {server : UpstreamServer} {existing : Dict String String} {raws : List RawTool}
    {tools : List ToolDefinition} (h : nameTools naming entries server existing raws=.ok tools) :
    ∀ td∈tools, Described naming server td := by
  induction raws generalizing existing tools with
  | nil =>
    cases h
    exact fun td ht => absurd ht List.not_mem_nil
  | cons raw rest ih =>
    rcases nameTools_cons h with ⟨-,hrest⟩ | ⟨q,later,hname,hrest,rfl⟩
    · exact ih hrest
    · refine List.forall_mem_cons.mpr ⟨⟨rfl,q,rfl,?_⟩,ih hrest⟩
      rcases claimName_some hname with ⟨-,rfl⟩ | ⟨-,hpolicy,rfl⟩
      · exact baseName_given naming entries server raw.name
      · exact .renamed _ hpolicy

/-- A synchronization leaves tools that the settings of their server describe. -/
theorem syncEntry_described {naming : NamingConfig} {entries : Dict String RegistryEntry}
    {entry : RegistryEntry} (h : ∀ td∈entry.tools, Described naming entry.server td)
    (answer : Except String (List RawTool)) :
    ∀ td∈(Registry.syncEntry naming entries entry answer).tools,
      Described naming entry.server td := by
  unfold Registry.syncEntry
  cases answer with
  | error text => exact h
  | ok rawTools =>
    dsimp only
    cases hb : buildToolDefinitions naming entries entry.server rawTools with
    | error conflict => exact h
    | ok tools => exact nameTools_described hb

/-- Whether a server is enabled does not show in its tools. -/
theorem Described.enable {naming : NamingConfig} {server : UpstreamServer} {td : ToolDefinition}
    (h : Described naming server td) (enabled : Bool) :
    Described naming {server with enabled := enabled} td := by
  obtain ⟨hmutable,q,hq,hgiven⟩ := h
  refine ⟨hmutable,q,hq,?_⟩
  cases hgiven with
  | bare => exact .bare
  | prefixed => exact .prefixed
  | renamed base policy => exact .renamed base policy

/-- Every operation that keeps the settings keeps the tools described. -/
theorem allDescribed_step {naming : NamingConfig} {s : RegistryRun} {a : RegistryAction}
    (ha : KeepsSettings a) (h : AllDescribed naming s) : AllDescribed naming (step s a) := by
  refine ⟨(step_naming s a).trans h.1,fun sid entry hg => ?_⟩
  cases a with
  | register server =>
    simp only [step,Registry.register,Dict.get?_set] at hg
    split at hg
    · cases hg
      exact fun td ht => absurd ht List.not_mem_nil
    · exact h.2 sid entry hg
  | deregister serverId =>
    simp only [step,(deregister_frame s.registry serverId).1,Dict.get?_pop] at hg
    split at hg
    · cases hg
    · exact h.2 sid entry hg
  | setEnabled serverId enabled =>
    simp only [step,Registry.setEnabled,Dict.get?_modify] at hg
    split at hg
    · rename_i hsame
      subst hsame
      obtain ⟨old,hold,hmade⟩ := Option.map_eq_some_iff.mp hg
      subst hmade
      exact fun td ht => (h.2 serverId old hold td ht).enable enabled
    · exact h.2 sid entry hg
  | updateServer server => exact absurd rfl (ha server)
  | syncStart serverId =>
    refine h.2 sid entry (hg.symm ▸ ?_)
    simp only [step]
    split <;> rfl
  | syncFinish index answer =>
    simp only [step] at hg
    cases hs : s.syncs[index]? with
    | none =>
      rw [hs] at hg
      exact h.2 sid entry hg
    | some captured =>
      obtain ⟨serverId,uid⟩ := captured
      rw [hs] at hg
      dsimp only at hg
      rcases finishSync_cases s.registry serverId uid answer with
        ⟨old,hold,-,hentries⟩ | ⟨-,hentries⟩
      · rw [hentries,Dict.get?_set] at hg
        split at hg
        · cases hg
          rw [(syncEntry_frame s.registry.naming s.registry.entries old answer).1,h.1]
          exact syncEntry_described (h.2 serverId old hold) answer
        · exact h.2 sid entry hg
      · rw [hentries] at hg
        exact h.2 sid entry hg

/-- In every run that keeps the settings all tools are described. -/
theorem allDescribed_final (naming : NamingConfig) (policy : CircuitBreakerPolicy)
    {actions : List RegistryAction} (h : ∀ a∈actions, KeepsSettings a) :
    AllDescribed naming (final step (start naming policy) actions) := by
  have hstart : AllDescribed naming (start naming policy) := ⟨rfl,fun _ _ hg => (by cases hg)⟩
  have hmeets : Meets step (fun _ a => KeepsSettings a) (start naming policy) actions :=
    meets_of_forall (fun _ a ha => h a ha) _
  exact meets_invariant (fun s a hs ha => allDescribed_step ha hs) hstart hmeets

/-- The exact lookup finds the first tool of a name. -/
theorem exactMatch_iff {reg : Registry} {q : String} {owner : RegistryEntry} {raw : String} :
    reg.exactMatch q=some (owner,raw) ↔ ∃ tool, FirstNamed reg q owner tool ∧ tool.name=raw := by
  unfold Registry.exactMatch
  rw [List.findSome?_eq_some_iff]
  simp only [Option.map_eq_some_iff,Option.map_eq_none_iff,List.find?_eq_some_iff_append,
    List.find?_eq_none,beq_iff_eq,Prod.mk.injEq,Bool.not_eq_true']
  constructor
  · rintro ⟨before,e,after,hsplit,⟨tool,⟨hnamed,first,last,htools,hfirst⟩,rfl,hraw⟩,hbefore⟩
    refine ⟨tool,⟨⟨before,after,hsplit,hbefore⟩,⟨first,last,htools,?_⟩,hnamed⟩,hraw⟩
    exact fun t ht => beq_eq_false_iff_ne.mp (hfirst t ht)
  · rintro ⟨tool,⟨⟨before,after,hsplit,hbefore⟩,⟨first,last,htools,hfirst⟩,hnamed⟩,hraw⟩
    refine ⟨before,owner,after,hsplit,⟨tool,⟨hnamed,first,last,htools,?_⟩,rfl,hraw⟩,hbefore⟩
    exact fun t ht => beq_eq_false_iff_ne.mpr (hfirst t ht)

/-- A call by an advertised name is routed to the first tool of that name. -/
theorem resolve_advertised {reg : Registry} {entry : RegistryEntry} (he : entry∈reg.entries.values)
    {td : ToolDefinition} (ht : td∈entry.tools) {q : String} (hq : td.qualifiedName=some q) :
    ∃ owner tool, FirstNamed reg q owner tool ∧ resolve reg q none=.ok (owner,tool.name) := by
  cases hx : reg.exactMatch q with
  | none =>
    unfold Registry.exactMatch at hx
    have hnone := List.findSome?_eq_none_iff.mp hx entry he
    rw [Option.map_eq_none_iff,List.find?_eq_none] at hnone
    exact absurd (beq_iff_eq.mpr hq) (hnone td ht)
  | some found =>
    obtain ⟨tool,hfirst,hraw⟩ := exactMatch_iff.mp hx
    refine ⟨found.1,tool,hfirst,?_⟩
    have hlookup : reg.findByQualifiedTool q=some found := by
      rw [Registry.findByQualifiedTool,hx,Option.some_or]
    rw [resolve_lookup hlookup,hraw]

/-- The first server of a name is registered and has the tool. -/
theorem FirstNamed.registered {reg : Registry} {q : String} {owner : RegistryEntry}
    {tool : ToolDefinition} (h : FirstNamed reg q owner tool) :
    owner∈reg.entries.values ∧ tool∈owner.tools := by
  obtain ⟨before,after,hsplit,-⟩ := h.server
  obtain ⟨first,last,htools,-⟩ := h.position
  constructor
  · rw [hsplit]
    exact List.mem_append_right _ List.mem_cons_self
  · rw [htools]
    exact List.mem_append_right _ List.mem_cons_self

/-- A call by the name passes exactly when the first tool of the name is on an
enabled server, is not mutable for the agent, and is listed. -/
theorem passes_iff {o : Orchestrator} {request : CallRequest} {owner : RegistryEntry}
    {tool : ToolDefinition} (hfirst : FirstNamed o.registry request.name owner tool)
    (hm : tool.mutable=decide (tool.name∈owner.server.mutableTools))
    (he : o.authorizer.enabled=true) (hs : request.serverId=none)
    (hp : request.principal.permissions≠[]) :
    PassesAuthorization o request ↔ owner.server.enabled=true ∧
      (tool.mutable=true→ request.principal.agentId∈o.authorizer.mutableAllowedAgents) ∧
      Listed request.principal.permissions owner tool := by
  have hx : o.registry.exactMatch request.name=some (owner,tool.name) :=
    exactMatch_iff.mpr ⟨tool,hfirst,rfl⟩
  have hresolve : resolve o.registry request.name request.serverId=.ok (owner,tool.name) := by
    rw [hs]
    exact resolve_lookup (by rw [Registry.findByQualifiedTool,hx,Option.some_or])
  have hauth : ∀ f : CallFrame, f.entry=owner→f.rawTool=tool.name→
      (authorizeToolCall o.authorizer request.principal f.rawTool f.qualified f.mutable=.ok () ↔
        (tool.mutable=true→ request.principal.agentId∈o.authorizer.mutableAllowedAgents) ∧
        Listed request.principal.permissions owner tool) := by
    intro f hentry hraw
    have hmutable : f.mutable=tool.mutable := by rw [CallFrame.mutable,hentry,hraw,hm]
    rw [authorizeToolCall_ok_iff,he,hmutable,CallFrame.qualified,hentry,hraw]
    simp only [Bool.true_eq_false,false_or,hp,Listed]
  constructor
  · rintro ⟨f,-,hr,hon,ha⟩
    rw [hresolve] at hr
    obtain ⟨hentry,hraw⟩ := Prod.mk.inj (Except.ok.inj hr)
    exact ⟨hentry ▸ hon,(hauth f hentry.symm hraw.symm).mp ha⟩
  · rintro ⟨hon,ha⟩
    exact ⟨⟨request,owner,tool.name⟩,rfl,hresolve,hon,(hauth _ rfl rfl).mpr ha⟩

/-- Unless tools are renamed, a registered tool's advertised name is its raw
name or prefix and raw name. -/
theorem listed_of_advertised {naming : NamingConfig} {entry : RegistryEntry}
    {td : ToolDefinition} {q : String} (hd : Described naming entry.server td)
    (hq : td.qualifiedName=some q) (hrefusing : naming.onConflict≠.suffix)
    {permissions : List String} (hp : q∈permissions) : Listed permissions entry td := by
  obtain ⟨-,q',hq',hgiven⟩ := hd
  have hsameName : q=q' := Option.some.inj (hq.symm.trans hq')
  subst hsameName
  cases hgiven with
  | bare => exact .inr (.inl hp)
  | prefixed => exact .inr (.inr hp)
  | renamed base policy => exact absurd policy hrefusing

/-- In every registry that registrations, removals, switches and interleaved
synchronizations reach, an agent whose list has the advertised name or the
wildcard of the prefix passes authorization by that name exactly when the
first tool of the name is on an enabled server, is not mutable for the agent,
and is listed literally. Under the refusing policies listing the advertised
name is enough. -/
theorem grantable_iff (naming : NamingConfig) (policy : CircuitBreakerPolicy)
    {actions : List RegistryAction} (hk : ∀ a∈actions, KeepsSettings a) {o : Orchestrator}
    (ho : o.registry=(final step (start naming policy) actions).registry)
    (he : o.authorizer.enabled=true) {sid : String} {entry : RegistryEntry}
    (hg : o.registry.entries.get? sid=some entry) {td : ToolDefinition} (ht : td∈entry.tools)
    {request : CallRequest} (hq : td.qualifiedName=some request.name)
    (hs : request.serverId=none) (hp : request.name∈request.principal.permissions ∨
      entry.server.effectivePrefix++".*"∈request.principal.permissions) :
    (PassesAuthorization o request ↔ ∃ owner tool, FirstNamed o.registry request.name owner tool ∧
      owner.server.enabled=true ∧
      (tool.mutable=true→ request.principal.agentId∈o.authorizer.mutableAllowedAgents) ∧
      Listed request.principal.permissions owner tool) ∧
    (naming.onConflict≠.suffix→ request.name≠""→entry.server.enabled=true→td.mutable=false→
      request.name∈request.principal.permissions→PassesAuthorization o request) := by
  have hvalue : entry∈o.registry.entries.values := Dict.mem_values_iff.mpr ⟨sid,hg⟩
  have hdescribed : ∀ e∈o.registry.entries.values, ∀ t∈e.tools, Described naming e.server t := by
    intro e hv t htool
    obtain ⟨id,hid⟩ := Dict.mem_values_iff.mp hv
    rw [ho] at hid
    exact (allDescribed_final naming policy hk).2 id e hid t htool
  have hpass : ∀ {owner tool}, FirstNamed o.registry request.name owner tool→
      (PassesAuthorization o request ↔ owner.server.enabled=true ∧
        (tool.mutable=true→ request.principal.agentId∈o.authorizer.mutableAllowedAgents) ∧
        Listed request.principal.permissions owner tool) := by
    intro owner tool hfirst
    obtain ⟨howner,htool⟩ := hfirst.registered
    refine passes_iff hfirst (hdescribed owner howner tool htool).mutable he hs ?_
    rcases hp with hp | hp <;> exact List.ne_nil_of_mem hp
  refine ⟨⟨fun h => ?_,?_⟩,?_⟩
  · obtain ⟨owner,tool,hfirst,-⟩ := resolve_advertised hvalue ht hq
    exact ⟨owner,tool,hfirst,(hpass hfirst).mp h⟩
  · rintro ⟨owner,tool,hfirst,h⟩
    exact (hpass hfirst).mpr h
  · intro hrefusing hne hon hmutable hlisted
    have hsound : RoutingSound o.registry := by
      rw [ho]
      exact routingSound_refusing naming policy hrefusing actions
    obtain ⟨owner,tool,hfirst,hresolve⟩ := resolve_advertised hvalue ht hq
    have hfound := hsound.2 entry hvalue td ht request.name hq hne
    rw [resolve_lookup hfound] at hresolve
    obtain ⟨hentry,hraw⟩ := Prod.mk.inj (Except.ok.inj hresolve)
    obtain ⟨howner,htool⟩ := hfirst.registered
    subst hentry
    have hsame : tool.mutable=td.mutable := by
      rw [(hdescribed _ howner tool htool).mutable,(hdescribed _ howner td ht).mutable,hraw]
    refine (hpass hfirst).mpr ⟨hon,fun h => ?_,?_⟩
    · rw [hsame,hmutable] at h
      exact absurd h Bool.false_ne_true
    · exact listed_of_advertised (hdescribed _ howner tool htool) hfirst.named hrefusing hlisted

/-- A call by a name of an agent with one permission. -/
def singlePermission (permission name : String) : CallRequest where
  principal := ⟨"agent",[permission]⟩
  name := name
  arguments := .obj []

/-- The gateway of the conflict tests, renaming tools of taken names. -/
def suffixOrchestrator : Orchestrator :=
  {plainOrchestrator [] with
    registry := (final step (start bareSuffix {})
      (twoSyncs [{name := "t"}] [{name := "t"}])).registry}

/-- The second server, whose tool was renamed. -/
def renamedEntry : RegistryEntry :=
  {server := plainServer "b",client := ⟨1,plainServer "b"⟩,
    tools := [toolDefinition (plainServer "b") {name := "t"} "t_b"],healthy := true}

theorem grantable_plain :
    let o := plainOrchestrator (oneSync {name := "t"})
    let entry := oneSyncEntry {name := "t"} "a.t"
    let td := toolDefinition (plainServer "a") {name := "t"} "a.t"
    (∀ a∈oneSync {name := "t"},KeepsSettings a) ∧ o.authorizer.enabled=true ∧
      o.registry.entries.get? "a"=some entry ∧ td∈entry.tools ∧
      (PassesAuthorization o (singlePermission "a.t" "a.t") ↔
        ∃ owner tool, FirstNamed o.registry "a.t" owner tool ∧ owner.server.enabled=true ∧
          (tool.mutable=true→"agent"∈o.authorizer.mutableAllowedAgents) ∧
          Listed ["a.t"] owner tool) := by
  have hk : ∀ a∈oneSync {name := "t"}, KeepsSettings a := by
    intro a ha server hsame
    subst hsame
    revert ha
    simp [oneSync]
  have hg : (plainOrchestrator (oneSync {name := "t"})).registry.entries.get? "a"=
      some (oneSyncEntry {name := "t"} "a.t") := rfl
  have hq : (toolDefinition (plainServer "a") {name := "t"} "a.t").qualifiedName=
      some (singlePermission "a.t" "a.t").name := rfl
  have hp : (singlePermission "a.t" "a.t").name∈
      (singlePermission "a.t" "a.t").principal.permissions := List.mem_cons_self
  exact ⟨hk,rfl,hg,List.mem_cons_self,
    (grantable_iff {} {} hk rfl rfl hg List.mem_cons_self hq rfl (.inl hp)).1⟩

theorem documented_wildcard_refused :
    (let o := plainOrchestrator (oneSync {name := "t"})
      let entry := oneSyncEntry {name := "t"} "a.t"
      o.registry.entries.get? "a"=some entry ∧ entry.server.enabled=true ∧
        toolDefinition (plainServer "a") {name := "t"} "a.t"∈entry.tools ∧
        entry.server.effectivePrefix++".*"="a.*" ∧
        ¬PassesAuthorization o (singlePermission "a.*" "a.t")) ∧
      (∃ entry td, suffixOrchestrator.registry.entries.get? "b"=some entry ∧ td∈entry.tools ∧
        entry.server.enabled=true ∧ td.mutable=false ∧ td.qualifiedName=some "t_b" ∧
        ¬PassesAuthorization suffixOrchestrator (singlePermission "t_b" "t_b")) := by
  have hone : ∀ f : CallFrame, f.entry=oneSyncEntry {name := "t"} "a.t"→f.rawTool="t"→
      authorizeToolCall {} ⟨"agent",["a.*"]⟩ f.rawTool f.qualified f.mutable≠ .ok () := by
    rintro ⟨request,entry,raw⟩ rfl rfl
    change authorizeToolCall {} ⟨"agent",["a.*"]⟩ "t" "a.t" false≠ .ok ()
    decide
  have htwo : ∀ f : CallFrame, f.entry=renamedEntry→f.rawTool="t"→
      authorizeToolCall {} ⟨"agent",["t_b"]⟩ f.rawTool f.qualified f.mutable≠ .ok () := by
    rintro ⟨request,entry,raw⟩ rfl rfl
    change authorizeToolCall {} ⟨"agent",["t_b"]⟩ "t" "b.t" false≠ .ok ()
    decide
  refine ⟨⟨rfl,rfl,List.mem_cons_self,by decide,?_⟩,
    ⟨renamedEntry,toolDefinition (plainServer "b") {name := "t"} "t_b",rfl,List.mem_cons_self,
      rfl,rfl,rfl,?_⟩⟩
  · rintro ⟨f,-,hr,-,ha⟩
    obtain ⟨hentry,hraw⟩ := Prod.mk.inj (Except.ok.inj hr)
    exact hone f hentry.symm hraw.symm ha
  · rintro ⟨f,-,hr,-,ha⟩
    obtain ⟨hentry,hraw⟩ := Prod.mk.inj (Except.ok.inj hr)
    exact htwo f hentry.symm hraw.symm ha

end McpGateway.GrantableNames
