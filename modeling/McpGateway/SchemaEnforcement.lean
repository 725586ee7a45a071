import Mathlib
import McpGateway.PyText
import McpGateway.PyDict
import McpGateway.StepRun
import McpGateway.JsonValue
import McpGateway.GatewaySettings
import McpGateway.CircuitBreakers
import McpGateway.ToolNaming
import McpGateway.ServerRegistry
import McpGateway.RegistryRuns
import McpGateway.ToolRouting
import McpGateway.PyRuntime
import McpGateway.PiiRedactor
import McpGateway.Guardrails
import McpGateway.SchemaValidation
import McpGateway.ToolOrchestrator
import McpGateway.CallMediation

/-!
# The schema of a called tool

A call is validated against the first listed tool that has its raw name or,
literally, its prefixed one. A tool of the manifest that the collision policy
skipped is not listed, and the prefix of its server still leads to it. The
schema is the tool's own exactly when no tool that is literally named like its
prefixed form stands before it and the tool itself is listed, up to
coincidence of the two schemas.
-/

namespace McpGateway.SchemaEnforcement

open PyText PyDict StepRun JsonValue GatewaySettings CircuitBreakers ToolNaming ServerRegistry
open RegistryRuns ToolRouting PyRuntime PiiRedactor Guardrails SchemaValidation ToolOrchestrator
open CallMediation

/-- A successful synchronization of a registered entry with its answer. -/
structure ManifestSync where
  /-- The synchronized server. -/
  serverId : String
  /-- The tools it listed. -/
  manifest : List RawTool

section Definitions

/-- The successful synchronization that an operation completes. One of an
entry that was removed or replaced is nobody's, and a manifest that the
collision policy rejects completes none. -/
def completedSync (s : RegistryRun) : RegistryAction→Option ManifestSync
  | .syncFinish index (.ok rawTools) =>
    match s.syncs[index]? with
    | none => none
    | some (serverId,uid) =>
      match s.registry.entries.get? serverId with
      | none => none
      | some entry =>
        if entry.client.uid=uid then
          match buildToolDefinitions s.registry.naming s.registry.entries entry.server rawTools with
          | .ok _ => some ⟨serverId,rawTools⟩
          | .error _ => none
        else none
  | _ => none

/-- One operation with the successful synchronization it completes. -/
def observeSync (s : RegistryRun) (a : RegistryAction) : RegistryRun×Option ManifestSync :=
  (RegistryRuns.step s a,completedSync s a)

/-- The answer to the last successful synchronization of a server. -/
def lastManifest (history : List ManifestSync) (sid : String) : Option (List RawTool) :=
  (history.reverse.find? (fun sync => sync.serverId==sid)).map ManifestSync.manifest

/-- The call is accepted by routing, gates and cache, and reaches the upstream
of this frame with its raw tool. -/
def ReachesUpstream (rt : Runtime) (o : Orchestrator) (now : ℚ) (interlude : Interlude)
    (f : CallFrame) : Prop :=
  resolve o.registry f.request.name f.request.serverId=.ok (f.entry,f.rawTool) ∧
    ∃ client sent agentId, Effect.upstream client f.rawTool sent agentId∈
      (callTool rt o now f.request interlude).effects

/-- The enabled validator was given this schema, and the arguments meet it. -/
structure ValidatedAgainst (rt : Runtime) (validator : ToolSchemaValidator) (f : CallFrame)
    (schema : Json) : Prop where
  /-- The validator is enabled. -/
  enabled : validator.enabled=true
  /-- It is handed the schema. -/
  handed : inputSchema f=some schema
  /-- It accepts the arguments under it. -/
  accepted : validator.validate rt f.rawTool f.request.arguments (some schema)=.ok ()

/-- The first tool that is literally named like the prefixed form of the called
one and listed before every tool of the called name. -/
def namesake (f : CallFrame) : Option ToolDefinition :=
  (f.entry.tools.takeWhile (fun t => t.name≠f.rawTool)).find? (fun t => t.name==f.qualified)

/-- No tool of another schema is literally named like the prefixed form of the
called one and listed before it; without any such tool the called one is
listed. -/
def Unobscured (f : CallFrame) (schema : Json) : Prop :=
  match namesake f with
  | some td => td.inputSchema=schema
  | none => ∃ td∈f.entry.tools, td.name=f.rawTool

/-- The listed tools are of the last manifest of their server. -/
def Recorded (s : RegistryRun) (history : List ManifestSync) : Prop :=
  ∀ sid entry, s.registry.entries.get? sid=some entry→∀ td∈entry.tools,
    ∃ raws, lastManifest history sid=some raws ∧
      ∃ raw∈raws, raw.name=td.name ∧ raw.inputSchema=td.inputSchema

end Definitions

section Runs

/-- The last manifest of a longer history. -/
theorem lastManifest_append (history : List ManifestSync) (sync : ManifestSync) (sid : String) :
    lastManifest (history++[sync]) sid=
      if sync.serverId=sid then some sync.manifest else lastManifest history sid := by
  rw [lastManifest,find_last_append ManifestSync.serverId,
    apply_ite (Option.map ManifestSync.manifest)]
  rfl

/-- An operation without a successful synchronization gives no entry tools that
it did not have. -/
theorem tools_kept {s : RegistryRun} {a : RegistryAction} (hnone : completedSync s a=none)
    {sid : String} {entry' : RegistryEntry}
    (hg : (RegistryRuns.step s a).registry.entries.get? sid=some entry') : entry'.tools=[] ∨
    ∃ entry, s.registry.entries.get? sid=some entry ∧ entry.tools=entry'.tools := by
  cases step_origin hg with
  | registered server action named made =>
    rw [made]
    exact .inl rfl
  | settings old found server named made =>
    rw [made]
    exact .inr ⟨old,found,rfl⟩
  | synced old found index answer action captured made =>
    refine .inr ⟨old,found,?_⟩
    rw [made]
    cases answer with
    | error text => rfl
    | ok rawTools =>
      rw [action] at hnone
      simp only [completedSync,captured,found,if_true] at hnone
      cases hb : buildToolDefinitions s.registry.naming s.registry.entries old.server rawTools with
      | ok tools =>
        rw [hb] at hnone
        cases hnone
      | error conflict => rw [Registry.syncEntry,hb]

/-- A successful synchronization builds the tools of its own entry from its
manifest and leaves the other entries alone. -/
theorem completedSync_some {s : RegistryRun} {a : RegistryAction} {sync : ManifestSync}
    (hsync : completedSync s a=some sync) :
    ∃ (entry : RegistryEntry) (tools : List ToolDefinition),
    buildToolDefinitions s.registry.naming s.registry.entries entry.server sync.manifest=
      .ok tools ∧
    (RegistryRuns.step s a).registry.entries=s.registry.entries.set sync.serverId
      {entry with tools := tools,healthy := true,lastError := none} := by
  obtain ⟨index,rawTools,rfl⟩ : ∃ index rawTools, a=.syncFinish index (.ok rawTools) := by
    cases a with
    | syncFinish index answer =>
      cases answer with
      | ok rawTools => exact ⟨index,rawTools,rfl⟩
      | error text => cases hsync
    | _ => cases hsync
  cases hs : s.syncs[index]? with
  | none =>
    simp only [completedSync,hs] at hsync
    cases hsync
  | some captured =>
    obtain ⟨serverId,uid⟩ := captured
    simp only [completedSync,hs] at hsync
    cases hentry : s.registry.entries.get? serverId with
    | none =>
      rw [hentry] at hsync
      cases hsync
    | some entry =>
      rw [hentry] at hsync
      dsimp only at hsync
      by_cases huid : entry.client.uid=uid
      · rw [if_pos huid] at hsync
        cases hb : buildToolDefinitions s.registry.naming s.registry.entries entry.server
            rawTools with
        | error conflict =>
          rw [hb] at hsync
          cases hsync
        | ok tools =>
          rw [hb] at hsync
          cases hsync
          refine ⟨entry,tools,hb,?_⟩
          simp only [RegistryRuns.step,hs]
          rcases finishSync_cases s.registry serverId uid (.ok rawTools) with
            ⟨other,hother,-,hentries⟩ | ⟨hgone,-⟩
          · rw [hentry] at hother
            cases hother
            rw [hentries,Registry.syncEntry,hb]
          · exact absurd huid (hgone entry hentry)
      · rw [if_neg huid] at hsync
        cases hsync

/-- One operation. -/
theorem recorded_step {s : RegistryRun} {history : List ManifestSync} (h : Recorded s history)
    (a : RegistryAction) :
    Recorded (observeSync s a).1 (history++(observeSync s a).2.toList) := by
  unfold observeSync
  dsimp only
  cases hsync : completedSync s a with
  | none =>
    rw [Option.toList_none,List.append_nil]
    intro sid entry' hg td ht
    rcases tools_kept hsync hg with hempty | ⟨entry,hentry,htools⟩
    · rw [hempty] at ht
      exact absurd ht List.not_mem_nil
    · exact h sid entry hentry td (htools ▸ ht)
  | some sync =>
    obtain ⟨entry,tools,hb,hentries⟩ := completedSync_some hsync
    rw [Option.toList_some]
    intro sid entry' hg td ht
    rw [hentries,Dict.get?_set] at hg
    rw [lastManifest_append]
    split at hg
    · rename_i hsame
      cases hg
      rw [if_pos hsame]
      obtain ⟨raw,hr,q,rfl⟩ := nameTools_mem hb ht
      exact ⟨sync.manifest,rfl,raw,hr,rfl,rfl⟩
    · rename_i hne
      rw [if_neg hne]
      exact h sid entry' hg td ht

/-- The successful synchronizations of a run. -/
abbrev syncHistory (naming : NamingConfig) (policy : CircuitBreakerPolicy)
    (actions : List RegistryAction) : List ManifestSync :=
  (run observeSync (start naming policy) actions).2

/-- After every run the listed tools are of the last manifests. -/
theorem recorded_run (naming : NamingConfig) (policy : CircuitBreakerPolicy)
    (actions : List RegistryAction) :
    Recorded (final RegistryRuns.step (start naming policy) actions)
      (syncHistory naming policy actions) := by
  have hstart : Recorded (start naming policy) [] := by
    intro sid entry hg
    cases hg
  have hrun := run_invariant (J:=Recorded) (fun _ _ a h => recorded_step h a) hstart actions
  rw [run_state,List.nil_append] at hrun
  exact hrun

end Runs

section Lookup

/-- A search for either of two names is the search for the one before the
first of the other, and then for the other. -/
theorem find_either {α : Type*} (p r : α→Bool) (l : List α) :
    l.find? (fun a => p a || r a)=((l.takeWhile (fun a => !r a)).find? p).or (l.find? r) := by
  induction l with
  | nil => rfl
  | cons a rest ih =>
    cases hr : r a with
    | true => simp [hr]
    | false =>
      cases hp : p a with
      | true => simp [hp,hr]
      | false => simp [hp,hr,ih]

/-- The schema handed to the validator is the namesake's, or else that of the
first tool of the called name. -/
theorem inputSchema_eq (f : CallFrame) : inputSchema f=
    ((namesake f).or (f.entry.tools.find? (fun t => t.name==f.rawTool))).map
      ToolDefinition.inputSchema := by
  have heither := find_either (fun t : ToolDefinition => t.name==f.qualified)
    (fun t => t.name==f.rawTool) f.entry.tools
  have hsearch : (fun t : ToolDefinition => t.name==f.qualified || t.name==f.rawTool)=
      fun t => decide (t.name=f.qualified ∨ t.name=f.rawTool) := by
    funext t
    rw [Bool.decide_or]
    rfl
  have hbefore : (fun t : ToolDefinition => !(t.name==f.rawTool))=
      fun t => decide (t.name≠f.rawTool) := by
    funext t
    rw [decide_not]
    rfl
  rw [hsearch,hbefore] at heither
  rw [inputSchema,heither]
  rfl

end Lookup

section Calls

/-- A call that reaches its upstream was accepted by the schema gate. -/
theorem reached_valid {rt : Runtime} {o : Orchestrator} {now : ℚ} {interlude : Interlude}
    {f : CallFrame} (h : ReachesUpstream rt o now interlude f) {validator : ToolSchemaValidator}
    (hv : o.schemaValidator=some validator) :
    validator.validate rt f.rawTool f.request.arguments (inputSchema f)=.ok () := by
  obtain ⟨hresolved,client,sent,agentId,he⟩ := h
  obtain ⟨f',reqRedacted,hrequest,hmediated,-,-,-,-⟩ :=
    startCall_upstream_iff.mp (callTool_upstream.mp he)
  have hframe : f'=f := by
    have hresolved' := hmediated.resolved
    rw [hrequest,hresolved] at hresolved'
    cases f
    cases f'
    cases hrequest
    cases hresolved'
    rfl
  rw [hframe] at hmediated
  exact hmediated.valid validator hv

/-- The only tool of a name in the manifest has the schema of every listed tool
of that name. -/
theorem schema_of_only {raws : List RawTool} {raw other : RawTool} {name : String}
    (honly : raws.filter (fun r => r.name==name)=[raw]) (hm : other∈raws)
    (hname : other.name=name) : other=raw := by
  have hfiltered : other∈raws.filter (fun r => r.name==name) :=
    List.mem_filter.mpr ⟨hm,beq_iff_eq.mpr hname⟩
  rw [honly] at hfiltered
  exact List.mem_singleton.mp hfiltered

/-- A call that reaches the upstream was validated against a schema exactly when
that schema was handed to the validator. -/
theorem validated_iff_handed {rt : Runtime} {o : Orchestrator} {validator : ToolSchemaValidator}
    (hv : o.schemaValidator=some validator) (henabled : validator.enabled=true) {now : ℚ}
    {interlude : Interlude} {f : CallFrame} (h : ReachesUpstream rt o now interlude f)
    (schema : Json) : ValidatedAgainst rt validator f schema ↔ inputSchema f=some schema := by
  constructor
  · exact fun hvalidated => hvalidated.handed
  · intro hschema
    refine ⟨henabled,hschema,?_⟩
    rw [←hschema]
    exact reached_valid h hv

/-- In every registry that registrations and synchronizations reach, under
every naming, a call that reaches the upstream of a server whose last
successful synchronization listed exactly one tool of the called name was
validated against that tool's own schema exactly when it is unobscured. -/
theorem validated_iff (naming : NamingConfig) (policy : CircuitBreakerPolicy)
    (actions : List RegistryAction) (rt : Runtime) (o : Orchestrator)
    (ho : o.registry=(final RegistryRuns.step (start naming policy) actions).registry)
    (validator : ToolSchemaValidator) (hv : o.schemaValidator=some validator)
    (henabled : validator.enabled=true) (now : ℚ) (interlude : Interlude) (f : CallFrame)
    (h : ReachesUpstream rt o now interlude f) (raws : List RawTool)
    (hlast : lastManifest (syncHistory naming policy actions) f.entry.server.id=some raws)
    (raw : RawTool) (honly : raws.filter (fun r => r.name==f.rawTool)=[raw]) :
    ValidatedAgainst rt validator f raw.inputSchema ↔ Unobscured f raw.inputSchema := by
  rw [validated_iff_handed hv henabled h,inputSchema_eq]
  unfold Unobscured
  cases hnamesake : namesake f with
  | some td => simp only [Option.some_or,Option.map_some,Option.some.injEq]
  | none =>
    dsimp only
    rw [Option.none_or]
    constructor
    · intro hfound
      obtain ⟨td,htd,-⟩ := Option.map_eq_some_iff.mp hfound
      have hname := List.find?_some htd
      exact ⟨td,List.mem_of_find?_eq_some htd,beq_iff_eq.mp hname⟩
    · rintro ⟨listed,hlisted,hname⟩
      have hsome : (f.entry.tools.find? (fun t => t.name==f.rawTool)).isSome=true :=
        List.find?_isSome.mpr ⟨listed,hlisted,beq_iff_eq.mpr hname⟩
      obtain ⟨td,htd⟩ := Option.isSome_iff_exists.mp hsome
      have htdname := List.find?_some htd
      have hkeyed : Keyed o.registry := by
        rw [ho]
        exact keyed_final naming policy actions
      have hget := resolve_registered hkeyed h.1
      rw [ho] at hget
      obtain ⟨raws',hlast',other,hm,hothername,hschema⟩ :=
        recorded_run naming policy actions _ _ hget td (List.mem_of_find?_eq_some htd)
      rw [hlast] at hlast'
      cases hlast'
      rw [htd,Option.map_some,←hschema,
        schema_of_only honly hm (hothername.trans (beq_iff_eq.mp htdname))]

end Calls

/-- An orchestrator with a schema validator over the registry of a run. -/
def checking (naming : NamingConfig) (actions : List RegistryAction) : Orchestrator :=
  {plainOrchestrator [] with
    registry := (final RegistryRuns.step (start naming {}) actions).registry
    schemaValidator := some {}}

/-- The frame of a call of `t` on the server under an id. -/
def frameOf (o : Orchestrator) (sid : String) : CallFrame where
  request := plainRequest (sid++".t")
  entry := (o.registry.entries.get? sid).getD
    {server := plainServer sid,client := ⟨0,plainServer sid⟩}
  rawTool := "t"

/-- The upstream is cancelled. -/
def noAnswer : Interlude := fun o => (o,0,.cancelled)

/-- A tool whose schema requires a member of its arguments. -/
def queryTool : RawTool where
  name := "t"
  inputSchema := .obj [("required",.arr [.str "query"])]

/-- The library finds that an object lacks a required member. -/
def requiredRuntime : Runtime := {asciiRuntime with
  iterErrors := fun schema arguments =>
    match schema,arguments with
    | .obj [("required",.arr [.str name])],.obj fields =>
      if name∈fields.map Prod.fst then .ok []
      else .ok [⟨[],"'"++name++"' is a required property"⟩]
    | _,_ => .ok []}

/-- A call of the tool with these arguments. -/
def queryFrame (arguments : Json) : CallFrame :=
  {frameOf (checking {} (oneSync queryTool)) "a" with
    request := {plainRequest "a.t" with arguments := arguments}}

/-- The call with the required member reaches the server. -/
theorem reaches_checking :
    ReachesUpstream requiredRuntime (checking {} (oneSync queryTool)) 0 noAnswer
      (queryFrame (.obj [("query",.str "x")])) :=
  ⟨rfl,⟨0,plainServer "a"⟩,.obj [("query",.str "x")],"agent",List.mem_singleton_self _⟩

theorem validated_iff_checking :
    ¬ValidatedAgainst requiredRuntime {} (queryFrame (.obj [])) queryTool.inputSchema ∧
      (ValidatedAgainst requiredRuntime {} (queryFrame (.obj [("query",.str "x")]))
          queryTool.inputSchema ↔
        Unobscured (queryFrame (.obj [("query",.str "x")])) queryTool.inputSchema) := by
  refine ⟨fun h => (by cases h.accepted),?_⟩
  exact validated_iff {} {} (oneSync queryTool) requiredRuntime (checking {} (oneSync queryTool))
    rfl {} rfl rfl 0 noAnswer (queryFrame (.obj [("query",.str "x")])) reaches_checking
    [queryTool] rfl queryTool rfl

/-- Bare names; both servers list `t`, the second one with a schema. -/
def schemaSkipped : List RegistryAction :=
  twoSyncs [{name := "t"}] [{name := "t",inputSchema := .obj [("required",.arr [.str "x"])]}]

/-- The tool that was skipped for its name is called without its schema. -/
theorem skipped_tool_unchecked :
    ReachesUpstream asciiRuntime (checking {strategy := .bare} schemaSkipped) 0 noAnswer
      (frameOf (checking {strategy := .bare} schemaSkipped) "b") ∧
    lastManifest (syncHistory {strategy := .bare} {} schemaSkipped) "b"=
      some [{name := "t",inputSchema := .obj [("required",.arr [.str "x"])]}] ∧
    ¬ValidatedAgainst asciiRuntime {} (frameOf (checking {strategy := .bare} schemaSkipped) "b")
      (.obj [("required",.arr [.str "x"])]) := by
  refine ⟨⟨rfl,⟨1,plainServer "b"⟩,.obj [],"agent",List.mem_singleton_self _⟩,rfl,fun h => ?_⟩
  have hnone : inputSchema (frameOf (checking {strategy := .bare} schemaSkipped) "b")=none := rfl
  have hhanded := h.handed
  rw [hnone] at hhanded
  cases hhanded

end McpGateway.SchemaEnforcement
