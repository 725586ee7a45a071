import Mathlib
import McpGateway.PyDict
import McpGateway.StepRun
import McpGateway.GatewaySettings
import McpGateway.CircuitBreakers
import McpGateway.ToolNaming
import McpGateway.ServerRegistry
import McpGateway.RegistryRuns

/-!
# Completed registry operations

Each operation of the registry from its call to its end, with the exception
that reaches its caller. A synchronization handles every exception of its
body, so a registration that synchronizes raises none. Both gauges are true
after every operation of a run exactly when no operation that leaves the tool
gauge alone changes the tools of enabled servers.
-/

namespace McpGateway.RegistryOperations

open PyDict StepRun GatewaySettings CircuitBreakers ToolNaming ServerRegistry RegistryRuns

/-- What the body of `sync_one` raises. -/
inductive SyncException where
  /-- The client failed, with this text. -/
  | upstream (text : String)
  /-- The collision policy rejected the manifest. -/
  | conflict (error : ToolNameConflict)

/-- `str` of the exception. -/
def SyncException.text : SyncException→String
  | .upstream text => text
  | .conflict error => error.message

/-- The body of the `try` statement of `sync_one`. -/
def nameAnswer (reg : Registry) (entry : RegistryEntry) :
    Except String (List RawTool)→Except SyncException (List ToolDefinition)
  | .error text => .error (.upstream text)
  | .ok rawTools => (buildToolDefinitions reg.naming reg.entries entry.server rawTools).mapError
      SyncException.conflict

/-- The entry after the body, or after the handler of its exception. -/
def settle (entry : RegistryEntry) : Except SyncException (List ToolDefinition)→RegistryEntry
  | .ok tools => {entry with tools := tools,healthy := true,lastError := none}
  | .error e => {entry with healthy := false,lastError := some e.text}

/-- `sync_one`. The handler catches every exception of the body. -/
def syncOne (reg : Registry) (serverId : String) (answer : Except String (List RawTool)) :
    Registry×Except SyncException Bool :=
  match reg.entries.get? serverId with
  | none => (reg,.ok false)
  | some entry =>
    if entry.server.enabled=false then (reg,.ok false)
    else
      let settled := settle entry (nameAnswer reg entry answer)
      ({reg with entries := reg.entries.set serverId settled}.recomputeToolCount,
        .ok settled.healthy)

/-- `register`, with the entry it returns. -/
def register (reg : Registry) (server : UpstreamServer) (sync : Bool)
    (answer : Except String (List RawTool)) : Registry×Except SyncException RegistryEntry :=
  let registered := reg.register server
  let entry : RegistryEntry := {server := server,client := ⟨reg.nextUid,server⟩}
  if sync=true ∧ server.enabled=true then
    let synced := syncOne registered server.id answer
    (synced.1,synced.2.map (fun _ => (synced.1.entries.get? server.id).getD entry))
  else (registered,.ok entry)

/-- `sync_all`, with the answers in the order in which they arrive. -/
def syncAll (reg : Registry) (answers : List (String×Except String (List RawTool))) : Registry :=
  answers.foldl (fun reg answered => (syncOne reg answered.1 answered.2).1) reg

/-- One completed operation. -/
inductive RegistryOperation where
  /-- `register`, with the answer to its synchronization. -/
  | register (server : UpstreamServer) (sync : Bool) (answer : Except String (List RawTool))
  /-- `deregister`. -/
  | deregister (serverId : String)
  /-- `set_enabled`. -/
  | setEnabled (serverId : String) (enabled : Bool)
  /-- `sync_one`. -/
  | syncOne (serverId : String) (answer : Except String (List RawTool))
  /-- `sync_all`. -/
  | syncAll (answers : List (String×Except String (List RawTool)))

/-- The registry after an operation. -/
def operate (reg : Registry) : RegistryOperation→Registry
  | .register server sync answer => (register reg server sync answer).1
  | .deregister serverId => reg.deregister serverId
  | .setEnabled serverId enabled => reg.setEnabled serverId enabled
  | .syncOne serverId answer => (syncOne reg serverId answer).1
  | .syncAll answers => syncAll reg answers

/-- The settled entry is the one that the second half of a synchronization
leaves. -/
theorem settle_eq (reg : Registry) (entry : RegistryEntry)
    (answer : Except String (List RawTool)) :
    settle entry (nameAnswer reg entry answer)=
      Registry.syncEntry reg.naming reg.entries entry answer := by
  cases answer with
  | error text => rfl
  | ok rawTools =>
    simp only [nameAnswer,Registry.syncEntry]
    cases buildToolDefinitions reg.naming reg.entries entry.server rawTools <;> rfl

/-- A synchronization without anything in between is its two halves. -/
theorem syncOne_eq (reg : Registry) (serverId : String)
    (answer : Except String (List RawTool)) :
    (syncOne reg serverId answer).1=
      match reg.startSync serverId with
      | some uid => reg.finishSync serverId uid answer
      | none => reg := by
  unfold syncOne Registry.startSync
  cases hg : reg.entries.get? serverId with
  | none => rfl
  | some entry =>
    cases he : entry.server.enabled with
    | false => simp [he]
    | true => simp [he,hg,Registry.finishSync,settle_eq]

/-- No synchronization raises. -/
theorem syncOne_returns (reg : Registry) (serverId : String)
    (answer : Except String (List RawTool)) :
    ∃ healthy, (syncOne reg serverId answer).2=.ok healthy := by
  unfold syncOne
  split
  · exact ⟨_,rfl⟩
  · split <;> exact ⟨_,rfl⟩

/-- No registration raises. -/
theorem register_returns (reg : Registry) (server : UpstreamServer) (sync : Bool)
    (answer : Except String (List RawTool)) :
    ∃ entry, (register reg server sync answer).2=.ok entry := by
  unfold register
  split
  · obtain ⟨healthy,hr⟩ := syncOne_returns (reg.register server) server.id answer
    dsimp only
    rw [hr]
    exact ⟨_,rfl⟩
  · exact ⟨_,rfl⟩

section Gauges

/-- The tools of an entry that its gauge counts. -/
def countedTools (entry : RegistryEntry) : ℕ :=
  if entry.server.enabled=true then entry.tools.length else 0

/-- Total number of tools of enabled entries. -/
def enabledTools (entries : Dict String RegistryEntry) : ℕ := (entries.values.map countedTools).sum

/-- Both gauges show what the registry holds. -/
structure GaugesTrue (reg : Registry) : Prop where
  /-- `REGISTERED_SERVERS`. -/
  servers : reg.registeredServers=reg.entries.size
  /-- `REGISTERED_TOOLS`. -/
  tools : reg.registeredTools=enabledTools reg.entries

/-- An operation that does not recompute the tool gauge leaves the tools of
enabled servers alone: a registration that does not synchronize replaces no
enabled entry with tools, and a change of the enabled flag finds no tools. -/
def Refreshes (reg : Registry) : RegistryOperation→Prop
  | .register server sync _ => (sync=true ∧ server.enabled=true) ∨
      ∀ entry, reg.entries.get? server.id=some entry→entry.server.enabled=true→entry.tools=[]
  | .setEnabled serverId enabled => ∀ entry, reg.entries.get? serverId=some entry→
      entry.server.enabled≠enabled→entry.tools=[]
  | _ => True

/-- Recomputing sets the gauge to the total. -/
theorem recomputeToolCount_tools (reg : Registry) :
    reg.recomputeToolCount.registeredTools=enabledTools reg.entries := by
  unfold Registry.recomputeToolCount enabledTools
  dsimp only
  induction reg.entries.values with
  | nil => rfl
  | cons entry rest ih =>
    cases he : entry.server.enabled with
    | true => simp only [List.filter_cons,he,if_true,List.map_cons,List.sum_cons,countedTools,ih]
    | false =>
      simp only [List.filter_cons,he,Bool.false_eq_true,if_false,List.map_cons,List.sum_cons,
        countedTools,Nat.zero_add,ih]

/-- A recomputed tool gauge is true, and so is a gauge of servers of which the
registry has as many as before. -/
theorem gaugesTrue_recompute {reg : Registry} (h : reg.registeredServers=reg.entries.size) :
    GaugesTrue reg.recomputeToolCount := ⟨h,recomputeToolCount_tools reg⟩

/-- Replacing a stored entry keeps the number of entries. -/
theorem size_set_found {entries : Dict String RegistryEntry} {sid : String}
    {entry : RegistryEntry} (h : entries.get? sid=some entry) (entry' : RegistryEntry) :
    (entries.set sid entry').size=entries.size := by
  have hkeys := Dict.put_keys entries.items sid entry'
  have hmem : sid∈entries.items.map Prod.fst :=
    List.mem_map_of_mem (Dict.mem_items_iff.mpr h)
  rw [if_pos hmem] at hkeys
  have hlength := congrArg List.length hkeys
  rw [List.length_map,List.length_map] at hlength
  exact hlength

/-- The total does not notice an exchanged entry exactly when both count
alike. -/
theorem enabledTools_set_iff (entries : Dict String RegistryEntry) (sid : String)
    (entry : RegistryEntry) :
    enabledTools (entries.set sid entry)=enabledTools entries ↔
      countedTools entry=(entries.get? sid).elim 0 countedTools := by
  have hsum := Dict.sum_set countedTools entries sid entry
  unfold enabledTools
  constructor
  · intro h
    omega
  · intro h
    omega

/-- An entry counts nothing exactly when it is disabled or has no tools. -/
theorem countedTools_eq_zero {entry : RegistryEntry} :
    countedTools entry=0 ↔ (entry.server.enabled=true→entry.tools=[]) := by
  unfold countedTools
  split
  · rename_i he
    rw [List.length_eq_zero_iff]
    exact ⟨fun h _ => h,fun h => h he⟩
  · rename_i he
    exact ⟨fun _ h => absurd h he,fun _ => rfl⟩

/-- A synchronization leaves both gauges true. -/
theorem gaugesTrue_syncOne {reg : Registry} (h : GaugesTrue reg) (serverId : String)
    (answer : Except String (List RawTool)) : GaugesTrue (syncOne reg serverId answer).1 := by
  unfold syncOne
  cases hg : reg.entries.get? serverId with
  | none => exact h
  | some entry =>
    dsimp only
    split
    · exact h
    · exact gaugesTrue_recompute (h.servers.trans (size_set_found hg _).symm)

/-- A registration without its synchronization replaces the gauge of servers. -/
theorem gaugesTrue_register_iff {reg : Registry} (h : GaugesTrue reg) (server : UpstreamServer) :
    GaugesTrue (reg.register server) ↔ ∀ entry, reg.entries.get? server.id=some entry→
      entry.server.enabled=true→entry.tools=[] := by
  have hset := enabledTools_set_iff reg.entries server.id
    {server := server,client := ⟨reg.nextUid,server⟩}
  have hcounted : countedTools {server := server,client := ⟨reg.nextUid,server⟩}=0 :=
    countedTools_eq_zero.mpr fun _ => rfl
  have hgauge : GaugesTrue (reg.register server) ↔
      (reg.entries.get? server.id).elim 0 countedTools=0 := by
    rw [hcounted] at hset
    constructor
    · intro hr
      have htools : reg.registeredTools=enabledTools (reg.register server).entries := hr.tools
      rw [h.tools] at htools
      exact (hset.mp htools.symm).symm
    · intro he
      refine ⟨rfl,?_⟩
      have htools : reg.registeredTools=enabledTools (reg.register server).entries := by
        rw [h.tools]
        exact (hset.mpr he.symm).symm
      exact htools
  rw [hgauge]
  cases hg : reg.entries.get? server.id with
  | none => exact ⟨fun _ _ he => (by cases he),fun _ => rfl⟩
  | some entry =>
    rw [Option.elim_some,countedTools_eq_zero]
    constructor
    · intro he e hfound
      cases hfound
      exact he
    · exact fun he => he entry rfl

/-- A registration that synchronizes leaves both gauges true. -/
theorem gaugesTrue_register_sync {reg : Registry} {server : UpstreamServer}
    (he : server.enabled=true) (answer : Except String (List RawTool)) :
    GaugesTrue (syncOne (reg.register server) server.id answer).1 := by
  have hg : (reg.register server).entries.get? server.id=
      some {server := server,client := ⟨reg.nextUid,server⟩} := Dict.get?_set_self _ _ _
  have hservers : (reg.register server).registeredServers=(reg.register server).entries.size := rfl
  unfold syncOne
  rw [hg]
  dsimp only
  rw [if_neg (by rw [he]; exact Bool.noConfusion)]
  exact gaugesTrue_recompute (hservers.trans (size_set_found hg _).symm)

/-- A removal leaves both gauges true. -/
theorem gaugesTrue_deregister {reg : Registry} (h : GaugesTrue reg) (serverId : String) :
    GaugesTrue (reg.deregister serverId) := by
  unfold Registry.deregister
  dsimp only
  split
  · exact gaugesTrue_recompute rfl
  · rename_i hc
    have hnone : reg.entries.get? serverId=none := by
      rw [Dict.contains,Option.isSome_iff_ne_none,not_not] at hc
      exact hc
    refine ⟨rfl,?_⟩
    dsimp only
    rw [Dict.pop_absent hnone]
    exact h.tools

/-- Exchanging an entry under true gauges keeps them true exactly when both
entries count alike. -/
theorem gaugesTrue_set_iff {reg : Registry} (h : GaugesTrue reg) {sid : String}
    {entry : RegistryEntry} (hg : reg.entries.get? sid=some entry) (entry' : RegistryEntry) :
    GaugesTrue {reg with entries := reg.entries.set sid entry'} ↔
      countedTools entry'=countedTools entry := by
  have hset := enabledTools_set_iff reg.entries sid entry'
  rw [hg,Option.elim_some] at hset
  rw [←hset]
  constructor
  · exact fun hr => hr.tools.symm.trans h.tools
  · exact fun he => ⟨h.servers.trans (size_set_found hg _).symm,h.tools.trans he.symm⟩

/-- A change of the enabled flag leaves the gauge of tools alone. -/
theorem gaugesTrue_setEnabled_iff {reg : Registry} (h : GaugesTrue reg) (serverId : String)
    (enabled : Bool) : GaugesTrue (reg.setEnabled serverId enabled) ↔
      ∀ entry, reg.entries.get? serverId=some entry→entry.server.enabled≠enabled→
        entry.tools=[] := by
  unfold Registry.setEnabled Dict.modify
  cases hg : reg.entries.get? serverId with
  | none => exact ⟨fun _ _ he => (by cases he),fun _ => h⟩
  | some entry =>
    refine (gaugesTrue_set_iff h hg _).trans ?_
    have hcounted : countedTools {entry with server := {entry.server with enabled := enabled}}=
        countedTools entry ↔ (entry.server.enabled≠enabled→entry.tools=[]) := by
      unfold countedTools
      rw [←List.length_eq_zero_iff]
      cases entry.server.enabled <;> cases enabled <;> simp [eq_comm]
    refine hcounted.trans ⟨fun hk e he => ?_,fun hk => hk entry rfl⟩
    cases he
    exact hk

/-- One operation keeps the gauges true exactly when it refreshes them as it
has to. -/
theorem gaugesTrue_operate_iff {reg : Registry} (h : GaugesTrue reg) (op : RegistryOperation) :
    GaugesTrue (operate reg op) ↔ Refreshes reg op := by
  cases op with
  | register server sync answer =>
    unfold operate register Refreshes
    dsimp only
    split
    · rename_i hs
      exact ⟨fun _ => .inl hs,fun _ => gaugesTrue_register_sync hs.2 answer⟩
    · rename_i hs
      rw [gaugesTrue_register_iff h]
      exact ⟨.inr,fun hr => hr.resolve_left hs⟩
  | deregister serverId => exact ⟨fun _ => trivial,fun _ => gaugesTrue_deregister h serverId⟩
  | setEnabled serverId enabled => exact gaugesTrue_setEnabled_iff h serverId enabled
  | syncOne serverId answer =>
    exact ⟨fun _ => trivial,fun _ => gaugesTrue_syncOne h serverId answer⟩
  | syncAll answers =>
    refine ⟨fun _ => trivial,fun _ => ?_⟩
    have hfold : operate reg (.syncAll answers)=
        final (fun reg answered => (syncOne reg answered.1 answered.2).1) reg answers := rfl
    rw [hfold]
    exact final_invariant (I:=GaugesTrue)
      (fun reg answered hr => gaugesTrue_syncOne hr answered.1 answered.2) h answers

/-- The gauges of the empty registry are true. -/
theorem gaugesTrue_start (naming : NamingConfig) (policy : CircuitBreakerPolicy) :
    GaugesTrue (start naming policy).registry := ⟨rfl,rfl⟩

/-- After every operation of a run both gauges are true exactly when every
operation refreshes them as it has to. -/
theorem gaugesTrue_iff (naming : NamingConfig) (policy : CircuitBreakerPolicy)
    (ops : List RegistryOperation) :
    Always operate GaugesTrue (start naming policy).registry ops ↔
      Meets operate Refreshes (start naming policy).registry ops :=
  always_iff_meets (I:=fun _ => True) (P:=GaugesTrue) (fun _ _ _ => trivial)
    (fun _ op _ h => gaugesTrue_operate_iff h op) trivial (gaugesTrue_start naming policy) ops

/-- A server with one tool is disabled. -/
theorem gauge_not_refreshed :
    ¬Always operate GaugesTrue (start {} {}).registry
      [.register (plainServer "a") true (.ok [{name := "t"}]),.setEnabled "a" false] := by
  intro h
  have htools := h.final.tools
  exact absurd htools (by decide)

end Gauges

end McpGateway.RegistryOperations
