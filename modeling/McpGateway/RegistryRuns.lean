import Mathlib
import McpGateway.PyDict
import McpGateway.StepRun
import McpGateway.GatewaySettings
import McpGateway.CircuitBreakers
import McpGateway.ToolNaming
import McpGateway.ServerRegistry

/-!
# Interleaved registry operations

Registrations, removals, settings changes and the two halves of every
synchronization form one step machine; a schedule interleaves any number of
synchronizations with everything else, and each may answer with any manifest
or fail. Under the refusing policies every reachable registry routes soundly.
Under the renaming policy a run does so exactly when no renamed tool meets a
taken name.
-/

namespace McpGateway.RegistryRuns

open PyDict StepRun GatewaySettings CircuitBreakers ToolNaming ServerRegistry

/-- One registry operation. -/
inductive RegistryAction where
  /-- A registration, without its synchronization. -/
  | register (server : UpstreamServer)
  /-- A removal. -/
  | deregister (serverId : String)
  /-- Enabling or disabling. -/
  | setEnabled (serverId : String) (enabled : Bool)
  /-- An in-place settings update. -/
  | updateServer (server : UpstreamServer)
  /-- The first half of a synchronization. -/
  | syncStart (serverId : String)
  /-- The second half of a synchronization in flight. -/
  | syncFinish (index : ℕ) (answer : Except String (List RawTool))

/-- The registry with the synchronizations in flight: the id each was asked
for and the identity of the entry it captured. -/
structure RegistryRun where
  /-- Current registry. -/
  registry : Registry
  /-- Captured entries whose upstream has not answered yet. -/
  syncs : List (String×ℕ) := []

/-- The empty registry of a process with these settings. -/
def start (naming : NamingConfig) (policy : CircuitBreakerPolicy) : RegistryRun :=
  ⟨{naming := naming,cbRegistry := {policy := policy}},[]⟩

/-- One operation. A synchronization of an absent or disabled server ends at
once, and finishing an index that is not in flight is no operation. -/
def step (s : RegistryRun) : RegistryAction→RegistryRun
  | .register server => {s with registry := s.registry.register server}
  | .deregister serverId => {s with registry := s.registry.deregister serverId}
  | .setEnabled serverId enabled => {s with registry := s.registry.setEnabled serverId enabled}
  | .updateServer server => {s with registry := s.registry.updateServer server}
  | .syncStart serverId =>
    match s.registry.startSync serverId with
    | some uid => {s with syncs := s.syncs++[(serverId,uid)]}
    | none => s
  | .syncFinish index answer =>
    match s.syncs[index]? with
    | some (serverId,uid) =>
      ⟨s.registry.finishSync serverId uid answer,s.syncs.eraseIdx index⟩
    | none => s

/-- Recomputing the tool gauge touches no entry. -/
@[simp] theorem recomputeToolCount_entries (reg : Registry) :
    reg.recomputeToolCount.entries=reg.entries := rfl

/-- Naming settings never change after construction. -/
theorem step_naming (s : RegistryRun) (a : RegistryAction) :
    (step s a).registry.naming=s.registry.naming := by
  cases a with
  | register server => rfl
  | deregister serverId => exact (deregister_frame s.registry serverId).2.2.2
  | setEnabled serverId enabled => rfl
  | updateServer server => rfl
  | syncStart serverId =>
    simp only [step]
    split <;> rfl
  | syncFinish index answer =>
    simp only [step]
    split
    · exact (finishSync_frame s.registry _ _ answer).2.2
    · rfl

/-- A synchronization changes neither settings nor client of its entry. -/
theorem syncEntry_frame (naming : NamingConfig) (entries : Dict String RegistryEntry)
    (entry : RegistryEntry) (answer : Except String (List RawTool)) :
    (Registry.syncEntry naming entries entry answer).server=entry.server ∧
      (Registry.syncEntry naming entries entry answer).client=entry.client := by
  unfold Registry.syncEntry
  cases answer with
  | error text => exact ⟨rfl,rfl⟩
  | ok rawTools =>
    dsimp only
    split <;> exact ⟨rfl,rfl⟩

/-- Where an entry comes from after an operation. -/
inductive EntryOrigin (s : RegistryRun) (a : RegistryAction) (sid : String)
    (entry : RegistryEntry) : Prop where
  /-- It was registered. -/
  | registered (server : UpstreamServer) (action : a=.register server) (named : server.id=sid)
    (made : entry={server := server,client := ⟨s.registry.nextUid,server⟩})
  /-- It was there, with these or with other settings. -/
  | settings (old : RegistryEntry) (found : s.registry.entries.get? sid=some old)
    (server : UpstreamServer) (named : server.id=sid ∨ server.id=old.server.id)
    (made : entry={old with server := server})
  /-- It was synchronized. -/
  | synced (old : RegistryEntry) (found : s.registry.entries.get? sid=some old) (index : ℕ)
    (answer : Except String (List RawTool)) (action : a=.syncFinish index answer)
    (captured : s.syncs[index]?=some (sid,old.client.uid))
    (made : entry=Registry.syncEntry s.registry.naming s.registry.entries old answer)

/-- An entry that an operation does not touch. -/
theorem EntryOrigin.same {s : RegistryRun} {a : RegistryAction} {sid : String}
    {entry : RegistryEntry} (h : s.registry.entries.get? sid=some entry) :
    EntryOrigin s a sid entry := .settings entry h entry.server (.inr rfl) rfl

/-- New settings of one server. -/
theorem origin_modify {s : RegistryRun} {a : RegistryAction} {serverId sid : String}
    {f : RegistryEntry→UpstreamServer} (hf : ∀ old, (f old).id=serverId ∨ (f old).id=old.server.id)
    {entry : RegistryEntry} (hg : (s.registry.entries.modify serverId
      (fun old => {old with server := f old})).get? sid=some entry) : EntryOrigin s a sid entry := by
  rw [Dict.get?_modify] at hg
  split at hg
  · rename_i hsame
    obtain ⟨old,hold,hmade⟩ := Option.map_eq_some_iff.mp hg
    exact .settings old (hsame ▸ hold) (f old) (hsame ▸ hf old) hmade.symm
  · exact .same hg

/-- Every entry after an operation was registered by it, was there before, or
was synchronized. -/
theorem step_origin {s : RegistryRun} {a : RegistryAction} {sid : String} {entry : RegistryEntry}
    (hg : (step s a).registry.entries.get? sid=some entry) : EntryOrigin s a sid entry := by
  cases a with
  | register server =>
    simp only [step,Registry.register] at hg
    rw [Dict.get?_set] at hg
    split at hg
    · rename_i hsame
      exact .registered server rfl hsame (Option.some.inj hg).symm
    · exact .same hg
  | deregister serverId =>
    simp only [step] at hg
    rw [(deregister_frame s.registry serverId).1,Dict.get?_pop] at hg
    split at hg
    · cases hg
    · exact .same hg
  | setEnabled serverId enabled =>
    exact origin_modify (f:=fun old => {old.server with enabled := enabled}) (fun _ => .inr rfl) hg
  | updateServer server => exact origin_modify (f:=fun _ => server) (fun _ => .inl rfl) hg
  | syncStart serverId =>
    refine .same ?_
    rw [←hg]
    simp only [step]
    split <;> rfl
  | syncFinish index answer =>
    simp only [step] at hg
    cases hs : s.syncs[index]? with
    | none =>
      rw [hs] at hg
      exact .same hg
    | some captured =>
      obtain ⟨serverId,uid⟩ := captured
      rw [hs] at hg
      dsimp only at hg
      rcases finishSync_cases s.registry serverId uid answer with
        ⟨old,hold,rfl,hentries⟩ | ⟨-,hentries⟩
      · rw [hentries,Dict.get?_set] at hg
        split at hg
        · rename_i hsame
          subst hsame
          exact .synced old hold index answer rfl hs (Option.some.inj hg).symm
        · exact .same hg
      · rw [hentries] at hg
        exact .same hg

/-- Identities are not given back. -/
theorem step_nextUid (s : RegistryRun) (a : RegistryAction) :
    s.registry.nextUid≤(step s a).registry.nextUid := by
  cases a with
  | register server => exact Nat.le_succ _
  | deregister serverId => exact (deregister_frame s.registry serverId).2.1.ge
  | setEnabled serverId enabled => exact le_rfl
  | updateServer server => exact le_rfl
  | syncStart serverId =>
    simp only [step]
    split <;> exact le_rfl
  | syncFinish index answer =>
    simp only [step]
    split
    · exact (finishSync_frame s.registry _ _ answer).1.ge
    · exact le_rfl

/-- Every operation keeps entries under their ids. -/
theorem keyed_step (s : RegistryRun) (a : RegistryAction) (h : Keyed s.registry) :
    Keyed (step s a).registry := by
  intro sid entry hg
  have hnext := step_nextUid s a
  cases step_origin hg with
  | registered server action named made =>
    subst action made
    exact ⟨named,named,Nat.lt_succ_self _⟩
  | settings old found server named made =>
    subst made
    obtain ⟨hid,hclient,hlt⟩ := h sid old found
    exact ⟨named.elim id (fun he => he.trans hid),hclient,hlt.trans_le hnext⟩
  | synced old found index answer action captured made =>
    obtain ⟨hid,hclient,hlt⟩ := h sid old found
    obtain ⟨hserver,hkept⟩ := syncEntry_frame s.registry.naming s.registry.entries old answer
    rw [made,hserver,hkept]
    exact ⟨hid,hclient,hlt.trans_le hnext⟩

/-- The empty registry is keyed. -/
theorem keyed_start (naming : NamingConfig) (policy : CircuitBreakerPolicy) :
    Keyed (start naming policy).registry := fun _ _ h => by cases h

/-- Every reachable registry is keyed. -/
theorem keyed_final (naming : NamingConfig) (policy : CircuitBreakerPolicy)
    (actions : List RegistryAction) :
    Keyed (final step (start naming policy) actions).registry :=
  final_invariant (I:=fun s : RegistryRun => Keyed s.registry) keyed_step
    (keyed_start naming policy) actions

/-- The operation assigns only new names, should it complete a synchronization. -/
def FreshAt (s : RegistryRun) (a : RegistryAction) : Prop :=
  ∀ index answer serverId uid, a=.syncFinish index answer→s.syncs[index]?=some (serverId,uid)→
    SyncFresh s.registry serverId uid answer

/-- Should the operation complete a synchronization, no tool that it renames
meets a name taken by another server or by an earlier tool of the manifest. -/
def RenamesFreeAt (s : RegistryRun) (a : RegistryAction) : Prop :=
  ∀ index rawTools serverId uid entry, a=.syncFinish index (.ok rawTools)→
    s.syncs[index]?=some (serverId,uid)→s.registry.entries.get? serverId=some entry→
    entry.client.uid=uid→
      RenamesFree entry.server.id (claimedByOthers s.registry.entries entry.server.id).keys
        (rawTools.map (fun raw =>
          baseName s.registry.naming.strategy s.registry.entries entry.server raw.name))

/-- One operation keeps names unique exactly when it assigns only new names. -/
theorem uniqueNames_step {s : RegistryRun} (hk : Keyed s.registry)
    (h : UniqueNames s.registry.entries) (a : RegistryAction) :
    UniqueNames (step s a).registry.entries ↔ FreshAt s a := by
  cases a with
  | register server =>
    exact ⟨fun _ _ _ _ _ ha => (by cases ha),fun _ => uniqueNames_register h server⟩
  | deregister serverId =>
    exact ⟨fun _ _ _ _ _ ha => (by cases ha),fun _ => uniqueNames_deregister h serverId⟩
  | setEnabled serverId enabled =>
    exact ⟨fun _ _ _ _ _ ha => (by cases ha),
      fun _ => uniqueNames_modify h serverId _ (fun _ => rfl)⟩
  | updateServer server =>
    exact ⟨fun _ _ _ _ _ ha => (by cases ha),
      fun _ => uniqueNames_modify h server.id _ (fun _ => rfl)⟩
  | syncStart serverId =>
    refine ⟨fun _ _ _ _ _ ha => (by cases ha),fun _ => ?_⟩
    simp only [step]
    split <;> exact h
  | syncFinish index answer =>
    simp only [step]
    cases hs : s.syncs[index]? with
    | none =>
      refine ⟨fun _ i _ _ _ ha hi => ?_,fun _ => h⟩
      cases ha
      rw [hs] at hi
      cases hi
    | some captured =>
      obtain ⟨serverId,uid⟩ := captured
      dsimp only
      rw [uniqueNames_finishSync hk h]
      constructor
      · intro hf i ans sid u ha hi
        cases ha
        rw [hs] at hi
        cases hi
        exact hf
      · intro hf
        exact hf index answer serverId uid rfl hs

/-- Under a refusing policy every operation assigns only new names. -/
theorem freshAt_of_refusing {s : RegistryRun} (hc : s.registry.naming.onConflict≠.suffix)
    (a : RegistryAction) : FreshAt s a :=
  fun _ _ _ _ _ _ _ _ _ _ _ => freshClaims_of_refusing hc _ _ _ _

/-- Under the renaming policy new names are free renamed forms. -/
theorem freshAt_iff_renamesFreeAt {s : RegistryRun}
    (hc : s.registry.naming.onConflict=.suffix) (a : RegistryAction) :
    FreshAt s a ↔ RenamesFreeAt s a := by
  constructor
  · intro h index rawTools serverId uid entry ha hs hg hu
    exact (freshClaims_iff_renamesFree hc _ _ _ _).mp
      (h index (.ok rawTools) serverId uid ha hs entry rawTools hg hu rfl)
  · intro h index answer serverId uid ha hs entry rawTools hg hu hans
    subst hans
    exact (freshClaims_iff_renamesFree hc _ _ _ _).mpr
      (h index rawTools serverId uid entry ha hs hg hu)

/-- The empty registry has no names at all. -/
theorem uniqueNames_start (naming : NamingConfig) (policy : CircuitBreakerPolicy) :
    UniqueNames (start naming policy).registry.entries := List.nodup_nil

/-- Under `warn` and `error` every reachable registry has unique names, and
every tool with an advertised name is the one that name resolves to. -/
theorem routingSound_refusing (naming : NamingConfig) (policy : CircuitBreakerPolicy)
    (hc : naming.onConflict≠.suffix) (actions : List RegistryAction) :
    RoutingSound (final step (start naming policy) actions).registry := by
  let I : RegistryRun→Prop := fun s =>
    s.registry.naming=naming ∧ Keyed s.registry ∧ UniqueNames s.registry.entries
  have hstep : ∀ s a, I s→I (step s a) := by
    intro s a hi
    obtain ⟨hn,hk,hu⟩ := hi
    have hf : FreshAt s a := freshAt_of_refusing (by rw [hn]; exact hc) a
    exact ⟨(step_naming s a).trans hn,keyed_step s a hk,(uniqueNames_step hk hu a).mpr hf⟩
  have hstart : I (start naming policy) :=
    ⟨rfl,keyed_start naming policy,uniqueNames_start naming policy⟩
  exact (routingSound_iff _).mpr (final_invariant hstep hstart actions).2.2

/-- A server with a given id and no further settings. -/
def plainServer (id : String) : UpstreamServer := {id := id}

theorem routingSound_refusing_default :
    ({} : NamingConfig).onConflict≠.suffix ∧
      RoutingSound (final step (start {} {}) [.register (plainServer "a"),.syncStart "a",
        .syncFinish 0 (.ok [{name := "t"},{name := "t"}])]).registry :=
  ⟨by decide,routingSound_refusing {} {} (by decide) _⟩

/-- Under `suffix` a run routes soundly throughout exactly when no completed
synchronization renames a tool to a taken name. -/
theorem routingSound_suffix_iff (naming : NamingConfig) (policy : CircuitBreakerPolicy)
    (hc : naming.onConflict=.suffix) (actions : List RegistryAction) :
    Always step (fun s => RoutingSound s.registry) (start naming policy) actions ↔
      Meets step RenamesFreeAt (start naming policy) actions := by
  refine always_iff_meets (I:=fun s : RegistryRun => s.registry.naming=naming ∧ Keyed s.registry)
    (fun s a h => ⟨(step_naming s a).trans h.1,keyed_step s a h.2⟩) ?_
    ⟨rfl,keyed_start naming policy⟩
    ((routingSound_iff _).mpr (uniqueNames_start naming policy)) actions
  intro s a hi hp
  rw [routingSound_iff,uniqueNames_step hi.2 ((routingSound_iff _).mp hp) a]
  exact freshAt_iff_renamesFreeAt (by rw [hi.1,hc]) a

/-- Bare names renamed on collision. -/
def bareSuffix : NamingConfig := {strategy := .bare,onConflict := .suffix}

/-- Two servers synchronized one after the other. -/
def twoSyncs (first second : List RawTool) : List RegistryAction :=
  [.register (plainServer "a"),.register (plainServer "b"),.syncStart "a",
    .syncFinish 0 (.ok first),.syncStart "b",.syncFinish 0 (.ok second)]

theorem routingSound_suffix_renamed :
    bareSuffix.onConflict=.suffix ∧
      (Always step (fun s => RoutingSound s.registry) (start bareSuffix {})
        (twoSyncs [{name := "t"}] [{name := "t"}]) ↔
      Meets step RenamesFreeAt (start bareSuffix {}) (twoSyncs [{name := "t"}] [{name := "t"}])) :=
  ⟨rfl,routingSound_suffix_iff bareSuffix {} rfl _⟩

/-- A renamed tool can take a name that another tool already has. -/
theorem routingSound_suffix_taken :
    ¬RoutingSound (final step (start bareSuffix {})
      (twoSyncs [{name := "t"},{name := "t_b"}] [{name := "t"}])).registry := by
  rw [routingSound_iff]
  unfold UniqueNames
  decide

end McpGateway.RegistryRuns
