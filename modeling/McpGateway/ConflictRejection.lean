import Mathlib
import McpGateway.PyDict
import McpGateway.StepRun
import McpGateway.GatewaySettings
import McpGateway.CircuitBreakers
import McpGateway.ToolNaming
import McpGateway.ServerRegistry
import McpGateway.RegistryRuns
import McpGateway.RegistryOperations

/-!
# Rejection of a conflicting registration

Under the `error` policy a conflicting manifest is rejected as a whole, but
its exception ends in the handler of the synchronization. The registration
returns, and the server stays registered without tools: its tools are still
found by its prefix.
-/

namespace McpGateway.ConflictRejection

open PyDict StepRun GatewaySettings CircuitBreakers ToolNaming ServerRegistry RegistryRuns
open RegistryOperations

/-- Some tool of the manifest would claim a name that another server has. -/
def ClaimsOwned (reg : Registry) (server : UpstreamServer) (rawTools : List RawTool) : Prop :=
  ∃ raw∈rawTools, ∃ sid entry, sid≠server.id ∧ reg.entries.get? sid=some entry ∧
    baseName reg.naming.strategy reg.entries server raw.name∈advertisedNames entry.tools

/-- The registration of a server raises and changes nothing. -/
structure RejectedAtomically (reg : Registry) (sid : String)
    (outcome : Registry×Except SyncException RegistryEntry) : Prop where
  /-- The caller sees an exception. -/
  raised : ∃ e, outcome.2=.error e
  /-- Entries and their tools are as before. -/
  unchanged : outcome.1.entries=reg.entries
  /-- No tool of the server can be resolved. -/
  unresolved : ∀ q entry raw, outcome.1.findByQualifiedTool q=some (entry,raw)→
    entry.server.id≠sid

/-- Under `error` a taken name rejects the whole manifest. -/
theorem nameTools_rejected {naming : NamingConfig} (hc : naming.onConflict=.error)
    {entries : Dict String RegistryEntry} {server : UpstreamServer}
    {existing : Dict String String} {raws : List RawTool} {raw : RawTool} (hr : raw∈raws)
    (ht : existing.contains (baseName naming.strategy entries server raw.name)=true) :
    ∃ conflict, nameTools naming entries server existing raws=.error conflict := by
  induction raws generalizing existing with
  | nil => exact absurd hr List.not_mem_nil
  | cons first rest ih =>
    unfold nameTools claimName
    rw [hc]
    cases hg : existing.get? (baseName naming.strategy entries server first.name) with
    | some owner => exact ⟨_,rfl⟩
    | none =>
      have hrest : raw∈rest := by
        rcases List.mem_cons.mp hr with rfl | hrest
        · rw [Dict.contains,hg] at ht
          cases ht
        · exact hrest
      have hlater : (existing.set (baseName naming.strategy entries server first.name)
          server.id).contains (baseName naming.strategy entries server raw.name)=true :=
        (Dict.contains_set _ _ _ _).mpr (.inr ht)
      obtain ⟨conflict,hconflict⟩ := ih hrest hlater
      dsimp only
      rw [hconflict]
      exact ⟨conflict,rfl⟩

/-- A new entry without tools changes no name that the strategy chooses. -/
theorem baseName_registered {reg : Registry} {server : UpstreamServer} (strategy : NamingStrategy)
    (bare : String) : baseName strategy (reg.register server).entries server bare=
      baseName strategy reg.entries server bare := by
  have hcollides : collides (reg.register server).entries server.id bare=
      collides reg.entries server.id bare := by
    rw [Bool.eq_iff_iff]
    simp only [collides,List.any_eq_true,Bool.and_eq_true,decide_eq_true_eq]
    constructor
    · rintro ⟨⟨sid,entry⟩,hm,hne,ht⟩
      have hg := Dict.mem_items_iff.mp hm
      rw [Registry.register,Dict.get?_set_other _ (Ne.symm hne)] at hg
      exact ⟨(sid,entry),Dict.mem_items_iff.mpr hg,hne,ht⟩
    · rintro ⟨⟨sid,entry⟩,hm,hne,ht⟩
      have hg := Dict.mem_items_iff.mp hm
      refine ⟨(sid,entry),Dict.mem_items_iff.mpr ?_,hne,ht⟩
      rw [Registry.register,Dict.get?_set_other _ (Ne.symm hne)]
      exact hg
  unfold baseName
  rw [hcollides]

/-- A manifest with a taken name is rejected when its new server is
registered. -/
theorem build_rejected {reg : Registry} (hc : reg.naming.onConflict=.error)
    {server : UpstreamServer} {rawTools : List RawTool} (h : ClaimsOwned reg server rawTools) :
    ∃ conflict, buildToolDefinitions reg.naming (reg.register server).entries server rawTools=
      .error conflict := by
  obtain ⟨raw,hr,sid,entry,hne,hg,hq⟩ := h
  refine nameTools_rejected hc hr ?_
  rw [baseName_registered,claimedByOthers_contains]
  refine ⟨sid,entry,?_,hne,hq⟩
  rw [Registry.register,Dict.get?_set_other _ (Ne.symm hne)]
  exact hg

/-- In every registry under the `error` policy, the registration of a server
whose manifest claims a name of another server is not rejected: it returns the
entry it has stored, which has no tools and is not healthy. -/
theorem conflict_registers (reg : Registry) (hc : reg.naming.onConflict=.error)
    (server : UpstreamServer) (hnew : reg.entries.get? server.id=none) (rawTools : List RawTool)
    (h : ClaimsOwned reg server rawTools) :
    ¬RejectedAtomically reg server.id (register reg server true (.ok rawTools)) ∧
    ∃ entry, (register reg server true (.ok rawTools)).2=.ok entry ∧
      (register reg server true (.ok rawTools)).1.entries.get? server.id=some entry ∧
      (register reg server true (.ok rawTools)).1.entries≠reg.entries ∧
      entry.server=server ∧ entry.tools=[] ∧ entry.healthy=false := by
  obtain ⟨conflict,hconflict⟩ := build_rejected hc h
  have hg : (reg.register server).entries.get? server.id=
      some {server := server,client := ⟨reg.nextUid,server⟩} := Dict.get?_set_self _ _ _
  have hstored : ∃ entry, (register reg server true (.ok rawTools)).2=.ok entry ∧
      (register reg server true (.ok rawTools)).1.entries.get? server.id=some entry ∧
      entry.server=server ∧ entry.tools=[] ∧ entry.healthy=false := by
    unfold register
    dsimp only
    split
    · rename_i hs
      have hsettled : nameAnswer (reg.register server)
          {server := server,client := ⟨reg.nextUid,server⟩} (.ok rawTools)=
          .error (.conflict conflict) := by
        have hnaming : (reg.register server).naming=reg.naming := rfl
        rw [nameAnswer,hnaming,hconflict]
        rfl
      unfold syncOne
      rw [hg]
      dsimp only
      rw [if_neg (by rw [hs.2]; exact Bool.noConfusion),hsettled,recomputeToolCount_entries,
        Dict.get?_set_self]
      exact ⟨_,rfl,rfl,rfl,rfl,rfl⟩
    · exact ⟨_,rfl,hg,rfl,rfl,rfl⟩
  obtain ⟨entry,hreturned,hget,hserver,htools,hhealthy⟩ := hstored
  refine ⟨fun hrejected => ?_,entry,hreturned,hget,?_,hserver,htools,hhealthy⟩
  · obtain ⟨e,he⟩ := hrejected.raised
    rw [hreturned] at he
    cases he
  · intro hsame
    rw [hsame,hnew] at hget
    cases hget

/-- Bare names with conflicts refused. -/
def bareError : NamingConfig := {strategy := .bare,onConflict := .error}

/-- A registry in which `a` has the name of a tool. -/
def ownedName : Registry :=
  operate (start bareError {}).registry (.register (plainServer "a") true (.ok [{name := "t"}]))

/-- The manifest of `b` claims that name. -/
theorem claims_ownedName : ClaimsOwned ownedName (plainServer "b") [{name := "t"}] := by
  refine ⟨_,List.mem_singleton_self _,"a",_,by decide,rfl,?_⟩
  decide

theorem conflict_registers_ownedName :
    ¬RejectedAtomically ownedName "b" (register ownedName (plainServer "b") true
      (.ok [{name := "t"}])) ∧
    ∃ entry, (register ownedName (plainServer "b") true (.ok [{name := "t"}])).2=.ok entry ∧
      (register ownedName (plainServer "b") true (.ok [{name := "t"}])).1.entries.get? "b"=
        some entry ∧
      (register ownedName (plainServer "b") true (.ok [{name := "t"}])).1.entries≠
        ownedName.entries ∧
      entry.server=plainServer "b" ∧ entry.tools=[] ∧ entry.healthy=false :=
  conflict_registers ownedName rfl (plainServer "b") rfl [{name := "t"}] claims_ownedName

/-- The refused server is registered, and its prefix leads to its tool. -/
theorem refused_server_found :
    ClaimsOwned ownedName (plainServer "b") [{name := "t"}] ∧
    ¬RejectedAtomically ownedName "b"
      (register ownedName (plainServer "b") true (.ok [{name := "t"}])) ∧
    ((register ownedName (plainServer "b") true (.ok [{name := "t"}])).1.findByQualifiedTool
      "b.t").map (fun found => (found.1.server.id,found.2))=some ("b","t") := by
  refine ⟨claims_ownedName,fun h => ?_,by decide⟩
  obtain ⟨e,he⟩ := h.raised
  obtain ⟨entry,hentry⟩ := register_returns ownedName (plainServer "b") true
    (.ok [{name := "t"}])
  rw [hentry] at he
  cases he

end McpGateway.ConflictRejection
