import Mathlib
import McpGateway.PyDict
import McpGateway.StepRun
import McpGateway.GatewaySettings
import McpGateway.CircuitBreakers
import McpGateway.ToolNaming
import McpGateway.ServerRegistry
import McpGateway.RegistryRuns
import McpGateway.NameOwnership

/-!
# Prefixes on conflict

The documented name of a tool depends on the manifests of all servers; the
name it gets depends on what the other entries list at the moment of its own
server's synchronization, and is never revised. Whatever the order of
synchronizations, all tools have their documented names exactly when, at the
last successful synchronization of each server, every tool that another
manifest shares was listed by another entry already.
-/

namespace McpGateway.ConflictPrefixes

open PyDict StepRun GatewaySettings CircuitBreakers ToolNaming ServerRegistry RegistryRuns
open NameOwnership Fleet

/-- A successful synchronization with the registry that named its tools. -/
structure NamingSync where
  /-- The synchronized server. -/
  serverId : String
  /-- The registry before its tools were replaced. -/
  before : Registry

section Definitions

variable (fleet : Fleet)

/-- The bare name when no other server exposes it, and the prefixed one
otherwise. -/
def documentedName (server : UpstreamServer) (bare : String) : String :=
  if fleet.shared server bare=true then server.effectivePrefix++"."++bare else bare

/-- Every registered tool has its documented name. -/
def Documented (reg : Registry) : Prop :=
  ∀ sid entry, reg.entries.get? sid=some entry→∀ td∈entry.tools,
    td.qualifiedName=some (documentedName fleet entry.server td.name)

/-- The successful synchronization that an action completes. A manifest that
the collision policy rejects completes none. -/
def namedBy (s : RegistryRun) (a : SweepAction) : Option NamingSync :=
  match Fleet.completes s a with
  | none => none
  | some sid =>
    match s.registry.entries.get? sid with
    | none => none
    | some entry =>
      match buildToolDefinitions s.registry.naming s.registry.entries entry.server
          (fleet.manifest sid) with
      | .ok _ => some ⟨sid,s.registry⟩
      | .error _ => none

/-- One action with the successful synchronization it completes. -/
def watch (s : RegistryRun) (a : SweepAction) : RegistryRun×Option NamingSync :=
  ((fleet.observe s a).1,namedBy fleet s a)

/-- The registry that named the tools of a server last. -/
def lastNaming (history : List NamingSync) (sid : String) : Option Registry :=
  (history.reverse.find? (fun sync => sync.serverId==sid)).map NamingSync.before

/-- Along the manifest, a tool whose strategy name is free shares its raw name
with another manifest only if another entry lists that raw name already; a
tool whose strategy name is taken is skipped, or renamed into its documented
name by accident. -/
def Foretold (server : UpstreamServer) (entries : Dict String RegistryEntry) :
    Dict String String→List RawTool→Prop
  | _,[] => True
  | existing,raw::rest =>
    let base := baseName .prefixOnConflict entries server raw.name
    if existing.contains base=true then
      match fleet.naming.onConflict with
      | .suffix => suffixed base server.id=documentedName fleet server raw.name ∧
          Foretold server entries (existing.set (suffixed base server.id) server.id) rest
      | _ => Foretold server entries existing rest
    else (fleet.shared server raw.name=true→collides entries server.id raw.name=true) ∧
      Foretold server entries (existing.set base server.id) rest

/-- The registry of these entries names the tools of a server as documented. -/
def NamesAsDocumented (reg : Registry) (server : UpstreamServer) : Prop :=
  Foretold fleet server reg.entries (claimedByOthers reg.entries server.id)
    (fleet.manifest server.id)

/-- Entries are of servers of the fleet and list only names of their manifests. -/
def Listed (reg : Registry) : Prop :=
  ∀ sid entry, reg.entries.get? sid=some entry→
    entry.server∈fleet.servers ∧ entry.server.id=sid ∧
      ∀ td∈entry.tools, ∃ raw∈fleet.manifest sid, raw.name=td.name

end Definitions

variable {fleet : Fleet}

section Naming

/-- A prefixed name differs from the bare one. -/
theorem prefixed_ne_bare (server : UpstreamServer) (bare : String) :
    server.effectivePrefix++"."++bare≠bare := by
  intro h
  have hl := congrArg String.length h
  simp only [String.length_append] at hl
  have h1 : ("." : String).length=1 := by decide
  omega

/-- What another entry lists is in another manifest. -/
theorem shared_of_collides {reg : Registry} (h : Listed fleet reg) {server : UpstreamServer}
    {bare : String} (hc : collides reg.entries server.id bare=true) :
    fleet.shared server bare=true := by
  simp only [collides,List.any_eq_true,Bool.and_eq_true,decide_eq_true_eq,beq_iff_eq] at hc
  obtain ⟨⟨sid,entry⟩,hm,hne,td,htd,hname⟩ := hc
  obtain ⟨hmember,hid,htools⟩ := h sid entry (Dict.mem_items_iff.mp hm)
  obtain ⟨raw,hr,hraw⟩ := htools td htd
  simp only [Fleet.shared,List.any_eq_true,Bool.and_eq_true,decide_eq_true_eq,beq_iff_eq]
  exact ⟨entry.server,hmember,fun he => hne (hid.symm.trans he),raw,hid.symm ▸ hr,
    hraw.trans hname⟩

/-- The strategy gives the documented name exactly when a shared name is
already listed by another entry. -/
theorem baseName_documented_iff {reg : Registry} (h : Listed fleet reg) (server : UpstreamServer)
    (bare : String) :
    baseName .prefixOnConflict reg.entries server bare=documentedName fleet server bare ↔
      (fleet.shared server bare=true→collides reg.entries server.id bare=true) := by
  have hshared : collides reg.entries server.id bare=true→fleet.shared server bare=true :=
    shared_of_collides h
  have hne := prefixed_ne_bare server bare
  unfold baseName documentedName
  dsimp only
  cases hc : collides reg.entries server.id bare with
  | true => simp [hshared hc]
  | false =>
    cases hs : fleet.shared server bare with
    | true => simp [hne.symm]
    | false => simp

/-- Along a manifest, the built tools have their documented names exactly when
that was foretold. -/
theorem nameTools_documented_iff (hs : fleet.naming.strategy=.prefixOnConflict) {reg : Registry}
    (h : Listed fleet reg) {server : UpstreamServer} {existing : Dict String String}
    {raws : List RawTool} {tools : List ToolDefinition}
    (hb : nameTools fleet.naming reg.entries server existing raws=.ok tools) :
    (∀ td∈tools, td.qualifiedName=some (documentedName fleet server td.name)) ↔
      Foretold fleet server reg.entries existing raws := by
  induction raws generalizing existing tools with
  | nil =>
    cases hb
    simp [Foretold]
  | cons raw rest ih =>
    have hbase := baseName_documented_iff h server raw.name
    have hhead : ∀ q later, (∀ td∈toolDefinition server raw q::later,
        td.qualifiedName=some (documentedName fleet server td.name)) ↔
        q=documentedName fleet server raw.name ∧
          ∀ td∈later, td.qualifiedName=some (documentedName fleet server td.name) := by
      intro q later
      rw [List.forall_mem_cons]
      exact and_congr_left fun _ => Option.some_inj
    rcases nameTools_cons hb with ⟨hn,ht⟩ | ⟨q,later,hn,ht,rfl⟩
    · rw [hs] at hn
      obtain ⟨htaken,hwarn⟩ := claimName_none hn
      rw [ih ht,Foretold,if_pos htaken,hwarn]
    · rw [hs] at hn
      rw [hhead,ih ht,Foretold]
      rcases claimName_some hn with ⟨hfree,rfl⟩ | ⟨htaken,hsuffix,rfl⟩
      · rw [if_neg (by rw [hfree]; exact Bool.noConfusion),hbase]
      · rw [if_pos htaken,hsuffix]

end Naming

section Runs

/-- Along a run, every entry has the tools that its last successful
synchronization named. -/
structure Watched (fleet : Fleet) (s : RegistryRun) (history : List NamingSync) : Prop where
  /-- Entries are those of the fleet. -/
  enrolled : Enrolled fleet s
  /-- Entries list names of their manifests. -/
  listed : Listed fleet s.registry
  /-- So they did at every synchronization. -/
  earlier : ∀ sync∈history, Listed fleet sync.before
  /-- Synchronized servers are registered. -/
  known : ∀ sync∈history, ∃ entry, s.registry.entries.get? sync.serverId=some entry
  /-- A server that was not synchronized has no tools. -/
  fresh : ∀ sid entry, s.registry.entries.get? sid=some entry→lastNaming history sid=none→
    entry.tools=[]
  /-- Any other has those that it was given last. -/
  named : ∀ sid entry reg, s.registry.entries.get? sid=some entry→
    lastNaming history sid=some reg→
    buildToolDefinitions fleet.naming reg.entries entry.server (fleet.manifest sid)=
      .ok entry.tools

/-- The last synchronization of a longer history. -/
theorem lastNaming_append (history : List NamingSync) (sync : NamingSync) (sid : String) :
    lastNaming (history++[sync]) sid=
      if sync.serverId=sid then some sync.before else lastNaming history sid := by
  rw [lastNaming,find_last_append NamingSync.serverId,apply_ite (Option.map NamingSync.before)]
  rfl

/-- A last synchronization is in the history. -/
theorem lastNaming_mem {history : List NamingSync} {sid : String} {reg : Registry}
    (h : lastNaming history sid=some reg) : ⟨sid,reg⟩∈history := by
  obtain ⟨sync,hfind,rfl⟩ := Option.map_eq_some_iff.mp h
  have hfound := List.find?_some hfind
  have hid : sync.serverId=sid := beq_iff_eq.mp hfound
  rw [←hid]
  exact List.mem_reverse.mp (List.mem_of_find?_eq_some hfind)

/-- The empty registry. -/
theorem watched_start (fleet : Fleet) (policy : CircuitBreakerPolicy) :
    Watched fleet (fleet.start policy) [] where
  enrolled := enrolled_start fleet policy
  listed _ _ h := by cases h
  earlier _ h := absurd h List.not_mem_nil
  known _ h := absurd h List.not_mem_nil
  fresh _ _ h := by cases h
  named _ _ _ h := by cases h

variable {s : RegistryRun} {history : List NamingSync}

/-- A step after which every entry has its old tools, or none when it is new. -/
theorem Watched.keep (h : Watched fleet s history) {s' : RegistryRun} (he : Enrolled fleet s')
    (hold : ∀ sid entry, s.registry.entries.get? sid=some entry→
      ∃ entry', s'.registry.entries.get? sid=some entry')
    (hnew : ∀ sid entry', s'.registry.entries.get? sid=some entry'→
      (s.registry.entries.get? sid=none ∧ entry'.tools=[]) ∨
      ∃ entry, s.registry.entries.get? sid=some entry ∧ entry'.server=entry.server ∧
        entry'.tools=entry.tools) : Watched fleet s' history := by
  have hunknown : ∀ sid, s.registry.entries.get? sid=none→lastNaming history sid=none := by
    intro sid hg
    cases hl : lastNaming history sid with
    | none => rfl
    | some reg =>
      obtain ⟨entry,hknown⟩ := h.known _ (lastNaming_mem hl)
      rw [hg] at hknown
      cases hknown
  refine ⟨he,?_,h.earlier,?_,?_,?_⟩
  · intro sid entry' hg
    refine ⟨he.member sid entry' hg,(he.keyed sid entry' hg).1,?_⟩
    rcases hnew sid entry' hg with ⟨-,htools⟩ | ⟨entry,hentry,-,htools⟩
    · rw [htools]
      exact fun _ ht => absurd ht List.not_mem_nil
    · rw [htools]
      exact (h.listed sid entry hentry).2.2
  · intro sync hm
    obtain ⟨entry,hg⟩ := h.known sync hm
    exact hold _ entry hg
  · intro sid entry' hg hl
    rcases hnew sid entry' hg with ⟨-,htools⟩ | ⟨entry,hentry,-,htools⟩
    · exact htools
    · rw [htools]
      exact h.fresh sid entry hentry hl
  · intro sid entry' reg hg hl
    rcases hnew sid entry' hg with ⟨hnone,-⟩ | ⟨entry,hentry,hserver,htools⟩
    · rw [hunknown sid hnone] at hl
      cases hl
    · rw [htools,hserver]
      exact h.named sid entry reg hentry hl

/-- Naming the tools of one entry keeps every entry within its manifest. -/
theorem listed_named (h : Listed fleet s.registry) {s' : RegistryRun} (he : Enrolled fleet s')
    {sid : String} {server : UpstreamServer} {named : RegistryEntry}
    (hb : buildToolDefinitions fleet.naming s.registry.entries server (fleet.manifest sid)=
      .ok named.tools)
    (hget : ∀ other, s'.registry.entries.get? other=
      if sid=other then some named else s.registry.entries.get? other) :
    Listed fleet s'.registry := by
  intro other e hother
  refine ⟨he.member other e hother,(he.keyed other e hother).1,?_⟩
  rw [hget] at hother
  split at hother
  · rename_i hsame
    cases hother
    rw [←hsame]
    intro td ht
    obtain ⟨raw,hr,q,rfl⟩ := nameTools_mem hb ht
    exact ⟨raw,hr,rfl⟩
  · exact (h other e hother).2.2

/-- A successful synchronization names the tools of its entry anew. -/
theorem watched_named (h : Watched fleet s history) {s' : RegistryRun} (he : Enrolled fleet s')
    {sid : String} {entry : RegistryEntry} {tools : List ToolDefinition}
    (hb : buildToolDefinitions fleet.naming s.registry.entries entry.server (fleet.manifest sid)=
      .ok tools) {named : RegistryEntry} (hserver : named.server=entry.server)
    (htools : named.tools=tools)
    (hentries : s'.registry.entries=s.registry.entries.set sid named) :
    Watched fleet s' (history++[⟨sid,s.registry⟩]) := by
  subst htools
  have hget : ∀ other, s'.registry.entries.get? other=
      if sid=other then some named else s.registry.entries.get? other := by
    intro other
    rw [hentries,Dict.get?_set]
  have hlast : ∀ other, lastNaming (history++[⟨sid,s.registry⟩]) other=
      if sid=other then some s.registry else lastNaming history other :=
    lastNaming_append history ⟨sid,s.registry⟩
  refine ⟨he,listed_named h.listed he hb hget,?_,?_,?_,?_⟩
  · intro sync hm
    rcases List.mem_append.mp hm with hold | hnew
    · exact h.earlier sync hold
    · rw [List.mem_singleton.mp hnew]
      exact h.listed
  · intro sync hm
    rw [hget]
    split
    · exact ⟨named,rfl⟩
    · rename_i hne
      rcases List.mem_append.mp hm with hold | hnew
      · exact h.known sync hold
      · rw [List.mem_singleton.mp hnew] at hne
        exact absurd rfl hne
  · intro other e hother hl
    rw [hlast] at hl
    rw [hget] at hother
    split at hl
    · cases hl
    · rename_i hne
      rw [if_neg hne] at hother
      exact h.fresh other e hother hl
  · intro other e reg hother hl
    rw [hlast] at hl
    rw [hget] at hother
    split at hl
    · rename_i hsame
      rw [if_pos hsame] at hother
      cases hl
      cases hother
      rw [hserver,←hsame]
      exact hb
    · rename_i hne
      rw [if_neg hne] at hother
      exact h.named other e reg hother hl

/-- The end of a synchronization that leaves the tools of its entry alone. -/
theorem watched_unnamed (h : Watched fleet s history) {index : ℕ} {failure : Option String}
    {entry : RegistryEntry} {captured : String×ℕ}
    (hs : s.syncs[index]?=some captured) (hg : s.registry.entries.get? captured.1=some entry)
    (htools : (Registry.syncEntry s.registry.naming s.registry.entries entry
      (fleet.answer s index failure)).tools=entry.tools) :
    Watched fleet (fleet.observe s (.syncFinish index failure)).1 history := by
  obtain ⟨entry',hg',-,hget⟩ := syncFinish_entries h.enrolled hs (fleet.answer s index failure)
  obtain rfl : entry=entry' := Option.some.inj (hg.symm.trans hg')
  have hserver := (syncEntry_frame s.registry.naming s.registry.entries entry
    (fleet.answer s index failure)).1
  have he : Enrolled fleet (fleet.observe s (.syncFinish index failure)).1 :=
    enrolled_syncFinish h.enrolled index _
  refine h.keep he (fun sid e hnow => ?_) (fun sid e hnow => ?_)
  · exact syncFinish_known h.enrolled hs _ ⟨e,hnow⟩
  · have hentry := (hget sid).symm.trans hnow
    split at hentry
    · rename_i hsame
      cases hentry
      exact .inr ⟨entry,hsame ▸ hg,hserver,htools⟩
    · exact .inr ⟨e,hentry,rfl,rfl⟩

/-- The end of a synchronization. -/
theorem watched_syncFinish (h : Watched fleet s history) (index : ℕ) (failure : Option String) :
    Watched fleet (fleet.observe s (.syncFinish index failure)).1
      (history++(namedBy fleet s (.syncFinish index failure)).toList) := by
  cases hs : s.syncs[index]? with
  | none =>
    have hnone : namedBy fleet s (.syncFinish index failure)=none := by
      rw [namedBy,Fleet.completes_absent hs]
    have hsame : (fleet.observe s (.syncFinish index failure)).1=s := syncFinish_absent hs _
    rw [hnone,hsame,Option.toList_none,List.append_nil]
    exact h
  | some captured =>
    obtain ⟨entry,hg,hentries,-⟩ :=
      syncFinish_entries h.enrolled hs (fleet.answer s index failure)
    cases failure with
    | some text =>
      have hnone : namedBy fleet s (.syncFinish index (some text))=none := rfl
      rw [hnone,Option.toList_none,List.append_nil]
      exact watched_unnamed h hs hg rfl
    | none =>
      have hcompletes := Fleet.completes_captured hs
      cases hb : buildToolDefinitions s.registry.naming s.registry.entries entry.server
          (fleet.manifest captured.1) with
      | error conflict =>
        have hnone : namedBy fleet s (.syncFinish index none)=none := by
          simp only [namedBy,hcompletes,hg,hb]
        rw [hnone,Option.toList_none,List.append_nil]
        exact watched_unnamed h hs hg (by rw [Fleet.answer_captured hs,Registry.syncEntry,hb])
      | ok tools =>
        have hsome : namedBy fleet s (.syncFinish index none)=
            some ⟨captured.1,s.registry⟩ := by
          simp only [namedBy,hcompletes,hg,hb]
        have htools : (Registry.syncEntry s.registry.naming s.registry.entries entry
            (fleet.answer s index none)).tools=tools := by
          rw [Fleet.answer_captured hs,Registry.syncEntry,hb]
        have hserver := (syncEntry_frame s.registry.naming s.registry.entries entry
          (fleet.answer s index none)).1
        have he := enrolled_syncFinish h.enrolled index (fleet.answer s index none)
        rw [h.enrolled.naming] at hb
        rw [hsome,Option.toList_some]
        exact watched_named h he hb hserver htools hentries

/-- One action. -/
theorem watched_step (h : Watched fleet s history) {a : SweepAction} (ha : Admits fleet s a) :
    Watched fleet (watch fleet s a).1 (history++(watch fleet s a).2.toList) := by
  have he := enrolled_step h.enrolled ha
  cases a with
  | register server =>
    obtain ⟨-,hnew⟩ := ha server rfl
    have hsame : history++(watch fleet s (.register server)).2.toList=history :=
      List.append_nil history
    rw [hsame]
    refine h.keep he (fun sid entry hg => ⟨entry,register_kept hnew hg⟩) (fun sid entry hg => ?_)
    have hget := register_get s server sid
    rw [show (RegistryRuns.step s (.register server)).registry.entries.get? sid=some entry
      from hg] at hget
    split at hget
    · rename_i hid
      cases hget
      exact .inl ⟨hid ▸ hnew,rfl⟩
    · exact .inr ⟨entry,hget.symm,rfl,rfl⟩
  | syncStart serverId =>
    have hsame : history++(watch fleet s (.syncStart serverId)).2.toList=history :=
      List.append_nil history
    have hregistry : (watch fleet s (.syncStart serverId)).1.registry=s.registry := by
      simp only [watch,Fleet.observe,Fleet.operation,RegistryRuns.step]
      split <;> rfl
    rw [hsame]
    refine h.keep he (fun sid entry hg => ⟨entry,?_⟩) (fun sid entry hg => .inr ⟨entry,?_,rfl,rfl⟩)
    · exact (congrArg (fun reg : Registry => reg.entries.get? sid) hregistry).trans hg
    · exact (congrArg (fun reg : Registry => reg.entries.get? sid) hregistry).symm.trans hg
  | syncFinish index failure => exact watched_syncFinish h index failure

end Runs

/-- The successful synchronizations of a schedule, in order. -/
abbrev namings (fleet : Fleet) (policy : CircuitBreakerPolicy) (actions : List SweepAction) :
    List NamingSync := (run (watch fleet) (fleet.start policy) actions).2

/-- The registry after a schedule is the one that its history tells about. -/
theorem watched_run (policy : CircuitBreakerPolicy) {actions : List SweepAction}
    (hr : registrations actions=fleet.servers) :
    Watched fleet (run (watch fleet) (fleet.start policy) actions).1
      (namings fleet policy actions) := by
  have hadmits : Meets (fun s a => (watch fleet s a).1) (Admits fleet) (fleet.start policy)
      actions := by
    refine admits_run (fun server hs => ⟨hr ▸ hs,rfl⟩) ?_
    rw [hr]
    exact fleet.distinct
  exact run_meets (J:=Watched fleet) (fun _ _ _ h ha => watched_step h ha)
    (watched_start fleet policy) hadmits

/-- Watching a schedule does not change where it leads. -/
theorem reached_eq (policy : CircuitBreakerPolicy) (actions : List SweepAction) :
    fleet.reached policy actions=
      (run (watch fleet) (fleet.start policy) actions).1.registry := by
  have hobserved : (run fleet.observe (fleet.start policy) actions).1=_ := run_state _ actions
  have hwatched : (run (watch fleet) (fleet.start policy) actions).1=_ := run_state _ actions
  exact congrArg RegistryRun.registry (hobserved.trans hwatched.symm)

/-- For every order of synchronizations, under each collision policy, every
registered tool has its documented name exactly when the last successful
synchronization of each server named its tools in a registry that foretold
the documented names. -/
theorem documented_iff (hs : fleet.naming.strategy=.prefixOnConflict)
    (policy : CircuitBreakerPolicy) {actions : List SweepAction}
    (hr : registrations actions=fleet.servers) :
    Documented fleet (fleet.reached policy actions) ↔ ∀ server∈fleet.servers, ∀ reg,
      lastNaming (namings fleet policy actions) server.id=some reg→
        NamesAsDocumented fleet reg server := by
  have hwatched := watched_run policy hr
  rw [reached_eq]
  have hnamed : ∀ sid entry reg, lastNaming (namings fleet policy actions) sid=some reg→
      (run (watch fleet) (fleet.start policy) actions).1.registry.entries.get? sid=some entry→
      ((∀ td∈entry.tools, td.qualifiedName=some (documentedName fleet entry.server td.name)) ↔
        NamesAsDocumented fleet reg entry.server) := by
    intro sid entry reg hlast hg
    have hb := hwatched.named sid entry reg hg hlast
    rw [←(hwatched.enrolled.keyed sid entry hg).1] at hb
    exact nameTools_documented_iff hs (hwatched.earlier _ (lastNaming_mem hlast)) hb
  constructor
  · intro hdocumented server hserver reg hlast
    obtain ⟨entry,hg⟩ := hwatched.known _ (lastNaming_mem hlast)
    have hid := (hwatched.enrolled.keyed _ entry hg).1
    have hsame : entry.server=server :=
      eq_of_id (hwatched.enrolled.member _ entry hg) hserver hid
    rw [←hsame]
    exact (hnamed server.id entry reg hlast hg).mp (hdocumented server.id entry hg)
  · intro hforetold sid entry hg
    cases hlast : lastNaming (namings fleet policy actions) sid with
    | none =>
      rw [hwatched.fresh sid entry hg hlast]
      exact fun _ ht => absurd ht List.not_mem_nil
    | some reg =>
      have hmember := hwatched.enrolled.member sid entry hg
      refine (hnamed sid entry reg hlast hg).mpr (hforetold _ hmember reg ?_)
      rw [(hwatched.enrolled.keyed sid entry hg).1]
      exact hlast

/-- Two servers with one tool of the same bare name, prefixed on conflict. -/
def conflictPair : Fleet := {pair with naming := {strategy := .prefixOnConflict}}

/-- Both servers are registered and synchronized, `a` first. -/
def syncedOnce : List SweepAction :=
  [.register (plainServer "a"),.register (plainServer "b"),.syncStart "a",.syncStart "b",
    .syncFinish 0 none,.syncFinish 0 none]

theorem documented_iff_resynced :
    Documented conflictPair (conflictPair.reached {}
      (syncedOnce++[.syncStart "a",.syncFinish 0 none])) ↔
    ∀ server∈conflictPair.servers, ∀ reg,
      lastNaming (namings conflictPair {} (syncedOnce++[.syncStart "a",.syncFinish 0 none]))
        server.id=some reg→NamesAsDocumented conflictPair reg server :=
  documented_iff rfl {} rfl

/-- The server that is synchronized first keeps the bare name of a tool that
the other one exposes too. -/
theorem bare_name_kept :
    (∀ server∈conflictPair.servers, (lastNaming (namings conflictPair {} syncedOnce)
      server.id).isSome=true) ∧
    ¬Documented conflictPair (conflictPair.reached {} syncedOnce) := by
  refine ⟨by decide,fun h => ?_⟩
  have hvalues : ∀ entry∈(conflictPair.reached {} syncedOnce).entries.values,
      ∀ td∈entry.tools,
        td.qualifiedName=some (documentedName conflictPair entry.server td.name) := by
    intro entry hm
    obtain ⟨sid,hg⟩ := Dict.mem_values_iff.mp hm
    exact h sid entry hg
  exact absurd hvalues (by decide)

end McpGateway.ConflictPrefixes
