import Mathlib
import McpGateway.PyDict
import McpGateway.StepRun
import McpGateway.GatewaySettings
import McpGateway.CircuitBreakers
import McpGateway.ToolNaming
import McpGateway.ServerRegistry
import McpGateway.RegistryRuns

/-!
# Who owns a contested name

Servers that always answer with one manifest are registered one after the
other, and their synchronizations start, succeed and fail in any order in
between. Under the policy that skips a taken name, the tools of every server
are determined by the order in which servers first completed a successful
synchronization: each name belongs to the first of them that exposes it, and
nothing changes once a server has been synchronized.
-/

namespace McpGateway.NameOwnership

open PyDict StepRun GatewaySettings CircuitBreakers ToolNaming ServerRegistry RegistryRuns

/-- Servers in the order of their registration, each with the manifest it
always answers with. -/
structure Fleet where
  /-- Naming settings of the registry. -/
  naming : NamingConfig
  /-- The servers. -/
  servers : List UpstreamServer
  /-- Each under its own id. -/
  distinct : (servers.map UpstreamServer.id).Nodup
  /-- Manifests by server id. -/
  manifest : String→List RawTool

/-- A registration, or half of a synchronization. -/
inductive SweepAction where
  /-- `register` without its synchronization. -/
  | register (server : UpstreamServer)
  /-- First half of `sync_one`. -/
  | syncStart (serverId : String)
  /-- Second half of `sync_one`, with the text of a failure if it fails. -/
  | syncFinish (index : ℕ) (failure : Option String)

/-- The servers that a schedule registers, in order. -/
def registrations (actions : List SweepAction) : List UpstreamServer :=
  actions.filterMap fun
    | .register server => some server
    | _ => none

namespace Fleet

variable (fleet : Fleet)

/-- The answer to a synchronization in flight. -/
def answer (s : RegistryRun) (index : ℕ) : Option String→Except String (List RawTool)
  | some text => .error text
  | none => .ok (((s.syncs[index]?).map (fun captured => fleet.manifest captured.1)).getD [])

/-- The registry operation of an action. -/
def operation (s : RegistryRun) : SweepAction→RegistryAction
  | .register server => .register server
  | .syncStart serverId => .syncStart serverId
  | .syncFinish index failure => .syncFinish index (fleet.answer s index failure)

/-- The id whose synchronization an action completes successfully. -/
def completes (s : RegistryRun) : SweepAction→Option String
  | .syncFinish index none => (s.syncs[index]?).map Prod.fst
  | _ => none

/-- One action, with the id whose synchronization it completes. -/
def observe (s : RegistryRun) (a : SweepAction) : RegistryRun×Option String :=
  (RegistryRuns.step s (fleet.operation s a),completes s a)

/-- The empty registry. -/
def start (policy : CircuitBreakerPolicy) : RegistryRun := RegistryRuns.start fleet.naming policy

/-- Another server of the fleet has a tool of this raw name. -/
def shared (server : UpstreamServer) (bare : String) : Bool :=
  fleet.servers.any (fun other => decide (other.id≠server.id) &&
    (fleet.manifest other.id).any (fun raw => raw.name==bare))

/-- The name that the strategy gives to a tool among all the manifests. -/
def exposedName (server : UpstreamServer) (bare : String) : String :=
  match fleet.naming.strategy with
  | .prefixAlways => server.effectivePrefix++"."++bare
  | .bare => bare
  | .prefixOnConflict =>
    if fleet.shared server bare=true then server.effectivePrefix++"."++bare else bare

/-- The server under this id exposes a tool of this name. -/
def exposes (q serverId : String) : Bool :=
  fleet.servers.any (fun server => decide (server.id=serverId) &&
    (fleet.manifest server.id).any (fun raw => fleet.exposedName server raw.name==q))

/-- Names do not depend on what other servers hold at the moment: the strategy
does not look at them, or no raw name is in two manifests. -/
def Steady : Prop := fleet.naming.strategy=.prefixOnConflict→
  ∀ server∈fleet.servers, ∀ raw∈fleet.manifest server.id, fleet.shared server raw.name=false

/-- One action, with the id whose synchronization it completes and the state
in which it does. -/
def journal (s : RegistryRun) (a : SweepAction) : RegistryRun×Option (RegistryRun×String) :=
  ((fleet.observe s a).1,(completes s a).map (fun serverId => (s,serverId)))

/-- When the server last completed a synchronization, the strategy gave this
name to one of its tools and no other server held it. -/
def Settled (ended : List (RegistryRun×String)) (server : UpstreamServer) (q : String) : Prop :=
  ∃ s, ended.reverse.find? (fun ending => ending.2==server.id)=some (s,server.id) ∧
    (∃ raw∈fleet.manifest server.id,
      baseName fleet.naming.strategy s.registry.entries server raw.name=q) ∧
    (claimedByOthers s.registry.entries server.id).contains q=false

end Fleet

/-- The tools that get a name, when those in the table are taken: a skipped
tool leaves no trace, and a named one takes its name. -/
def keepNew (name : String→String) (server : UpstreamServer) :
    (String→Bool)→List RawTool→List ToolDefinition
  | _,[] => []
  | taken,raw::rest =>
    if taken (name raw.name)=true then keepNew name server taken rest
    else toolDefinition server raw (name raw.name)::
      keepNew name server (fun q => decide (name raw.name=q) || taken q) rest

/-- Under `warn` the loop keeps exactly the tools with new names. -/
theorem nameTools_warn {naming : NamingConfig} (hc : naming.onConflict=.warn)
    {entries : Dict String RegistryEntry} {server : UpstreamServer} {name : String→String}
    {raws : List RawTool}
    (hn : ∀ raw∈raws, baseName naming.strategy entries server raw.name=name raw.name)
    (existing : Dict String String) :
    nameTools naming entries server existing raws=
      .ok (keepNew name server (fun q => existing.contains q) raws) := by
  induction raws generalizing existing with
  | nil => rfl
  | cons raw rest ih =>
    have hrest := ih (fun r hr => hn r (List.mem_cons_of_mem _ hr))
    rw [nameTools,keepNew,hn raw List.mem_cons_self,claimName,hc]
    cases hg : existing.get? (name raw.name) with
    | some owner =>
      have htaken : existing.contains (name raw.name)=true := by rw [Dict.contains,hg]; rfl
      rw [if_pos htaken]
      exact hrest existing
    | none =>
      have hnew : existing.contains (name raw.name)=false := by rw [Dict.contains,hg]; rfl
      rw [if_neg (by rw [hnew]; exact Bool.noConfusion)]
      dsimp only
      rw [hrest]
      dsimp only
      have hset : (fun q => (existing.set (name raw.name) server.id).contains q)=
          fun q => decide (name raw.name=q) || existing.contains q := by
        funext q
        rw [Bool.eq_iff_iff,Dict.contains_set,Bool.or_eq_true,decide_eq_true_eq]
      rw [hset]

/-- Only the table entries of the manifest's own names matter. -/
theorem keepNew_congr {name : String→String} {server : UpstreamServer} {raws : List RawTool}
    {taken taken' : String→Bool} (h : ∀ raw∈raws, taken (name raw.name)=taken' (name raw.name)) :
    keepNew name server taken raws=keepNew name server taken' raws := by
  induction raws generalizing taken taken' with
  | nil => rfl
  | cons raw rest ih =>
    have hrest : ∀ r∈rest, taken (name r.name)=taken' (name r.name) :=
      fun r hr => h r (List.mem_cons_of_mem _ hr)
    have hnamed : keepNew name server (fun q => decide (name raw.name=q) || taken q) rest=
        keepNew name server (fun q => decide (name raw.name=q) || taken' q) rest :=
      ih (fun r hr => by rw [hrest r hr])
    rw [keepNew,keepNew,h raw List.mem_cons_self,ih hrest,hnamed]

/-- A kept tool has the raw name of one of the manifest. -/
theorem keepNew_name {name : String→String} {server : UpstreamServer} {raws : List RawTool}
    {taken : String→Bool} {td : ToolDefinition} (h : td∈keepNew name server taken raws) :
    ∃ raw∈raws, td.name=raw.name := by
  induction raws generalizing taken with
  | nil => exact absurd h List.not_mem_nil
  | cons raw rest ih =>
    rw [keepNew] at h
    split at h
    · obtain ⟨r,hr,hname⟩ := ih h
      exact ⟨r,List.mem_cons_of_mem _ hr,hname⟩
    · rcases List.mem_cons.mp h with rfl | h
      · exact ⟨raw,List.mem_cons_self,rfl⟩
      · obtain ⟨r,hr,hname⟩ := ih h
        exact ⟨r,List.mem_cons_of_mem _ hr,hname⟩

/-- The advertised names of the kept tools are those of the manifest that
were not taken. -/
theorem mem_keepNew {name : String→String} {server : UpstreamServer} {raws : List RawTool}
    {taken : String→Bool} {q : String} :
    q∈advertisedNames (keepNew name server taken raws) ↔
      q≠"" ∧ (∃ raw∈raws, name raw.name=q) ∧ taken q=false := by
  induction raws generalizing taken with
  | nil => simp [keepNew,advertisedNames]
  | cons raw rest ih =>
    rw [keepNew]
    by_cases ht : taken (name raw.name)=true
    · rw [if_pos ht,ih]
      refine and_congr_right fun _ => and_congr_left fun hq => ?_
      have hne : name raw.name≠q := fun he => by rw [he,hq] at ht; cases ht
      simp [hne]
    · have hfree := Bool.eq_false_of_not_eq_true ht
      rw [if_neg ht,advertisedNames_cons]
      by_cases hq : name raw.name=q
      · subst hq
        by_cases hempty : name raw.name=""
        · rw [if_pos hempty,ih]
          simp [hempty]
        · rw [if_neg hempty]
          simp [hempty,hfree]
      · have htail : q∈advertisedNames (keepNew name server
            (fun p => decide (name raw.name=p) || taken p) rest) ↔
            q≠"" ∧ (∃ r∈raw::rest, name r.name=q) ∧ taken q=false := by
          rw [ih]
          simp [hq]
        split
        · exact htail
        · rw [List.mem_cons]
          exact ⟨fun h => htail.mp (h.resolve_left (Ne.symm hq)),fun h => .inr (htail.mpr h)⟩

namespace Fleet

variable (fleet : Fleet)

/-- The tools of a server after its registry has completed these
synchronizations: those whose names it was the first to be synchronized for. -/
def toolsAfter (completed : List String) (server : UpstreamServer) : List ToolDefinition :=
  if server.id∈completed then
    keepNew (fleet.exposedName server) server
      (fun q => decide (q≠"" ∧ completed.find? (fleet.exposes q)≠some server.id))
      (fleet.manifest server.id)
  else []

variable {fleet}

/-- Ids identify the servers of a fleet. -/
theorem eq_of_id {server other : UpstreamServer} (hs : server∈fleet.servers)
    (ho : other∈fleet.servers) (h : server.id=other.id) : server=other :=
  List.inj_on_of_nodup_map fleet.distinct hs ho h

/-- What a server of the fleet exposes is read from its manifest. -/
theorem exposes_iff {server : UpstreamServer} (hs : server∈fleet.servers) {q : String} :
    fleet.exposes q server.id=true ↔
      ∃ raw∈fleet.manifest server.id, fleet.exposedName server raw.name=q := by
  simp only [exposes,List.any_eq_true,Bool.and_eq_true,decide_eq_true_eq,beq_iff_eq]
  constructor
  · rintro ⟨other,ho,hid,raw,hr,hname⟩
    cases eq_of_id ho hs hid
    exact ⟨raw,hr,hname⟩
  · rintro ⟨raw,hr,hname⟩
    exact ⟨server,hs,rfl,raw,hr,hname⟩

/-- A server owns the names it was the first to be synchronized for. -/
theorem mem_toolsAfter {server : UpstreamServer} (hs : server∈fleet.servers)
    {completed : List String} {q : String} :
    q∈advertisedNames (fleet.toolsAfter completed server) ↔
      q≠"" ∧ completed.find? (fleet.exposes q)=some server.id := by
  unfold toolsAfter
  split
  · rw [mem_keepNew,←exposes_iff hs]
    simp only [decide_eq_false_iff_not,not_and,not_not]
    constructor
    · rintro ⟨hne,-,howner⟩
      exact ⟨hne,howner hne⟩
    · rintro ⟨hne,howner⟩
      exact ⟨hne,List.find?_some howner,fun _ => howner⟩
  · rename_i hn
    refine ⟨fun h => absurd h List.not_mem_nil,fun h => ?_⟩
    exact absurd (List.mem_of_find?_eq_some h.2) hn

/-- Once a server has been synchronized, later synchronizations do not change
its tools. -/
theorem toolsAfter_append {server : UpstreamServer} (hs : server∈fleet.servers)
    {completed : List String} (hc : server.id∈completed) (later : List String) :
    fleet.toolsAfter (completed++later) server=fleet.toolsAfter completed server := by
  rw [toolsAfter,toolsAfter,if_pos hc,if_pos (List.mem_append_left _ hc)]
  refine keepNew_congr fun raw hr => ?_
  have hexposes := (exposes_iff hs).mpr ⟨raw,hr,rfl⟩
  obtain ⟨owner,howner⟩ := Option.isSome_iff_exists.mp (List.find?_isSome.mpr ⟨_,hc,hexposes⟩)
  rw [List.find?_append,howner,Option.some_or]

/-- The synchronization of one server does not change the tools of another. -/
theorem toolsAfter_other {server : UpstreamServer} (hs : server∈fleet.servers)
    (completed : List String) {serverId : String} (hne : server.id≠serverId) :
    fleet.toolsAfter (completed++[serverId]) server=fleet.toolsAfter completed server := by
  by_cases hc : server.id∈completed
  · exact toolsAfter_append hs hc _
  · have hlater : server.id∉completed++[serverId] := by
      simp [hc,hne]
    rw [toolsAfter,toolsAfter,if_neg hc,if_neg hlater]

/-- Registrations are of servers of the fleet under ids that are not in use. -/
def Admits (fleet : Fleet) (s : RegistryRun) (a : SweepAction) : Prop :=
  ∀ server, a=.register server→
    server∈fleet.servers ∧ s.registry.entries.get? server.id=none

/-- Entries are of servers of the fleet, each under its id, and a
synchronization in flight finds the entry it captured. -/
structure Enrolled (fleet : Fleet) (s : RegistryRun) : Prop where
  /-- Entries are stored under their ids. -/
  keyed : Keyed s.registry
  /-- The naming settings. -/
  naming : s.registry.naming=fleet.naming
  /-- A synchronization in flight finds the entry it captured. -/
  inFlight : ∀ captured∈s.syncs, ∃ entry, s.registry.entries.get? captured.1=some entry ∧
    entry.client.uid=captured.2
  /-- Entries are of servers of the fleet. -/
  member : ∀ sid entry, s.registry.entries.get? sid=some entry→entry.server∈fleet.servers

/-- The empty registry. -/
theorem enrolled_start (fleet : Fleet) (policy : CircuitBreakerPolicy) :
    Enrolled fleet (fleet.start policy) where
  keyed := keyed_start fleet.naming policy
  naming := rfl
  inFlight _ h := absurd h List.not_mem_nil
  member _ _ h := by cases h

section Enrolment

variable {s : RegistryRun}

/-- What a lookup finds after a registration. -/
theorem register_get (s : RegistryRun) (server : UpstreamServer) (sid : String) :
    (RegistryRuns.step s (.register server)).registry.entries.get? sid=
      if server.id=sid then some {server := server,client := ⟨s.registry.nextUid,server⟩}
      else s.registry.entries.get? sid := Dict.get?_set ..

/-- A registration under a new id keeps the entries. -/
theorem register_kept {server : UpstreamServer} (hnew : s.registry.entries.get? server.id=none)
    {sid : String} {entry : RegistryEntry} (hg : s.registry.entries.get? sid=some entry) :
    (RegistryRuns.step s (.register server)).registry.entries.get? sid=some entry := by
  have hne : server.id≠sid := fun he => by rw [he,hg] at hnew; cases hnew
  rw [register_get,if_neg hne,hg]

/-- A registration adds an entry of the fleet. -/
theorem enrolled_register (h : Enrolled fleet s) {server : UpstreamServer}
    (hs : server∈fleet.servers) (hnew : s.registry.entries.get? server.id=none) :
    Enrolled fleet (RegistryRuns.step s (.register server)) := by
  refine ⟨keyed_step s _ h.keyed,(step_naming s _).trans h.naming,?_,?_⟩
  · intro captured hc
    obtain ⟨entry,hg,huid⟩ := h.inFlight captured hc
    exact ⟨entry,register_kept hnew hg,huid⟩
  · intro sid entry hg
    rw [register_get] at hg
    split at hg
    · cases hg
      exact hs
    · exact h.member sid entry hg

/-- The start of a synchronization captures the entry it will address. -/
theorem enrolled_syncStart (h : Enrolled fleet s) (serverId : String) :
    Enrolled fleet (RegistryRuns.step s (.syncStart serverId)) := by
  rw [RegistryRuns.step,Registry.startSync]
  cases hg : s.registry.entries.get? serverId with
  | none => exact h
  | some entry =>
    cases he : entry.server.enabled with
    | false => simpa [he] using h
    | true =>
      simp only [he,if_true]
      refine {h with inFlight := fun captured hc => ?_}
      rcases List.mem_append.mp hc with hc | hc
      · exact h.inFlight captured hc
      · cases List.mem_singleton.mp hc
        exact ⟨entry,hg,rfl⟩

/-- The start of a synchronization changes no entry. -/
theorem syncStart_registry (s : RegistryRun) (serverId : String) :
    (RegistryRuns.step s (.syncStart serverId)).registry=s.registry := by
  rw [RegistryRuns.step]
  split <;> rfl

/-- The end of a synchronization in flight replaces the entry that it
captured. -/
theorem syncFinish_entries (h : Enrolled fleet s) {index : ℕ} {captured : String×ℕ}
    (hs : s.syncs[index]?=some captured) (answer : Except String (List RawTool)) :
    ∃ entry, s.registry.entries.get? captured.1=some entry ∧
      (RegistryRuns.step s (.syncFinish index answer)).registry.entries=
        s.registry.entries.set captured.1
          (Registry.syncEntry s.registry.naming s.registry.entries entry answer) ∧
      ∀ sid, (RegistryRuns.step s (.syncFinish index answer)).registry.entries.get? sid=
        if captured.1=sid then
          some (Registry.syncEntry s.registry.naming s.registry.entries entry answer)
        else s.registry.entries.get? sid := by
  obtain ⟨entry,hg,huid⟩ := h.inFlight _ (List.mem_of_getElem? hs)
  have hentries : (RegistryRuns.step s (.syncFinish index answer)).registry.entries=
      s.registry.entries.set captured.1
        (Registry.syncEntry s.registry.naming s.registry.entries entry answer) := by
    rw [RegistryRuns.step,hs]
    rcases finishSync_cases s.registry captured.1 captured.2 answer with
      ⟨found,hfound,-,hset⟩ | ⟨hgone,-⟩
    · rw [hg] at hfound
      cases hfound
      exact hset
    · exact absurd huid (hgone entry hg)
  refine ⟨entry,hg,hentries,fun sid => ?_⟩
  rw [hentries,Dict.get?_set]

/-- An id that is known stays known. -/
theorem syncFinish_known (h : Enrolled fleet s) {index : ℕ} {captured : String×ℕ}
    (hs : s.syncs[index]?=some captured) (answer : Except String (List RawTool)) {sid : String}
    (hk : ∃ entry, s.registry.entries.get? sid=some entry) :
    ∃ entry, (RegistryRuns.step s (.syncFinish index answer)).registry.entries.get? sid=
      some entry := by
  obtain ⟨entry,-,-,hget⟩ := syncFinish_entries h hs answer
  rw [hget]
  split
  · exact ⟨_,rfl⟩
  · exact hk

/-- A synchronization in flight is answered with the manifest of its server. -/
theorem answer_captured {index : ℕ} {captured : String×ℕ} (hs : s.syncs[index]?=some captured) :
    fleet.answer s index none=.ok (fleet.manifest captured.1) := by
  rw [answer,hs]
  rfl

/-- Its success completes the synchronization of that server. -/
theorem completes_captured {index : ℕ} {captured : String×ℕ} (hs : s.syncs[index]?=some captured) :
    completes s (.syncFinish index none)=some captured.1 := by
  rw [completes,hs]
  rfl

/-- Nothing is completed when nothing is in flight. -/
theorem completes_absent {index : ℕ} (hs : s.syncs[index]?=none) (failure : Option String) :
    completes s (.syncFinish index failure)=none := by
  cases failure with
  | none => rw [completes,hs]; rfl
  | some text => rfl

/-- An index that is not in flight changes nothing. -/
theorem syncFinish_absent {index : ℕ} (hs : s.syncs[index]?=none)
    (answer : Except String (List RawTool)) :
    RegistryRuns.step s (.syncFinish index answer)=s := by
  rw [RegistryRuns.step,hs]

/-- The end of a synchronization keeps the enrolment. -/
theorem enrolled_syncFinish (h : Enrolled fleet s) (index : ℕ)
    (answer : Except String (List RawTool)) :
    Enrolled fleet (RegistryRuns.step s (.syncFinish index answer)) := by
  have hkeyed := keyed_step s (.syncFinish index answer) h.keyed
  have hnaming := (step_naming s (.syncFinish index answer)).trans h.naming
  cases hs : s.syncs[index]? with
  | none =>
    rw [syncFinish_absent hs]
    exact h
  | some captured =>
    obtain ⟨entry,hg,-,hget⟩ := syncFinish_entries h hs answer
    obtain ⟨hserver,hclient⟩ := syncEntry_frame s.registry.naming s.registry.entries entry answer
    refine ⟨hkeyed,hnaming,?_,?_⟩
    · intro c hc
      have hold : c∈s.syncs := by
        rw [RegistryRuns.step,hs] at hc
        exact List.mem_of_mem_eraseIdx hc
      obtain ⟨e,he,huid⟩ := h.inFlight c hold
      rw [hget]
      split
      · rename_i hsame
        rw [←hsame,hg] at he
        cases he
        exact ⟨_,rfl,by rw [hclient]; exact huid⟩
      · exact ⟨e,he,huid⟩
    · intro sid e he
      rw [hget] at he
      split at he
      · cases he
        rw [hserver]
        exact h.member captured.1 entry hg
      · exact h.member sid e he

/-- One action keeps the enrolment. -/
theorem enrolled_step (h : Enrolled fleet s) {a : SweepAction} (ha : Admits fleet s a) :
    Enrolled fleet (fleet.observe s a).1 := by
  cases a with
  | register server =>
    obtain ⟨hs,hnew⟩ := ha server rfl
    exact enrolled_register h hs hnew
  | syncStart serverId => exact enrolled_syncStart h serverId
  | syncFinish index failure => exact enrolled_syncFinish h index _

end Enrolment

/-- The registry holds the tools that the completed synchronizations determine. -/
structure Swept (fleet : Fleet) (s : RegistryRun) (completed : List String) : Prop where
  /-- Entries are stored under their ids. -/
  keyed : Keyed s.registry
  /-- The naming settings. -/
  naming : s.registry.naming=fleet.naming
  /-- A synchronization in flight finds the entry it captured. -/
  inFlight : ∀ captured∈s.syncs, ∃ entry, s.registry.entries.get? captured.1=some entry ∧
    entry.client.uid=captured.2
  /-- Entries are of servers of the fleet. -/
  member : ∀ sid entry, s.registry.entries.get? sid=some entry→entry.server∈fleet.servers
  /-- The tools of each. -/
  tools : ∀ sid entry, s.registry.entries.get? sid=some entry→
    entry.tools=fleet.toolsAfter completed entry.server
  /-- Synchronized servers are registered. -/
  known : ∀ sid∈completed, ∃ entry, s.registry.entries.get? sid=some entry

/-- The registry with its tools is enrolled. -/
theorem Swept.enrolled {s : RegistryRun} {completed : List String}
    (h : Swept fleet s completed) : Enrolled fleet s := ⟨h.keyed,h.naming,h.inFlight,h.member⟩

/-- An enrolled registry with the tools that the completed synchronizations
determine. -/
theorem Enrolled.swept {s : RegistryRun} {completed : List String} (h : Enrolled fleet s)
    (htools : ∀ sid entry, s.registry.entries.get? sid=some entry→
      entry.tools=fleet.toolsAfter completed entry.server)
    (hknown : ∀ sid∈completed, ∃ entry, s.registry.entries.get? sid=some entry) :
    Swept fleet s completed := ⟨h.keyed,h.naming,h.inFlight,h.member,htools,hknown⟩

/-- The empty registry. -/
theorem swept_start (fleet : Fleet) (policy : CircuitBreakerPolicy) :
    Swept fleet (fleet.start policy) [] :=
  (enrolled_start fleet policy).swept (fun _ _ h => by cases h)
    (fun _ h => absurd h List.not_mem_nil)

section Steps

variable {s : RegistryRun} {completed : List String}

/-- A name is taken by another server exactly when another was the first to
be synchronized for it. -/
theorem Swept.claimed_iff (h : Swept fleet s completed) (serverId q : String) :
    (claimedByOthers s.registry.entries serverId).contains q=true ↔
      q≠"" ∧ ∃ owner, owner≠serverId ∧ completed.find? (fleet.exposes q)=some owner := by
  rw [claimedByOthers_contains]
  constructor
  · rintro ⟨sid,entry,hg,hne,hq⟩
    rw [h.tools sid entry hg,mem_toolsAfter (h.member sid entry hg)] at hq
    rw [(h.keyed sid entry hg).1] at hq
    exact ⟨hq.1,sid,hne,hq.2⟩
  · rintro ⟨hempty,owner,hne,howner⟩
    obtain ⟨entry,hg⟩ := h.known owner (List.mem_of_find?_eq_some howner)
    refine ⟨owner,entry,hg,hne,?_⟩
    rw [h.tools owner entry hg,mem_toolsAfter (h.member owner entry hg),(h.keyed owner entry hg).1]
    exact ⟨hempty,howner⟩

/-- The strategy gives the names that it gives among all manifests. -/
theorem Swept.baseName_eq (h : Swept fleet s completed) (hst : fleet.Steady) {sid : String}
    {entry : RegistryEntry} (hg : s.registry.entries.get? sid=some entry) {raw : RawTool}
    (hr : raw∈fleet.manifest sid) :
    baseName s.registry.naming.strategy s.registry.entries entry.server raw.name=
      fleet.exposedName entry.server raw.name := by
  have hid := (h.keyed sid entry hg).1
  have hmember := h.member sid entry hg
  rw [h.naming]
  unfold baseName exposedName
  cases hstrategy : fleet.naming.strategy with
  | prefixAlways => rfl
  | bare => rfl
  | prefixOnConflict =>
    have hshared := hst hstrategy entry.server hmember raw (hid.symm ▸ hr)
    have hfree : collides s.registry.entries entry.server.id raw.name=false := by
      by_contra hn
      have hcollides := Bool.eq_true_of_not_eq_false hn
      simp only [collides,List.any_eq_true,Bool.and_eq_true,decide_eq_true_eq,beq_iff_eq]
        at hcollides
      obtain ⟨⟨other,e⟩,hm,hne,td,htd,hname⟩ := hcollides
      have hge := Dict.mem_items_iff.mp hm
      have hide := (h.keyed other e hge).1
      have htools := h.tools other e hge
      rw [toolsAfter] at htools
      split at htools
      · rw [htools] at htd
        obtain ⟨raw',hr',hraw⟩ := keepNew_name htd
        have hother : fleet.shared entry.server raw.name=true := by
          simp only [shared,List.any_eq_true,Bool.and_eq_true,decide_eq_true_eq,beq_iff_eq]
          exact ⟨e.server,h.member other e hge,fun heq => hne (hide.symm.trans heq),raw',hr',
            hraw.symm.trans hname⟩
        rw [hshared] at hother
        cases hother
      · rw [htools] at htd
        exact absurd htd List.not_mem_nil
    dsimp only
    rw [hfree,hshared]

/-- A successful synchronization gives an entry the tools that follow from
the synchronizations before it and itself. -/
theorem Swept.build (h : Swept fleet s completed) (hc : fleet.naming.onConflict=.warn)
    (hst : fleet.Steady) {sid : String} {entry : RegistryEntry}
    (hg : s.registry.entries.get? sid=some entry) :
    buildToolDefinitions s.registry.naming s.registry.entries entry.server (fleet.manifest sid)=
      .ok (fleet.toolsAfter (completed++[sid]) entry.server) := by
  have hid := (h.keyed sid entry hg).1
  have hmember := h.member sid entry hg
  rw [buildToolDefinitions,nameTools_warn (by rw [h.naming,hc])
    (fun raw hr => h.baseName_eq hst hg hr)]
  rw [toolsAfter,if_pos (by rw [hid]; exact List.mem_append_right _ List.mem_cons_self),hid]
  congr 1
  refine keepNew_congr fun raw hr => ?_
  have hexposes : fleet.exposes (fleet.exposedName entry.server raw.name) sid=true :=
    hid ▸ (exposes_iff hmember).mpr ⟨raw,hid.symm ▸ hr,rfl⟩
  rw [Bool.eq_iff_iff,h.claimed_iff,decide_eq_true_eq,List.find?_append,List.find?_singleton,
    if_pos hexposes]
  refine and_congr_right fun _ => ?_
  cases completed.find? (fleet.exposes (fleet.exposedName entry.server raw.name)) with
  | none => simp
  | some owner => simp

/-- A registration adds an entry without tools. -/
theorem swept_register (h : Swept fleet s completed) {server : UpstreamServer}
    (hs : server∈fleet.servers) (hnew : s.registry.entries.get? server.id=none) :
    Swept fleet (RegistryRuns.step s (.register server)) completed := by
  have hunsynced : server.id∉completed := by
    intro hc
    obtain ⟨entry,hg⟩ := h.known _ hc
    rw [hnew] at hg
    cases hg
  refine (enrolled_register h.enrolled hs hnew).swept ?_ ?_
  · intro sid entry hg
    rw [register_get] at hg
    split at hg
    · cases hg
      rw [toolsAfter,if_neg hunsynced]
    · exact h.tools sid entry hg
  · intro sid hc
    obtain ⟨entry,hg⟩ := h.known sid hc
    exact ⟨entry,register_kept hnew hg⟩

/-- The start of a synchronization determines no tool. -/
theorem swept_syncStart (h : Swept fleet s completed) (serverId : String) :
    Swept fleet (RegistryRuns.step s (.syncStart serverId)) completed := by
  have hentries := syncStart_registry s serverId
  refine (enrolled_syncStart h.enrolled serverId).swept ?_ ?_
  · rw [hentries]
    exact h.tools
  · rw [hentries]
    exact h.known

/-- A completed synchronization, successful or not. -/
theorem swept_syncFinish (h : Swept fleet s completed) (hc : fleet.naming.onConflict=.warn)
    (hst : fleet.Steady) (index : ℕ) (failure : Option String) :
    Swept fleet (RegistryRuns.step s (.syncFinish index (fleet.answer s index failure)))
      (completed++(completes s (.syncFinish index failure)).toList) := by
  cases hs : s.syncs[index]? with
  | none =>
    rw [completes_absent hs,syncFinish_absent hs,Option.toList_none,List.append_nil]
    exact h
  | some captured =>
    obtain ⟨entry,hg,-,hget⟩ := syncFinish_entries h.enrolled hs (fleet.answer s index failure)
    have hserver := (syncEntry_frame s.registry.naming s.registry.entries entry
      (fleet.answer s index failure)).1
    have henrolled := enrolled_syncFinish h.enrolled index (fleet.answer s index failure)
    refine henrolled.swept ?_ ?_
    · intro sid e he
      rw [hget] at he
      split at he
      · rename_i hsame
        cases he
        rw [hserver]
        cases failure with
        | some text =>
          have hkept := h.tools captured.1 entry hg
          simpa [completes,answer,Registry.syncEntry] using hkept
        | none =>
          rw [answer_captured hs,Registry.syncEntry,h.build hc hst hg,completes_captured hs]
          rfl
      · rename_i hne
        rw [h.tools sid e he]
        have hid := (h.keyed sid e he).1
        cases failure with
        | some text => simp [completes]
        | none =>
          rw [completes_captured hs]
          exact (toolsAfter_other (h.member sid e he) completed
            (fun heq => hne (heq.symm.trans hid))).symm
    · intro sid hm
      refine syncFinish_known h.enrolled hs _ ?_
      rcases List.mem_append.mp hm with hold | hnew
      · exact h.known sid hold
      · cases failure with
        | some text => exact absurd hnew List.not_mem_nil
        | none =>
          rw [completes_captured hs] at hnew
          rw [List.mem_singleton.mp hnew]
          exact ⟨entry,hg⟩

/-- One action. -/
theorem swept_step (h : Swept fleet s completed) (hc : fleet.naming.onConflict=.warn)
    (hst : fleet.Steady) {a : SweepAction} (ha : Admits fleet s a) :
    Swept fleet (fleet.observe s a).1 (completed++(fleet.observe s a).2.toList) := by
  cases a with
  | register server =>
    obtain ⟨hs,hnew⟩ := ha server rfl
    have hsame : completed++(fleet.observe s (.register server)).2.toList=completed :=
      List.append_nil completed
    rw [hsame]
    exact swept_register h hs hnew
  | syncStart serverId =>
    have hsame : completed++(fleet.observe s (.syncStart serverId)).2.toList=completed :=
      List.append_nil completed
    rw [hsame]
    exact swept_syncStart h serverId
  | syncFinish index failure => exact swept_syncFinish h hc hst index failure

end Steps

/-- Every server holds the names that were free when it last completed a
synchronization. -/
structure Recorded (fleet : Fleet) (s : RegistryRun) (ended : List (RegistryRun×String)) :
    Prop extends Enrolled fleet s where
  /-- The names of each. -/
  names : ∀ sid entry, s.registry.entries.get? sid=some entry→
    ∀ q, q∈advertisedNames entry.tools ↔ q≠"" ∧ fleet.Settled ended entry.server q
  /-- Synchronized servers are registered. -/
  known : ∀ ending∈ended, ∃ entry, s.registry.entries.get? ending.2=some entry

/-- The empty registry. -/
theorem recorded_start (fleet : Fleet) (policy : CircuitBreakerPolicy) :
    Recorded fleet (fleet.start policy) [] where
  toEnrolled := enrolled_start fleet policy
  names _ _ h := by cases h
  known _ h := absurd h List.not_mem_nil

section Records

variable {s : RegistryRun} {ended : List (RegistryRun×String)}

/-- A settled server was synchronized. -/
theorem Settled.mem {server : UpstreamServer} {q : String}
    (h : fleet.Settled ended server q) : ∃ before, (before,server.id)∈ended := by
  obtain ⟨before,hlast,-⟩ := h
  exact ⟨before,List.mem_reverse.mp (List.mem_of_find?_eq_some hlast)⟩

/-- The synchronization of one server settles nothing for another. -/
theorem settled_other (ended : List (RegistryRun×String)) (before : RegistryRun)
    {serverId : String} {server : UpstreamServer} (hne : serverId≠server.id) (q : String) :
    fleet.Settled (ended++[(before,serverId)]) server q ↔ fleet.Settled ended server q := by
  unfold Settled
  rw [find_last_append Prod.snd ended (before,serverId) server.id,if_neg hne]

/-- The synchronization of a server settles the names that are then free. -/
theorem settled_same (ended : List (RegistryRun×String)) (before : RegistryRun)
    (server : UpstreamServer) (q : String) :
    fleet.Settled (ended++[(before,server.id)]) server q ↔
      (∃ raw∈fleet.manifest server.id,
        baseName fleet.naming.strategy before.registry.entries server raw.name=q) ∧
      (claimedByOthers before.registry.entries server.id).contains q=false := by
  unfold Settled
  rw [find_last_append Prod.snd ended (before,server.id) server.id,if_pos rfl]
  constructor
  · rintro ⟨s,hs,hfree⟩
    cases hs
    exact hfree
  · intro hfree
    exact ⟨before,rfl,hfree⟩

/-- A successful synchronization names exactly the tools that are free. -/
theorem Recorded.built (h : Recorded fleet s ended) (hc : fleet.naming.onConflict=.warn)
    {sid : String} {entry : RegistryEntry} (hg : s.registry.entries.get? sid=some entry) :
    ∃ tools, buildToolDefinitions s.registry.naming s.registry.entries entry.server
        (fleet.manifest sid)=.ok tools ∧
      ∀ q, q∈advertisedNames tools ↔ q≠"" ∧ fleet.Settled (ended++[(s,sid)]) entry.server q := by
  have hid := (h.keyed sid entry hg).1
  refine ⟨_,nameTools_warn (by rw [h.naming,hc]) (fun _ _ => rfl) _,fun q => ?_⟩
  rw [mem_keepNew,←hid,settled_same,h.naming]

/-- A registration adds an entry without names. -/
theorem recorded_register (h : Recorded fleet s ended) {server : UpstreamServer}
    (hs : server∈fleet.servers) (hnew : s.registry.entries.get? server.id=none) :
    Recorded fleet (RegistryRuns.step s (.register server)) ended := by
  refine ⟨enrolled_register h.toEnrolled hs hnew,fun sid entry hg q => ?_,fun ending he => ?_⟩
  · rw [register_get] at hg
    split at hg
    · cases hg
      refine ⟨fun hq => absurd hq List.not_mem_nil,fun hq => ?_⟩
      obtain ⟨before,hb⟩ := hq.2.mem
      obtain ⟨entry,hg⟩ := h.known _ hb
      rw [hnew] at hg
      cases hg
    · exact h.names sid entry hg q
  · obtain ⟨entry,hg⟩ := h.known ending he
    exact ⟨entry,register_kept hnew hg⟩

/-- The start of a synchronization names no tool. -/
theorem recorded_syncStart (h : Recorded fleet s ended) (serverId : String) :
    Recorded fleet (RegistryRuns.step s (.syncStart serverId)) ended := by
  have hentries := syncStart_registry s serverId
  refine ⟨enrolled_syncStart h.toEnrolled serverId,?_,?_⟩
  · rw [hentries]
    exact h.names
  · rw [hentries]
    exact h.known

/-- A completed synchronization, successful or not. -/
theorem recorded_syncFinish (h : Recorded fleet s ended) (hc : fleet.naming.onConflict=.warn)
    (index : ℕ) (failure : Option String) :
    Recorded fleet (RegistryRuns.step s (.syncFinish index (fleet.answer s index failure)))
      (ended++(fleet.journal s (.syncFinish index failure)).2.toList) := by
  rw [journal]
  cases hs : s.syncs[index]? with
  | none =>
    rw [completes_absent hs,syncFinish_absent hs]
    exact (List.append_nil ended).symm ▸ h
  | some captured =>
    obtain ⟨entry,hg,-,hget⟩ := syncFinish_entries h.toEnrolled hs (fleet.answer s index failure)
    have hserver := (syncEntry_frame s.registry.naming s.registry.entries entry
      (fleet.answer s index failure)).1
    refine ⟨enrolled_syncFinish h.toEnrolled index _,fun sid e he q => ?_,fun ending he => ?_⟩
    · rw [hget] at he
      split at he
      · cases he
        rw [hserver]
        cases failure with
        | some text =>
          have hkept := h.names captured.1 entry hg q
          simpa [completes,answer,Registry.syncEntry] using hkept
        | none =>
          obtain ⟨tools,hbuilt,hnames⟩ := h.built hc hg
          rw [answer_captured hs,Registry.syncEntry,hbuilt,completes_captured hs]
          exact hnames q
      · rename_i hne
        have hid := (h.keyed sid e he).1
        rw [h.names sid e he q]
        cases failure with
        | some text => simp [completes]
        | none =>
          rw [completes_captured hs]
          exact and_congr_right fun _ => (settled_other ended s (hid.symm ▸ hne) q).symm
    · refine syncFinish_known h.toEnrolled hs _ ?_
      rcases List.mem_append.mp he with hold | hnew
      · exact h.known ending hold
      · cases failure with
        | some text => exact absurd hnew List.not_mem_nil
        | none =>
          rw [completes_captured hs] at hnew
          cases List.mem_singleton.mp hnew
          exact ⟨entry,hg⟩

/-- One action. -/
theorem recorded_step (h : Recorded fleet s ended) (hc : fleet.naming.onConflict=.warn)
    {a : SweepAction} (ha : Admits fleet s a) :
    Recorded fleet (fleet.journal s a).1 (ended++(fleet.journal s a).2.toList) := by
  cases a with
  | register server =>
    obtain ⟨hs,hnew⟩ := ha server rfl
    exact (List.append_nil ended).symm ▸ recorded_register h hs hnew
  | syncStart serverId => exact (List.append_nil ended).symm ▸ recorded_syncStart h serverId
  | syncFinish index failure => exact recorded_syncFinish h hc index failure

end Records

/-- Only a registration makes an id known. -/
theorem absent_step {s : RegistryRun} {sid : String} (h : s.registry.entries.get? sid=none)
    {a : SweepAction} (ha : ∀ server, a=.register server→server.id≠sid) :
    (fleet.observe s a).1.registry.entries.get? sid=none := by
  refine Option.eq_none_iff_forall_ne_some.mpr fun entry hg => ?_
  cases step_origin hg with
  | registered server action named made =>
    cases a with
    | register other =>
      cases action
      exact ha server rfl named
    | syncStart serverId => cases action
    | syncFinish index failure => cases action
  | settings old found server named made =>
    rw [h] at found
    cases found
  | synced old found index answer action captured made =>
    rw [h] at found
    cases found

/-- A schedule that registers the servers of the fleet once admits each. -/
theorem admits_run {s : RegistryRun} {actions : List SweepAction}
    (h : ∀ server∈registrations actions,
      server∈fleet.servers ∧ s.registry.entries.get? server.id=none)
    (hn : ((registrations actions).map UpstreamServer.id).Nodup) :
    Meets (fun s a => (fleet.observe s a).1) (Admits fleet) s actions := by
  induction actions generalizing s with
  | nil => trivial
  | cons a actions ih =>
    have hkeeps : ∀ server∈registrations actions, server∈registrations (a::actions) := by
      intro server hs
      obtain ⟨b,hb,hserver⟩ := List.mem_filterMap.mp hs
      exact List.mem_filterMap.mpr ⟨b,List.mem_cons_of_mem _ hb,hserver⟩
    refine ⟨?_,ih (fun server hs => ?_) ?_⟩
    · rintro server rfl
      exact h server List.mem_cons_self
    · obtain ⟨hmember,hnone⟩ := h server (hkeeps server hs)
      refine ⟨hmember,absent_step hnone ?_⟩
      rintro first rfl hid
      have hfirst := (List.nodup_cons.mp hn).1
      exact hfirst (hid ▸ List.mem_map_of_mem hs)
    · cases a with
      | register server => exact (List.nodup_cons.mp hn).2
      | syncStart serverId => exact hn
      | syncFinish index failure => exact hn

/-- The ids whose synchronizations a schedule completes, in order. -/
abbrev completed (fleet : Fleet) (policy : CircuitBreakerPolicy) (actions : List SweepAction) :
    List String := (run fleet.observe (fleet.start policy) actions).2

/-- The registry after a schedule. -/
abbrev reached (fleet : Fleet) (policy : CircuitBreakerPolicy) (actions : List SweepAction) :
    Registry := (run fleet.observe (fleet.start policy) actions).1.registry

/-- The successful synchronizations of a schedule in order, each with the
state in which it ended. -/
abbrev endings (fleet : Fleet) (policy : CircuitBreakerPolicy) (actions : List SweepAction) :
    List (RegistryRun×String) := (run fleet.journal (fleet.start policy) actions).2

/-- Registering the servers of the fleet in order admits each. -/
theorem admits_registrations (policy : CircuitBreakerPolicy) {actions : List SweepAction}
    (hr : registrations actions=fleet.servers) :
    Meets (fun s a => (fleet.observe s a).1) (Admits fleet) (fleet.start policy) actions := by
  refine admits_run (fun server hs => ⟨hr ▸ hs,rfl⟩) ?_
  rw [hr]
  exact fleet.distinct

/-- After every schedule the tools are those that the completed
synchronizations determine. -/
theorem swept_run (hc : fleet.naming.onConflict=.warn) (hst : fleet.Steady)
    (policy : CircuitBreakerPolicy) {actions : List SweepAction}
    (hr : registrations actions=fleet.servers) :
    Swept fleet (run fleet.observe (fleet.start policy) actions).1
      (fleet.completed policy actions) :=
  run_meets (J:=Swept fleet) (fun _ _ _ h ha => swept_step h hc hst ha)
    (swept_start fleet policy) (admits_registrations policy hr)

/-- After every schedule each server holds the names that were free when it
last completed a synchronization, whatever the strategy. -/
theorem recorded_run (hc : fleet.naming.onConflict=.warn) (policy : CircuitBreakerPolicy)
    {actions : List SweepAction} (hr : registrations actions=fleet.servers) :
    Recorded fleet (run fleet.observe (fleet.start policy) actions).1
      (fleet.endings policy actions) := by
  have hstep : ∀ s ended a, Recorded fleet s ended→Admits fleet s a→
      Recorded fleet (fleet.journal s a).1 (ended++(fleet.journal s a).2.toList) :=
    fun _ _ _ h ha => recorded_step h hc ha
  have hrun := run_meets hstep (recorded_start fleet policy) (admits_registrations policy hr)
  rw [run_state] at hrun ⊢
  exact hrun

/-- Once every server has completed a successful synchronization, further
ones of any server, successful or not, leave the tools of every entry as they
are. -/
theorem tools_stable (hs : fleet.naming.strategy≠.prefixOnConflict)
    (hc : fleet.naming.onConflict=.warn) (policy : CircuitBreakerPolicy)
    {before after : List SweepAction} (hr : registrations before=fleet.servers)
    (hsyncs : registrations after=[])
    (hall : ∀ server∈fleet.servers, server.id∈fleet.completed policy before) (sid : String) :
    ((fleet.reached policy (before++after)).entries.get? sid).map RegistryEntry.tools=
      ((fleet.reached policy before).entries.get? sid).map RegistryEntry.tools := by
  have hst : fleet.Steady := fun h => absurd h hs
  have hregistered : registrations (before++after)=fleet.servers := by
    rw [registrations,List.filterMap_append]
    exact (congrArg₂ _ hr hsyncs).trans (List.append_nil _)
  have hb := swept_run hc hst policy hr
  have ha := swept_run hc hst policy hregistered
  have hlater : fleet.completed policy (before++after)=fleet.completed policy before++
      (run fleet.observe (run fleet.observe (fleet.start policy) before).1 after).2 :=
    run_append _ _ _
  rw [hlater] at ha
  cases he : (fleet.reached policy before).entries.get? sid with
  | none =>
    cases he' : (fleet.reached policy (before++after)).entries.get? sid with
    | none => rfl
    | some entry' =>
      have hknown := hall _ (ha.member sid entry' he')
      rw [(ha.keyed sid entry' he').1] at hknown
      obtain ⟨entry,hg⟩ := hb.known sid hknown
      rw [he] at hg
      cases hg
  | some entry =>
    have hmember := hb.member sid entry he
    have hid := (hb.keyed sid entry he).1
    have hknown := hall _ hmember
    obtain ⟨entry',he'⟩ := ha.known _ (List.mem_append_left _ hknown)
    rw [hid] at he'
    have hserver : entry'.server=entry.server :=
      eq_of_id (ha.member sid entry' he') hmember ((ha.keyed sid entry' he').1.trans hid.symm)
    rw [he',Option.map_some,Option.map_some,ha.tools sid entry' he',hb.tools sid entry he,hserver,
      toolsAfter_append hmember hknown]

/-- The server under this id advertises a tool of this name. -/
def Owns (reg : Registry) (sid q : String) : Prop :=
  ∃ entry, reg.entries.get? sid=some entry ∧ q∈advertisedNames entry.tools

/-- Every name belongs to the earliest-registered server that exposes it, so
to the same one for every schedule. -/
def FirstRegisteredWins (fleet : Fleet) (reg : Registry) : Prop :=
  ∀ q, q≠""→∀ sid, Owns reg sid q ↔
    (fleet.servers.map UpstreamServer.id).find? (fleet.exposes q)=some sid

/-- For every name, the first server to complete a synchronization among
those that expose it is the first that was registered. -/
structure InOrder (fleet : Fleet) (completed : List String) : Prop where
  /-- Names do not depend on what other servers hold at the moment. -/
  steady : fleet.Steady
  /-- The orders agree on the first for each name. -/
  first : ∀ q, q≠""→completed.find? (fleet.exposes q)=
    (fleet.servers.map UpstreamServer.id).find? (fleet.exposes q)

/-- The owner of a name is the first server to complete a synchronization
among those that expose it. -/
theorem owns_iff (hc : fleet.naming.onConflict=.warn) (hst : fleet.Steady)
    (policy : CircuitBreakerPolicy) {actions : List SweepAction}
    (hr : registrations actions=fleet.servers) {q : String} (hq : q≠"") (sid : String) :
    Owns (fleet.reached policy actions) sid q ↔
      (fleet.completed policy actions).find? (fleet.exposes q)=some sid := by
  have hswept := swept_run hc hst policy hr
  constructor
  · rintro ⟨entry,hg,hm⟩
    rw [hswept.tools sid entry hg,mem_toolsAfter (hswept.member sid entry hg),
      (hswept.keyed sid entry hg).1] at hm
    exact hm.2
  · intro howner
    obtain ⟨entry,hg⟩ := hswept.known sid (List.mem_of_find?_eq_some howner)
    refine ⟨entry,hg,?_⟩
    rw [hswept.tools sid entry hg,mem_toolsAfter (hswept.member sid entry hg),
      (hswept.keyed sid entry hg).1]
    exact ⟨hq,howner⟩

/-- A server owns the names that were free when it last completed a
synchronization. -/
theorem owns_iff_settled (hc : fleet.naming.onConflict=.warn) (policy : CircuitBreakerPolicy)
    {actions : List SweepAction} (hr : registrations actions=fleet.servers)
    {server : UpstreamServer} (hs : server∈fleet.servers) {q : String} (hq : q≠"") :
    Owns (fleet.reached policy actions) server.id q ↔
      fleet.Settled (fleet.endings policy actions) server q := by
  have hrecorded := recorded_run hc policy hr
  have hsame : ∀ entry, (fleet.reached policy actions).entries.get? server.id=some entry→
      entry.server=server := fun entry hg =>
    eq_of_id (hrecorded.member _ entry hg) hs (hrecorded.keyed _ entry hg).1
  constructor
  · rintro ⟨entry,hg,hm⟩
    have hsettled := ((hrecorded.names _ entry hg q).mp hm).2
    rwa [hsame entry hg] at hsettled
  · intro hsettled
    obtain ⟨before,hb⟩ := hsettled.mem
    obtain ⟨entry,hg⟩ := hrecorded.known _ hb
    refine ⟨entry,hg,(hrecorded.names _ entry hg q).mpr ⟨hq,?_⟩⟩
    rwa [hsame entry hg]

/-- For every server and name: the name was free for the server when it last
completed a synchronization exactly if the server is the first registered of
those that expose it. -/
def Placed (fleet : Fleet) (ended : List (RegistryRun×String)) : Prop :=
  ∀ server∈fleet.servers, ∀ q, q≠""→(fleet.Settled ended server q ↔
    (fleet.servers.map UpstreamServer.id).find? (fleet.exposes q)=some server.id)

/-- Under every strategy the earliest-registered server wins every name
exactly when the last synchronizations placed the names so. When the strategy
names tools alike at all times, that is so exactly when, for every name, it is
the first of those that expose it to complete a synchronization. -/
theorem firstRegisteredWins_iff (hc : fleet.naming.onConflict=.warn)
    (policy : CircuitBreakerPolicy) {actions : List SweepAction}
    (hr : registrations actions=fleet.servers) :
    (InOrder fleet (fleet.completed policy actions)→
      FirstRegisteredWins fleet (fleet.reached policy actions)) ∧
    (fleet.Steady→FirstRegisteredWins fleet (fleet.reached policy actions)→
      InOrder fleet (fleet.completed policy actions)) ∧
    (FirstRegisteredWins fleet (fleet.reached policy actions) ↔
      Placed fleet (fleet.endings policy actions)) := by
  refine ⟨?_,?_,?_,?_⟩
  · rintro ⟨hst,hfirst⟩ q hq sid
    rw [owns_iff hc hst policy hr hq,hfirst q hq]
  · intro hst hwins
    refine ⟨hst,fun q hq => Option.ext fun sid => ?_⟩
    rw [←owns_iff hc hst policy hr hq]
    exact hwins q hq sid
  · intro hwins server hs q hq
    rw [←owns_iff_settled hc policy hr hs hq]
    exact hwins q hq server.id
  · intro hplaced q hq sid
    by_cases hs : ∃ server∈fleet.servers, server.id=sid
    · obtain ⟨server,hs,rfl⟩ := hs
      rw [owns_iff_settled hc policy hr hs hq]
      exact hplaced server hs q hq
    · have hrecorded := recorded_run hc policy hr
      constructor
      · rintro ⟨entry,hg,-⟩
        exact absurd ⟨_,hrecorded.member sid entry hg,(hrecorded.keyed sid entry hg).1⟩ hs
      · intro hfirst
        exact absurd (List.mem_map.mp (List.mem_of_find?_eq_some hfirst)) hs

end Fleet

/-- Two ids. -/
theorem distinct_pair : ([plainServer "a",plainServer "b"].map UpstreamServer.id).Nodup := by
  decide

/-- Two servers with one tool of the same bare name. -/
def pair : Fleet where
  naming := {strategy := .bare}
  servers := [plainServer "a",plainServer "b"]
  distinct := distinct_pair
  manifest _ := [{name := "search"}]

/-- Both servers are registered; `b` is synchronized first. -/
def laterFirst : List SweepAction :=
  [.register (plainServer "a"),.register (plainServer "b"),.syncStart "a",
    .syncFinish 0 (some "timeout"),.syncStart "b",.syncFinish 0 none,.syncStart "a",
    .syncFinish 0 none]

theorem tools_stable_pair :
    ((pair.reached {} (laterFirst++[.syncStart "a",.syncFinish 0 none])).entries.get? "b").map
      RegistryEntry.tools=
    ((pair.reached {} laterFirst).entries.get? "b").map RegistryEntry.tools :=
  Fleet.tools_stable (by decide) rfl {} rfl rfl (by decide) "b"

/-- The later-registered server keeps the name when it is synchronized first,
for all that follows. -/
theorem later_server_wins :
    (∀ server∈pair.servers, server.id∈pair.completed {} laterFirst) ∧
    ¬pair.FirstRegisteredWins (pair.reached {} laterFirst) := by
  refine ⟨by decide,fun h => ?_⟩
  obtain ⟨entry,hg,hm⟩ := (h "search" (by decide) "a").mpr rfl
  have htools : ((pair.reached {} laterFirst).entries.get? "a").map
      (fun entry => advertisedNames entry.tools)=some [] := by decide
  rw [hg,Option.map_some] at htools
  rw [Option.some.inj htools] at hm
  exact absurd hm List.not_mem_nil

theorem firstRegisteredWins_iff_pair :
    (pair.InOrder (pair.completed {} laterFirst)→
      pair.FirstRegisteredWins (pair.reached {} laterFirst)) ∧
    (pair.Steady→pair.FirstRegisteredWins (pair.reached {} laterFirst)→
      pair.InOrder (pair.completed {} laterFirst)) ∧
    (pair.FirstRegisteredWins (pair.reached {} laterFirst) ↔
      pair.Placed (pair.endings {} laterFirst)) :=
  Fleet.firstRegisteredWins_iff rfl {} rfl

end McpGateway.NameOwnership
