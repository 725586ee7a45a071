import Mathlib
import McpGateway.PyText
import McpGateway.PyDict
import McpGateway.StepRun
import McpGateway.GatewaySettings
import McpGateway.CircuitBreakers
import McpGateway.ToolNaming
import McpGateway.ServerRegistry
import McpGateway.RegistryRuns
import McpGateway.RegistryOperations

/-!
# What the registry reports

An entry keeps the outcome of its last synchronization. Registrations replace
entries while synchronizations of earlier ones are under way, so the outcomes
are kept here beside the run, by server and client identity; the reports of a
server are compared with those of its present registration.
-/

namespace McpGateway.HealthReports

open PyText PyDict StepRun GatewaySettings CircuitBreakers ToolNaming ServerRegistry RegistryRuns
open RegistryOperations

section Reports

/-- Answer of `GET /healthz`. -/
structure HealthResponse where
  /-- `ok`, `degraded` or `down`. -/
  status : String
  /-- A word for each server. -/
  upstreams : Dict String String

/-- The word for a server. -/
def healthWord (healthy : Bool) : String := if healthy=true then "healthy" else "unhealthy"

/-- `healthz`. -/
def healthz (reg : Registry) : HealthResponse :=
  let statuses := Dict.ofItems
    (reg.entries.values.map (fun e => (e.server.id,healthWord e.healthy)))
  let status :=
    if statuses.values≠[] ∧ statuses.values.all (fun v => v=="unhealthy")=true then "down"
    else if statuses.values.any (fun v => v=="unhealthy")=true then "degraded"
    else "ok"
  ⟨status,statuses⟩

/-- A server in `to_dict`. -/
structure ServerReport where
  /-- Its id. -/
  id : String
  /-- Base address. -/
  baseUrl : String
  /-- Whether it is enabled. -/
  enabled : Bool
  /-- Whether the last synchronization succeeded. -/
  healthy : Bool
  /-- Number of its tools. -/
  toolCount : ℕ
  /-- Text of the last failure. -/
  lastError : Option String
  /-- Its tags. -/
  tags : List String
  /-- How its credential is obtained. -/
  authStrategy : String

/-- `auth_strategy` of a report. -/
def authStrategy (server : UpstreamServer) : String :=
  match server.serverAuth with
  | some auth =>
    match auth.strategy with
    | .static => "static"
    | .env => "env"
    | .oauth2 => "oauth2"
  | none => if orText server.authHeader ""="" then "none" else "static"

/-- The report of an entry. -/
def report (e : RegistryEntry) : ServerReport where
  id := e.server.id
  baseUrl := e.server.baseUrl
  enabled := e.server.enabled
  healthy := e.healthy
  toolCount := e.tools.length
  lastError := e.lastError
  tags := e.server.tags
  authStrategy := authStrategy e.server

/-- `to_dict`. -/
def toDict (reg : Registry) : Dict String ServerReport :=
  Dict.ofItems (reg.entries.items.map (fun item => (item.1,report item.2)))

end Reports

section Completions

/-- One registration of a server. -/
structure Registration where
  /-- Server. -/
  serverId : String
  /-- Identity of the entry's client. -/
  uid : ℕ
  deriving DecidableEq

/-- A synchronization of a registered entry ends. -/
structure Completion where
  /-- The registration it captured. -/
  registration : Registration
  /-- What the body of `sync_one` came to. -/
  outcome : Except SyncException (List ToolDefinition)

/-- Whether it succeeded. -/
def Completion.succeeded (c : Completion) : Bool :=
  match c.outcome with
  | .ok _ => true
  | .error _ => false

/-- Its tools. -/
def Completion.tools (c : Completion) : List ToolDefinition :=
  match c.outcome with
  | .ok tools => tools
  | .error _ => []

/-- Text of its failure. -/
def Completion.error (c : Completion) : Option String :=
  match c.outcome with
  | .ok _ => none
  | .error e => some e.text

/-- The completion of an action, unless the entry it captured is gone. -/
def completion (s : RegistryRun) (a : RegistryAction) : Option Completion :=
  match a with
  | .syncFinish index answer => do
    let captured ← s.syncs[index]?
    let entry ← s.registry.entries.get? captured.1
    if entry.client.uid=captured.2 then
      some ⟨⟨captured.1,captured.2⟩,nameAnswer s.registry entry answer⟩
    else none
  | _ => none

/-- A step that reports completions. -/
def observe (s : RegistryRun) (a : RegistryAction) : RegistryRun×Option Completion :=
  (step s a,completion s a)

/-- The last completion of a registration. -/
def lastOf (h : List Completion) (r : Registration) : Option Completion :=
  h.reverse.find? (fun c => c.registration==r)

/-- The last success of a registration. -/
def lastRenewal (h : List Completion) (r : Registration) : Option Completion :=
  lastOf (h.filter Completion.succeeded) r

/-- The last completion of a registration, with one completion more. -/
theorem lastOf_append (h : List Completion) (c : Completion) (r : Registration) :
    lastOf (h++[c]) r=if c.registration=r then some c else lastOf h r :=
  find_last_append Completion.registration h c r

/-- Its last success, with one completion more. -/
theorem lastRenewal_append (h : List Completion) (c : Completion) (r : Registration) :
    lastRenewal (h++[c]) r=
      if c.succeeded=true ∧ c.registration=r then some c else lastRenewal h r := by
  unfold lastRenewal
  rw [List.filter_append,List.filter_singleton]
  cases hs : c.succeeded with
  | true =>
    rw [cond_true,lastOf_append]
    simp only [true_and]
  | false =>
    rw [cond_false,List.append_nil]
    exact (if_neg (fun hboth => Bool.false_ne_true hboth.1)).symm

/-- What an entry says is what the completions of its registration came to. -/
structure Told (e : RegistryEntry) (h : List Completion) (r : Registration) : Prop where
  /-- Whether the last one succeeded. -/
  healthy : e.healthy=(lastOf h r).any Completion.succeeded
  /-- What the last one raised. -/
  lastError : e.lastError=(lastOf h r).bind Completion.error
  /-- Tools of the last success. -/
  tools : e.tools=((lastRenewal h r).map Completion.tools).getD []

/-- Every entry says what its registration came to. -/
structure Reported (s : RegistryRun) (h : List Completion) : Prop where
  /-- Entries are under their ids. -/
  keyed : Keyed s.registry
  /-- Completions are of identities that were given. -/
  past : ∀ c∈h, c.registration.uid<s.registry.nextUid
  /-- Entries tell their completions. -/
  told : ∀ sid e, s.registry.entries.get? sid=some e→Told e h ⟨sid,e.client.uid⟩

/-- Nothing is known of an identity that was not given yet. -/
theorem lastOf_new {h : List Completion} {r : Registration}
    (hp : ∀ c∈h, c.registration.uid< r.uid) : lastOf h r=none := by
  refine List.find?_eq_none.mpr fun c hc => ?_
  rw [beq_iff_eq]
  rintro rfl
  exact lt_irrefl _ (hp c (List.mem_reverse.mp hc))

/-- So a new entry has nothing to tell. -/
theorem told_registered {h : List Completion} {uid : ℕ}
    (hp : ∀ c∈h, c.registration.uid<uid) (server : UpstreamServer) (sid : String) :
    Told {server := server,client := ⟨uid,server⟩} h ⟨sid,uid⟩ := by
  have hlast : lastOf h ⟨sid,uid⟩=none := lastOf_new hp
  have hrenewal : lastRenewal h ⟨sid,uid⟩=none :=
    lastOf_new (fun c hc => hp c (List.mem_of_mem_filter hc))
  refine ⟨?_,?_,?_⟩
  · rw [hlast]
    rfl
  · rw [hlast]
    rfl
  · rw [hrenewal]
    rfl

/-- Completions of others change nothing. -/
theorem Told.other {e : RegistryEntry} {h : List Completion} {r : Registration}
    (ht : Told e h r) {c : Completion} (hc : c.registration≠r) : Told e (h++[c]) r := by
  have hlast : lastOf (h++[c]) r=lastOf h r := by
    rw [lastOf_append,if_neg hc]
  have hrenewal : lastRenewal (h++[c]) r=lastRenewal h r := by
    rw [lastRenewal_append,if_neg (fun hboth => hc hboth.2)]
  refine ⟨?_,?_,?_⟩
  · rw [hlast]
    exact ht.healthy
  · rw [hlast]
    exact ht.lastError
  · rw [hrenewal]
    exact ht.tools

/-- The entry after its own completion. -/
theorem Told.settle {e : RegistryEntry} {h : List Completion} {r : Registration}
    (ht : Told e h r) (outcome : Except SyncException (List ToolDefinition)) :
    Told (settle e outcome) (h++[⟨r,outcome⟩]) r := by
  have hlast : lastOf (h++[⟨r,outcome⟩]) r=some ⟨r,outcome⟩ := by
    rw [lastOf_append,if_pos rfl]
  have hrenewal := lastRenewal_append h ⟨r,outcome⟩ r
  cases outcome with
  | ok tools =>
    rw [if_pos ⟨rfl,rfl⟩] at hrenewal
    refine ⟨?_,?_,?_⟩
    · rw [hlast]
      rfl
    · rw [hlast]
      rfl
    · rw [hrenewal]
      rfl
  | error error =>
    rw [if_neg (fun hboth => (by cases hboth.1))] at hrenewal
    refine ⟨?_,?_,?_⟩
    · rw [hlast]
      rfl
    · rw [hlast]
      rfl
    · rw [hrenewal]
      exact ht.tools

/-- An action that completes no synchronization. -/
theorem reported_silent {s : RegistryRun} {h : List Completion} (hr : Reported s h)
    {a : RegistryAction} (ha : ∀ index answer, a≠.syncFinish index answer) :
    Reported (step s a) h := by
  refine ⟨keyed_step s a hr.keyed,fun c hc => (hr.past c hc).trans_le (step_nextUid s a),?_⟩
  intro sid e hg
  cases step_origin hg with
  | registered server action named made =>
    rw [made]
    exact told_registered hr.past server sid
  | settings old found server named made =>
    obtain ⟨hhealthy,herror,htools⟩ := hr.told sid old found
    rw [made]
    exact ⟨hhealthy,herror,htools⟩
  | synced old found index answer action captured made => exact absurd action (ha index answer)

/-- The end of a synchronization. -/
theorem reported_finish {s : RegistryRun} {h : List Completion} (hr : Reported s h) (index : ℕ)
    (answer : Except String (List RawTool)) :
    Reported (step s (.syncFinish index answer))
      (h++(completion s (.syncFinish index answer)).toList) := by
  have hkeyed := keyed_step s (.syncFinish index answer) hr.keyed
  have hnext := step_nextUid s (.syncFinish index answer)
  have hvoid : completion s (.syncFinish index answer)=none→
      (step s (.syncFinish index answer)).registry.entries=s.registry.entries→
      Reported (step s (.syncFinish index answer))
        (h++(completion s (.syncFinish index answer)).toList) := by
    intro hnone hsame
    rw [hnone,Option.toList_none,List.append_nil]
    refine ⟨hkeyed,fun c hc => (hr.past c hc).trans_le hnext,?_⟩
    rw [hsame]
    exact hr.told
  cases hs : s.syncs[index]? with
  | none =>
    refine hvoid ?_ ?_
    · simp only [completion,hs,Option.bind_eq_bind,Option.bind_none]
    · simp only [step,hs]
  | some captured =>
    obtain ⟨serverId,uid⟩ := captured
    cases hg : s.registry.entries.get? serverId with
    | none =>
      refine hvoid ?_ ?_
      · simp only [completion,hs,hg,Option.bind_eq_bind,Option.bind_some,Option.bind_none]
      · simp only [step,hs,Registry.finishSync,hg,recomputeToolCount_entries]
    | some old =>
      by_cases hu : old.client.uid=uid
      · subst hu
        have hevent : completion s (.syncFinish index answer)=
            some ⟨⟨serverId,old.client.uid⟩,nameAnswer s.registry old answer⟩ := by
          simp only [completion,hs,hg,Option.bind_eq_bind,Option.bind_some,if_true]
        have hentries : (step s (.syncFinish index answer)).registry.entries=
            s.registry.entries.set serverId
              (settle old (nameAnswer s.registry old answer)) := by
          simp only [step,hs,Registry.finishSync,hg,if_true,recomputeToolCount_entries,settle_eq]
        rw [hevent,Option.toList_some]
        refine ⟨hkeyed,?_,?_⟩
        · intro c hc
          rcases List.mem_append.mp hc with hc | hc
          · exact (hr.past c hc).trans_le hnext
          · rw [List.mem_singleton.mp hc]
            exact (hr.keyed serverId old hg).2.2.trans_le hnext
        · intro sid e he
          rw [hentries,Dict.get?_set] at he
          split at he
          · rename_i hsid
            subst hsid
            obtain rfl := Option.some.inj he
            have hsettled := (hr.told serverId old hg).settle (nameAnswer s.registry old answer)
            have hclient : (settle old (nameAnswer s.registry old answer)).client=old.client := by
              cases nameAnswer s.registry old answer <;> rfl
            rw [hclient]
            exact hsettled
          · rename_i hsid
            exact (hr.told sid e he).other (fun hkey =>
              hsid (congrArg Registration.serverId hkey))
      · refine hvoid ?_ ?_
        · simp only [completion,hs,hg,Option.bind_eq_bind,Option.bind_some,if_neg hu]
        · simp only [step,hs,Registry.finishSync,hg,if_neg hu,recomputeToolCount_entries]

/-- Only the end of a synchronization completes one. -/
theorem completion_silent (s : RegistryRun) {a : RegistryAction}
    (ha : ∀ index answer, a≠.syncFinish index answer) : completion s a=none := by
  unfold completion
  split
  · exact absurd rfl (ha _ _)
  · rfl

/-- Every action keeps entries telling. -/
theorem reported_step (s : RegistryRun) (h : List Completion) (a : RegistryAction)
    (hr : Reported s h) : Reported (observe s a).1 (h++(observe s a).2.toList) := by
  unfold observe
  by_cases ha : ∃ index answer, a=.syncFinish index answer
  · obtain ⟨index,answer,rfl⟩ := ha
    exact reported_finish hr index answer
  · have hsilent : ∀ index answer, a≠.syncFinish index answer :=
      fun index answer he => ha ⟨index,answer,he⟩
    rw [completion_silent s hsilent,Option.toList_none,List.append_nil]
    exact reported_silent hr hsilent

end Completions

section Runs

/-- The keys of the items with other values. -/
theorem map_values_nodup {ν : Type} (entries : Dict String RegistryEntry) (f : RegistryEntry→ν) :
    ((entries.items.map (fun item => (item.1,f item.2))).map Prod.fst).Nodup := by
  rw [List.map_map]
  exact entries.nodup

/-- A table made of the entries has a value for each. -/
theorem get?_table {ν : Type} (entries : Dict String RegistryEntry) (f : RegistryEntry→ν)
    (sid : String) :
    (Dict.ofItems (entries.items.map (fun item => (item.1,f item.2)))).get? sid=
      (entries.get? sid).map f := by
  have hitems := Dict.ofItems_items (map_values_nodup entries f)
  unfold Dict.get?
  rw [hitems]
  generalize entries.items=items
  induction items with
  | nil => rfl
  | cons item rest ih =>
    rw [List.map_cons,Dict.find,Dict.find,ih]
    split <;> rfl

/-- The words of a keyed registry are by its ids. -/
theorem statuses_keyed {reg : Registry} (hk : Keyed reg) :
    reg.entries.values.map (fun e => (e.server.id,healthWord e.healthy))=
      reg.entries.items.map (fun item => (item.1,healthWord item.2.healthy)) := by
  rw [Dict.values,List.map_map]
  refine List.map_congr_left ?_
  rintro ⟨sid,e⟩ hitem
  exact congrArg (fun id => (id,healthWord e.healthy)) (hk sid e (Dict.mem_items_iff.mp hitem)).1

/-- The words of a keyed registry, in order. -/
theorem statuses_values {reg : Registry} (hk : Keyed reg) :
    (healthz reg).upstreams.values=reg.entries.values.map (fun e => healthWord e.healthy) := by
  have hitems := Dict.ofItems_items (map_values_nodup reg.entries (fun e => healthWord e.healthy))
  unfold healthz
  dsimp only
  rw [statuses_keyed hk,Dict.values,hitems,Dict.values,List.map_map,List.map_map]
  rfl

/-- The word of a server tells its health. -/
theorem healthWord_eq (healthy : Bool) : (healthWord healthy=="unhealthy")=!healthy := by
  cases healthy <;> rfl

/-- The status counts the servers that are not healthy. -/
theorem healthz_status {reg : Registry} (hk : Keyed reg) : (healthz reg).status=
    if reg.entries.values≠[] ∧ ∀ e∈reg.entries.values, e.healthy=false then "down"
    else if ∃ e∈reg.entries.values, e.healthy=false then "degraded"
    else "ok" := by
  have hvalues := statuses_values hk
  unfold healthz at hvalues ⊢
  dsimp only at hvalues ⊢
  rw [hvalues]
  refine if_congr ?_ rfl (if_congr ?_ rfl rfl)
  · rw [List.all_map,List.all_eq_true]
    simp only [Function.comp,healthWord_eq,Bool.not_eq_true',ne_eq,List.map_eq_nil_iff]
  · rw [List.any_map,List.any_eq_true]
    simp only [Function.comp,healthWord_eq,Bool.not_eq_true']

/-- Nothing is wrong exactly when all servers are healthy. -/
theorem status_ok {reg : Registry} (hk : Keyed reg) :
    (healthz reg).status="ok" ↔ ∀ e∈reg.entries.values, e.healthy=true := by
  rw [healthz_status hk]
  constructor
  · intro hok e he
    by_contra hbad
    have hsome : ∃ e∈reg.entries.values, e.healthy=false := ⟨e,he,Bool.eq_false_iff.mpr hbad⟩
    rw [if_pos hsome] at hok
    split at hok
    · exact absurd hok (by decide)
    · exact absurd hok (by decide)
  · intro hall
    have hnone : ¬∃ e∈reg.entries.values, e.healthy=false := by
      rintro ⟨e,he,hbad⟩
      rw [hall e he] at hbad
      cases hbad
    have hnot : ¬(reg.entries.values≠[] ∧ ∀ e∈reg.entries.values, e.healthy=false) := by
      rintro ⟨hne,hbad⟩
      obtain ⟨e,he⟩ := List.exists_mem_of_ne_nil _ hne
      exact hnone ⟨e,he,hbad e he⟩
    rw [if_neg hnot,if_neg hnone]

/-- All is wrong exactly when there are servers and none is healthy. -/
theorem status_down {reg : Registry} (hk : Keyed reg) : (healthz reg).status="down" ↔
    reg.entries.values≠[] ∧ ∀ e∈reg.entries.values, e.healthy=false := by
  rw [healthz_status hk]
  constructor
  · intro hdown
    by_contra hnot
    rw [if_neg hnot] at hdown
    split at hdown
    · exact absurd hdown (by decide)
    · exact absurd hdown (by decide)
  · exact fun hbad => if_pos hbad

/-- The last synchronization of a registered server that ended succeeded. -/
def Well (h : List Completion) (sid : String) (e : RegistryEntry) : Prop :=
  ∃ c, lastOf h ⟨sid,e.client.uid⟩=some c ∧ c.succeeded=true

/-- What the reports of a registry tell, by the completions so far. -/
structure Truthful (reg : Registry) (h : List Completion) : Prop where
  /-- The report of a server is of its present registration. -/
  servers : ∀ sid e, reg.entries.get? sid=some e→
    (toDict reg).get? sid=some (report e) ∧ Told e h ⟨sid,e.client.uid⟩
  /-- Nothing else is reported. -/
  only : ∀ sid, reg.entries.get? sid=none→(toDict reg).get? sid=none
  /-- All is well exactly when all servers are. -/
  ok : (healthz reg).status="ok" ↔ ∀ sid e, reg.entries.get? sid=some e→Well h sid e
  /-- The gateway is down exactly when it has servers and none is well. -/
  down : (healthz reg).status="down" ↔ (∃ sid e, reg.entries.get? sid=some e) ∧
    ∀ sid e, reg.entries.get? sid=some e→¬Well h sid e

/-- Health is being well. -/
theorem Told.well {e : RegistryEntry} {h : List Completion} {sid : String}
    (ht : Told e h ⟨sid,e.client.uid⟩) : e.healthy=true ↔ Well h sid e := by
  rw [ht.healthy,Well,Option.any_eq_true]

/-- In every run of registrations, removals, settings changes and overlapping
synchronizations, with whatever answers: reports and health are of the last
synchronization that each present registration completed. Answers to earlier
registrations of an id do not show. -/
theorem reports_truthful (naming : NamingConfig) (policy : CircuitBreakerPolicy)
    (actions : List RegistryAction) :
    let r := run observe (start naming policy) actions
    Truthful r.1.registry r.2 := by
  intro r
  have hstart : Reported (start naming policy) [] :=
    ⟨keyed_start naming policy,fun _ hc => absurd hc List.not_mem_nil,fun _ _ hg => (by cases hg)⟩
  have hrun := run_invariant reported_step hstart actions
  rw [List.nil_append] at hrun
  have hhealthy : ∀ sid e, r.1.registry.entries.get? sid=some e→
      (e.healthy=true ↔ Well r.2 sid e) := fun sid e hg => (hrun.told sid e hg).well
  refine ⟨?_,?_,?_,?_⟩
  · intro sid e hg
    refine ⟨?_,hrun.told sid e hg⟩
    rw [toDict,get?_table,hg]
    rfl
  · intro sid hg
    rw [toDict,get?_table,hg]
    rfl
  · rw [status_ok hrun.keyed]
    constructor
    · intro hall sid e hg
      exact (hhealthy sid e hg).mp (hall e (Dict.mem_values_iff.mpr ⟨sid,hg⟩))
    · intro hall e he
      obtain ⟨sid,hg⟩ := Dict.mem_values_iff.mp he
      exact (hhealthy sid e hg).mpr (hall sid e hg)
  · rw [status_down hrun.keyed]
    constructor
    · rintro ⟨hne,hbad⟩
      obtain ⟨e,he⟩ := List.exists_mem_of_ne_nil _ hne
      refine ⟨(Dict.mem_values_iff.mp he).imp (fun sid hg => ⟨e,hg⟩),?_⟩
      intro sid other hg hwell
      have hwrong := hbad other (Dict.mem_values_iff.mpr ⟨sid,hg⟩)
      rw [(hhealthy sid other hg).mpr hwell] at hwrong
      cases hwrong
    · rintro ⟨⟨sid,e,hg⟩,hbad⟩
      refine ⟨List.ne_nil_of_mem (Dict.mem_values_iff.mpr ⟨sid,hg⟩),?_⟩
      intro other ho
      obtain ⟨sid',hg'⟩ := Dict.mem_values_iff.mp ho
      exact Bool.eq_false_iff.mpr (fun hh => hbad sid' other hg' ((hhealthy sid' other hg').mp hh))

end Runs

end McpGateway.HealthReports
