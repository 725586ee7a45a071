import Mathlib
import McpGateway.StepRun
import McpGateway.PyRuntime
import McpGateway.ToolOrchestrator
import McpGateway.AuditLog
import McpGateway.OffsetPaging

/-!
# Reading the audit log

The audit endpoint returns one page of the rows that match its filters, newest
first; which of two rows of one instant comes first is the database's choice,
and may differ from one statement to the next. A client walks through the log
page by page while the store goes on recording, flushing and stopping.
-/

namespace McpGateway.AuditQueries

open StepRun PyRuntime ToolOrchestrator AuditLog OffsetPaging

/-- Filters of a query. -/
structure AuditFilters where
  /-- Wanted agent. -/
  agentId : Option String := none
  /-- Wanted server. -/
  serverId : Option String := none
  /-- Wanted raw tool name. -/
  toolName : Option String := none
  /-- Wanted status. -/
  status : Option String := none

/-- One clause: a missing or empty filter adds none. -/
def clause (filter : Option String) (column : String) : Bool :=
  match filter with
  | none => true
  | some text => text=="" || column==text

/-- The `where` clauses of a query. -/
def AuditFilters.admits (f : AuditFilters) (row : AuditEntry) : Bool :=
  clause f.agentId row.agentId && clause f.serverId row.serverId &&
    clause f.toolName row.toolName && clause f.status row.status

/-- A statement as it is sent to the database. -/
structure Statement where
  /-- Its clauses. -/
  filters : AuditFilters
  /-- `LIMIT`. -/
  limit : ℕ
  /-- `OFFSET`. -/
  offset : ℕ

/-- How a database orders the matching rows of a statement by time, newest
first. -/
structure SqlEngine where
  /-- The rows in the order of the answer. -/
  arrange : Statement→List AuditEntry→List AuditEntry
  /-- No row is lost or repeated. -/
  perm : ∀ s rows, (arrange s rows).Perm rows
  /-- Newer rows come first. -/
  newestFirst : ∀ s rows, Descending AuditEntry.timestamp (arrange s rows)

/-- Rows of the table that match. -/
def matching (f : AuditFilters) (store : AuditStore) : List AuditEntry :=
  store.database.filter f.admits

/-- `AuditStore.query`. -/
def query (engine : SqlEngine) (store : AuditStore) (s : Statement) : List AuditEntry :=
  page (engine.arrange s (matching s.filters store)) s.offset s.limit

/-- Parameters of `GET /v1/audit`. -/
structure AuditRequest where
  /-- The filters. -/
  filters : AuditFilters := {}
  /-- Wanted number of rows. -/
  limit : ℤ := 50
  /-- Rows to skip. -/
  offset : ℤ := 0

/-- Answer of `GET /v1/audit`. -/
structure AuditAnswer where
  /-- The rows. -/
  entries : List AuditEntry
  /-- Their number. -/
  count : ℕ

/-- The statement of a request, whose parameters are checked before. -/
def AuditRequest.statement (q : AuditRequest) : Option Statement :=
  if 1≤q.limit ∧ q.limit≤500 ∧ 0≤q.offset then some ⟨q.filters,q.limit.toNat,q.offset.toNat⟩
  else none

/-- `query_audit`, with the status of a refusal. -/
def queryAudit (engine : SqlEngine) (store : AuditStore) (q : AuditRequest) :
    Except ℕ AuditAnswer :=
  match q.statement with
  | none => .error 422
  | some s =>
    let rows := query engine store s
    .ok ⟨rows,rows.length⟩

/-- What happens while a client reads the log. -/
inductive ReadAction where
  /-- The store does something. -/
  | store (action : AuditAction)
  /-- The client asks for its next page. -/
  | nextPage

/-- The store and a client that reads it. -/
structure ReadRun where
  /-- The store with its tasks. -/
  log : AuditRun
  /-- The client. -/
  walk : Walk AuditEntry := {}

/-- One action. A client that got a short page asks no more. -/
def step (rt : Runtime) (engine : SqlEngine) (f : AuditFilters) (limit : ℕ) (s : ReadRun) :
    ReadAction→ReadRun
  | .store action => {s with log := AuditLog.step rt s.log action}
  | .nextPage =>
    if s.walk.ended=true then s
    else
      match queryAudit engine s.log.store ⟨f,limit,s.walk.offset⟩ with
      | .error _ => s
      | .ok answer => {s with walk := s.walk.turn limit answer.entries}

/-- Number of pages that a schedule asks for. -/
def pages (actions : List ReadAction) : ℕ :=
  actions.countP (fun a => match a with
    | .nextPage => true
    | .store _ => false)

section Log

variable (rt : Runtime) (r : AuditRun) (a : AuditAction)

/-- A flush adds rows to the table, or none. -/
theorem endFlush_database (store : AuditStore) (batch : List AuditEntry)
    (outcome : CommitOutcome) :
    ∃ added, (store.endFlush batch outcome).database=store.database++added := by
  unfold AuditStore.endFlush
  split
  · exact ⟨batch,rfl⟩
  · exact ⟨[],(List.append_nil _).symm⟩

/-- Rows are only ever added to the table. -/
theorem step_database :
    ∃ added, (AuditLog.step rt r a).store.database=r.store.database++added := by
  have heffect := step_effect rt r a
  generalize AuditLog.step rt r a=r' at heffect ⊢
  have hkept : ∃ added, r.store.database=r.store.database++added := ⟨[],(List.append_nil _).symm⟩
  cases heffect with
  | consumerCommit hc => exact endFlush_database _ _ _
  | cancelCommitting hc => exact endFlush_database _ _ _
  | finalCommit hs => exact endFlush_database _ _ _
  | idle => exact hkept
  | accept => exact hkept
  | start hc hs => exact hkept
  | wake hc hs => exact hkept
  | cancelSleeping hc => exact hkept
  | stop hs => exact hkept
  | emptyFlush hs hc hq => exact hkept
  | finalFlush hs hc => exact hkept
  | dispose hs => exact hkept

/-- Nothing is held that was not accepted. -/
def Recorded (r : AuditRun) : Prop := held r⊆ r.accepted

/-- A batch that is dropped leaves the others held. -/
theorem held_dropped (ha : Abandons r a) : held (AuditLog.step rt r a)⊆held r := by
  cases a with
  | consumerCommit outcome =>
    obtain ⟨hb,hl⟩ := ha
    obtain ⟨batch,hc,-⟩ := Consumer.committing_of_batch hb
    simp only [AuditLog.step,hc,endFlush_lost _ _ hl,held,Consumer.batch]
    intro e he
    simp only [List.mem_append] at he ⊢
    tauto
  | cancelConsumer stored =>
    obtain ⟨hb,rfl⟩ := ha
    obtain ⟨batch,hc,-⟩ := Consumer.committing_of_batch hb
    have hlost : (CommitOutcome.cancelled false).lands=false := rfl
    simp only [AuditLog.step,hc,endFlush_lost _ _ hlost,held,Consumer.batch]
    intro e he
    simp only [List.mem_append] at he ⊢
    tauto
  | finalCommit outcome =>
    obtain ⟨hb,hl⟩ := ha
    obtain ⟨batch,hs,-⟩ := Shutdown.committing_of_batch hb
    simp only [AuditLog.step,hs,endFlush_lost _ _ hl,held,Shutdown.batch]
    intro e he
    simp only [List.mem_append] at he ⊢
    tauto
  | _ => exact ha.elim

/-- Every action keeps to what was accepted. -/
theorem recorded_step (h : Recorded r) : Recorded (AuditLog.step rt r a) := by
  by_cases ha : Abandons r a
  · have haccepted := (held_abandoned rt r a ha).1
    intro e he
    rw [haccepted]
    exact h (held_dropped rt r a ha he)
  · obtain ⟨extra,haccepted,hp⟩ := held_step rt r a ha
    intro e he
    rw [haccepted]
    rcases List.mem_append.mp (hp.subset he) with hold | hnew
    · exact List.mem_append_left _ (h hold)
    · exact List.mem_append_right _ hnew

/-- Rows of the table were accepted. -/
theorem Recorded.database {r : AuditRun} (h : Recorded r) : r.store.database⊆ r.accepted := by
  intro e he
  refine h ?_
  simp only [held,List.mem_append]
  exact Or.inl (Or.inl (Or.inl he))

end Log

section Pages

variable {rt : Runtime} {engine : SqlEngine} {f : AuditFilters} {limit : ℕ} {s : ReadRun}

/-- A request for a page of an admissible size is answered. -/
theorem queryAudit_page (hl : 1≤limit ∧ limit≤500) (engine : SqlEngine) (store : AuditStore)
    (f : AuditFilters) (offset : ℕ) :
    queryAudit engine store ⟨f,limit,offset⟩=
      .ok ⟨query engine store ⟨f,limit,offset⟩,(query engine store ⟨f,limit,offset⟩).length⟩ := by
  have hbounds : (1:ℤ)≤(limit : ℤ) ∧ (limit : ℤ)≤500 ∧ (0:ℤ)≤(offset : ℤ) := by omega
  unfold queryAudit AuditRequest.statement
  rw [if_pos hbounds]
  rfl

/-- What an action does to store and reader, for pages of an admissible size. -/
inductive Turn (rt : Runtime) (engine : SqlEngine) (f : AuditFilters) (limit : ℕ) (s : ReadRun) :
    ReadAction→ReadRun→Prop where
  /-- The store moves. -/
  | store (action : AuditAction) :
    Turn rt engine f limit s (.store action) {s with log := AuditLog.step rt s.log action}
  /-- The reader is through. -/
  | through (he : s.walk.ended=true) : Turn rt engine f limit s .nextPage s
  /-- The reader gets a page. -/
  | read (he : s.walk.ended=false) (arranged : List AuditEntry)
    (perm : arranged.Perm (matching f s.log.store))
    (newestFirst : Descending AuditEntry.timestamp arranged) :
    Turn rt engine f limit s .nextPage
      {s with walk := s.walk.turn limit (page arranged s.walk.offset limit)}

/-- Every action is one of these. -/
theorem step_turn (rt : Runtime) (engine : SqlEngine) (f : AuditFilters) (hl : 1≤limit ∧ limit≤500)
    (s : ReadRun) (a : ReadAction) : Turn rt engine f limit s a (step rt engine f limit s a) := by
  cases a with
  | store action => exact .store action
  | nextPage =>
    unfold step
    dsimp only
    split
    · exact .through ‹_›
    · rename_i he
      rw [queryAudit_page hl]
      exact .read (Bool.eq_false_iff.mpr he) _ (engine.perm _ _) (engine.newestFirst _ _)

/-- The table has at least the rows of an earlier one. -/
theorem Turn.database {a : ReadAction} {s' : ReadRun} (h : Turn rt engine f limit s a s') :
    s.log.store.database<+:s'.log.store.database := by
  cases h with
  | store action =>
    obtain ⟨added,hadded⟩ := step_database rt s.log action
    exact ⟨added,hadded.symm⟩
  | through he => exact List.prefix_rfl
  | read he arranged perm newestFirst => exact List.prefix_rfl

/-- More rows have more that match. -/
theorem matching_mono (f : AuditFilters) {store store' : AuditStore}
    (h : store.database<+:store'.database) :
    (matching f store).Sublist (matching f store') := (h.filter f.admits).sublist

/-- A row that the order tells apart stays covered. -/
theorem covered_turn {a : ReadAction} {s' : ReadRun} (h : Turn rt engine f limit s a s')
    {row : AuditEntry} (hrow : row∈matching f s.log.store)
    (ha : Alone AuditEntry.timestamp (matching f s.log.store) row)
    (hc : Covers AuditEntry.timestamp (matching f s.log.store) row s.walk) :
    Covers AuditEntry.timestamp (matching f s'.log.store) row s'.walk := by
  have hmore := matching_mono f h.database
  cases h with
  | store action => exact hc.grow hmore.subperm
  | through he => exact hc
  | read he arranged perm newestFirst =>
    have halone : Alone AuditEntry.timestamp arranged row := fun y hy => ha y (perm.subset hy)
    have hturned := (hc.grow perm.symm.subperm).turn newestFirst
      (perm.symm.subset hrow) halone limit
    exact hturned.grow perm.subperm

/-- The reader sees rows that match. -/
theorem seen_turn {a : ReadAction} {s' : ReadRun} (h : Turn rt engine f limit s a s')
    (hs : s.walk.seen⊆matching f s.log.store) : s'.walk.seen⊆matching f s'.log.store := by
  have hmore := matching_mono f h.database
  cases h with
  | store action => exact fun row hrow => hmore.subset (hs hrow)
  | through he => exact hs
  | read he arranged perm newestFirst =>
    intro row hrow
    rcases List.mem_append.mp hrow with hold | hnew
    · exact hs hold
    · exact perm.subset (mem_of_mem_page hnew)

/-- A reader that goes on is within the rows that match. -/
theorem within_turn {a : ReadAction} {s' : ReadRun} (h : Turn rt engine f limit s a s')
    (hs : s.walk.ended=false→s.walk.offset≤(matching f s.log.store).length) :
    s'.walk.ended=false→s'.walk.offset≤(matching f s'.log.store).length := by
  have hmore := (matching_mono f h.database).length_le
  cases h with
  | store action => exact fun he => (hs he).trans hmore
  | through he => exact hs
  | read he arranged perm newestFirst =>
    intro hgoes
    have hfull : ¬(page arranged s.walk.offset limit).length<limit := of_decide_eq_false hgoes
    have hoffset := hs he
    rw [page,List.length_take,List.length_drop,perm.length_eq] at hfull
    have hnext : s.walk.offset+limit≤(matching f s.log.store).length := by omega
    exact hnext

/-- Unchanged rows with different times are read in their only order. -/
theorem reads_turn {a : ReadAction} {s' : ReadRun} (h : Turn rt engine f limit s a s')
    (hsame : s'.log.store.database=s.log.store.database) {rows : List AuditEntry}
    (hp : rows.Perm (matching f s.log.store)) (hd : Descending AuditEntry.timestamp rows)
    (ha : ∀ row∈rows, Alone AuditEntry.timestamp rows row) (hr : Reads rows s.walk) :
    Reads rows s'.walk := by
  cases h with
  | store action => exact hr
  | through he => exact hr
  | read he arranged perm newestFirst =>
    have hunique : rows=arranged := descending_unique (hp.trans perm.symm) hd newestFirst ha
    rw [←hunique]
    exact hr.turn limit

end Pages

section Runs

variable {rt : Runtime} {engine : SqlEngine} {f : AuditFilters} {limit : ℕ}

/-- The table has at least the rows it had before a run. -/
theorem run_database (rt : Runtime) (engine : SqlEngine) (f : AuditFilters)
    (hl : 1≤limit ∧ limit≤500) (s : ReadRun) (actions : List ReadAction) :
    s.log.store.database<+:
      (final (step rt engine f limit) s actions).log.store.database := by
  refine final_invariant (I:=fun s' : ReadRun => s.log.store.database<+:s'.log.store.database) ?_
    List.prefix_rfl actions
  intro s' a hs
  exact hs.trans (step_turn rt engine f hl s' a).database

/-- A row that the order tells apart in the end is covered all along. -/
theorem run_covered (hl : 1≤limit ∧ limit≤500) {s : ReadRun} {actions : List ReadAction}
    {row : AuditEntry} (hrow : row∈matching f s.log.store)
    (ha : Alone AuditEntry.timestamp
      (matching f (final (step rt engine f limit) s actions).log.store) row)
    (hc : Covers AuditEntry.timestamp (matching f s.log.store) row s.walk) :
    Covers AuditEntry.timestamp
      (matching f (final (step rt engine f limit) s actions).log.store) row
      (final (step rt engine f limit) s actions).walk := by
  induction actions generalizing s with
  | nil => exact hc
  | cons a rest ih =>
    have hturn := step_turn rt engine f hl s a
    have hmore := matching_mono f
      (run_database rt engine f hl s (a::rest))
    have halone : Alone AuditEntry.timestamp (matching f s.log.store) row :=
      fun y hy => ha y (hmore.subset hy)
    exact ih ((matching_mono f hturn.database).subset hrow) ha (covered_turn hturn hrow halone hc)

/-- A reader that goes on has asked for every page so far. -/
theorem run_offset (hl : 1≤limit ∧ limit≤500) {s : ReadRun} {actions : List ReadAction}
    (he : (final (step rt engine f limit) s actions).walk.ended=false) :
    s.walk.ended=false ∧ (final (step rt engine f limit) s actions).walk.offset=
      s.walk.offset+limit*pages actions := by
  induction actions generalizing s with
  | nil => exact ⟨he,rfl⟩
  | cons a rest ih =>
    obtain ⟨hgoes,hoffset⟩ := ih he
    have hturn := step_turn rt engine f hl s a
    have hfinal : final (step rt engine f limit) s (a::rest)=
        final (step rt engine f limit) (step rt engine f limit s a) rest := rfl
    rw [hfinal,hoffset]
    generalize step rt engine f limit s a=s' at hturn hgoes
    cases hturn with
    | store action => exact ⟨hgoes,rfl⟩
    | through hend => exact absurd hgoes (by rw [hend]; exact Bool.true_eq_false_eq_False)
    | read hend arranged perm newestFirst =>
      refine ⟨hend,?_⟩
      have hpages : pages (.nextPage::rest)=pages rest+1 := List.countP_cons_of_pos rfl
      rw [hpages,Nat.mul_succ]
      show s.walk.offset+limit+limit*pages rest=s.walk.offset+(limit*pages rest+limit)
      omega

/-- What a client that reads page by page is told. -/
structure Told (f : AuditFilters) (limit asked : ℕ) (first last : ReadRun) : Prop where
  /-- At the end it has every row that was there when it began, unless another
  row has its time. -/
  complete : last.walk.ended=true→∀ row∈matching f first.log.store,
    Alone AuditEntry.timestamp (matching f last.log.store) row→ row∈last.walk.seen
  /-- It gets only recorded rows that match. -/
  sound : ∀ row∈last.walk.seen, row∈last.log.accepted ∧ f.admits row=true
  /-- It ends when it has asked for more rows than there are. -/
  timely : (matching f last.log.store).length<limit*asked→last.walk.ended=true
  /-- If no row was added, and times tell rows apart, it gets each row that
  matches once, the newest first. -/
  once : last.log.store.database=first.log.store.database→
    (∀ row∈matching f last.log.store, Alone AuditEntry.timestamp (matching f last.log.store) row)→
    last.walk.ended=true→last.walk.seen.Perm (matching f last.log.store) ∧
      Descending AuditEntry.timestamp last.walk.seen

/-- A store reached by a run holds what was accepted. -/
theorem recorded_run (rt : Runtime) (r : AuditRun) (h : Recorded r) (actions : List AuditAction) :
    Recorded (final (AuditLog.step rt) r actions) :=
  final_invariant (fun r a h => recorded_step rt r a h) h actions

/-- Rows are read out of the table. -/
theorem run_sound (rt : Runtime) (engine : SqlEngine) (f : AuditFilters)
    (hl : 1≤limit ∧ limit≤500) {s : ReadRun} (hs : Recorded s.log)
    (hseen : s.walk.seen⊆matching f s.log.store) (actions : List ReadAction) :
    Recorded (final (step rt engine f limit) s actions).log ∧
      (final (step rt engine f limit) s actions).walk.seen⊆
        matching f (final (step rt engine f limit) s actions).log.store := by
  refine final_invariant (I:=fun s : ReadRun => Recorded s.log ∧
    s.walk.seen⊆matching f s.log.store) ?_ ⟨hs,hseen⟩ actions
  rintro s a ⟨hrecorded,hread⟩
  have hturn := step_turn rt engine f hl s a
  refine ⟨?_,seen_turn hturn hread⟩
  generalize step rt engine f limit s a=s' at hturn
  cases hturn with
  | store action => exact recorded_step rt s.log action hrecorded
  | through he => exact hrecorded
  | read he arranged perm newestFirst => exact hrecorded

/-- A reader of unchanged rows reads them in their only order. -/
theorem run_reads (rt : Runtime) (engine : SqlEngine) (f : AuditFilters)
    (hl : 1≤limit ∧ limit≤500) {s : ReadRun} {actions : List ReadAction} {rows : List AuditEntry}
    (hsame : (final (step rt engine f limit) s actions).log.store.database=s.log.store.database)
    (hp : rows.Perm (matching f s.log.store)) (hd : Descending AuditEntry.timestamp rows)
    (ha : ∀ row∈rows, Alone AuditEntry.timestamp rows row) (hr : Reads rows s.walk) :
    Reads rows (final (step rt engine f limit) s actions).walk := by
  induction actions generalizing s with
  | nil => exact hr
  | cons a rest ih =>
    have hturn := step_turn rt engine f hl s a
    have hlater := run_database rt engine f hl (step rt engine f limit s a) rest
    have hsame' : (final (step rt engine f limit) (step rt engine f limit s a)
        rest).log.store.database=s.log.store.database := hsame
    rw [hsame'] at hlater
    have hnow : (step rt engine f limit s a).log.store.database=s.log.store.database :=
      hlater.sublist.antisymm hturn.database.sublist
    have hmatching : matching f (step rt engine f limit s a).log.store=matching f s.log.store := by
      rw [matching,hnow,matching]
    refine ih (hsame'.trans hnow.symm) ?_ (reads_turn hturn hnow hp hd ha hr)
    rw [hmatching]
    exact hp

/-- A client that reads the log of a store in any state it can reach, page by
page, while the store records, flushes, fails, is cancelled and stops: it misses
no row that was there, it is shown no row that was not recorded, and it comes to
an end. -/
theorem walk_told (rt : Runtime) (engine : SqlEngine) (f : AuditFilters) {limit : ℕ}
    (hl : 1≤limit ∧ limit≤500) (before : List AuditAction) (actions : List ReadAction) :
    Told f limit (pages actions) ⟨final (AuditLog.step rt) {} before,{}⟩
      (final (step rt engine f limit) ⟨final (AuditLog.step rt) {} before,{}⟩ actions) := by
  have hrecorded : Recorded (final (AuditLog.step rt) {} before) :=
    recorded_run rt {} (fun _ he => he) before
  generalize final (AuditLog.step rt) {} before=r at hrecorded
  obtain ⟨hlog,hseen⟩ := run_sound rt engine f hl (s:=⟨r,{}⟩) hrecorded (List.nil_subset _) actions
  refine ⟨?_,?_,?_,?_⟩
  · intro he row hrow ha
    exact (run_covered hl hrow ha covers_start).read he
  · intro row hrow
    obtain ⟨hstored,hadmits⟩ := List.mem_filter.mp (hseen hrow)
    exact ⟨hlog.database hstored,hadmits⟩
  · intro hfew
    by_contra hgoes
    have hended := Bool.eq_false_iff.mpr hgoes
    have hoffset := (run_offset hl hended).2
    have hwithin := final_invariant (I:=fun s : ReadRun =>
      s.walk.ended=false→s.walk.offset≤(matching f s.log.store).length)
      (fun s a hs => within_turn (step_turn rt engine f hl s a) hs) (fun _ => Nat.zero_le _)
      actions hended
    rw [hoffset] at hwithin
    omega
  · intro hsame ha he
    have hmatching : matching f (final (step rt engine f limit) ⟨r,{}⟩ actions).log.store=
        matching f r.store := by
      rw [matching,hsame,matching]
    rw [hmatching] at ha ⊢
    have hp := engine.perm ⟨f,limit,0⟩ (matching f r.store)
    have hd := engine.newestFirst ⟨f,limit,0⟩ (matching f r.store)
    have halone : ∀ row∈engine.arrange ⟨f,limit,0⟩ (matching f r.store),
        Alone AuditEntry.timestamp (engine.arrange ⟨f,limit,0⟩ (matching f r.store)) row :=
      fun row hrow y hy => ha row (hp.subset hrow) y (hp.subset hy)
    have hreads := run_reads rt engine f hl hsame hp hd halone reads_start
    rw [hreads.complete he]
    exact ⟨hp,hd⟩

/-- A database that keeps rows of one instant in the order of the table. -/
def stableEngine : SqlEngine where
  arrange _ rows := rows.mergeSort (fun a b => decide (b.timestamp≤a.timestamp))
  perm _ rows := List.mergeSort_perm rows _
  newestFirst _ rows := by
    have hsorted : (rows.mergeSort (fun a b => decide (b.timestamp≤a.timestamp))).Pairwise
        (fun a b => decide (b.timestamp≤a.timestamp)=true) := by
      refine List.pairwise_mergeSort ?_ ?_ rows
      · intro a b c hab hbc
        rw [decide_eq_true_iff] at hab hbc ⊢
        exact hbc.trans hab
      · intro a b
        rw [Bool.or_eq_true,decide_eq_true_iff,decide_eq_true_iff]
        exact le_total _ _
    exact hsorted.imp (fun hle => of_decide_eq_true hle)

theorem walk_told_recorded :
    let before := [AuditAction.record "1" 5 plainRecord,.start,.wake,.consumerCommit .committed]
    let first : ReadRun := ⟨final (AuditLog.step asciiRuntime) {} before,{}⟩
    Told {} 1 2 first (final (step asciiRuntime stableEngine {} 1) first
      [.nextPage,.store (.record "2" 6 plainRecord),.nextPage]) := by
  have hl : 1≤1 ∧ 1≤500 := by decide
  exact walk_told asciiRuntime stableEngine {} hl _
    [.nextPage,.store (.record "2" 6 plainRecord),.nextPage]

end Runs

end McpGateway.AuditQueries
