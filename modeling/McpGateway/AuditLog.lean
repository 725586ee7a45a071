import Mathlib
import McpGateway.PyText
import McpGateway.StepRun
import McpGateway.JsonValue
import McpGateway.ToolAuthorizer
import McpGateway.PyRuntime
import McpGateway.ToolOrchestrator

/-!
# The audit store

Records go into a bounded queue without waiting. A consumer task wakes up,
takes one batch off the queue and commits it; stopping the store cancels the
consumer, waits for it and flushes one last batch. A commit may fail, and a
flush may be cancelled while it waits for one. The accepted entries are kept
beside the store for comparison.
-/

namespace McpGateway.AuditLog

open PyText StepRun JsonValue ToolAuthorizer PyRuntime ToolOrchestrator

/-- A row of the audit table. -/
structure AuditEntry where
  /-- Primary key, a fresh UUID. -/
  id : String
  /-- Time of the record. -/
  timestamp : ℚ
  /-- Request id. -/
  requestId : String
  /-- Calling agent. -/
  agentId : String
  /-- Resolved server. -/
  serverId : String
  /-- Raw tool name. -/
  toolName : String
  /-- Qualified tool name. -/
  qualifiedName : String
  /-- Whether the tool is mutable. -/
  mutable : Bool
  /-- Final status. -/
  status : String
  /-- Whether the call failed. -/
  isError : Bool
  /-- Text of the failure. -/
  errorDetail : Option String
  /-- Milliseconds. -/
  latencyMs : ℚ
  /-- Whether a guardrail blocked it. -/
  guardrailBlocked : Bool
  /-- Whether authorization refused it. -/
  authDenied : Bool
  /-- Whether it was rate limited. -/
  rateLimited : Bool
  /-- Whether anything was redacted. -/
  redacted : Bool
  /-- Fingerprint of the arguments, which are not stored. -/
  argumentsHash : String

/-- `_hash_args`. -/
def hashArgs (rt : Runtime) (arguments : Json) : String :=
  takeChars (rt.sha256 (arguments.dumps rt.reprFloat)) 16

/-- The row that `record` builds. -/
def newEntry (rt : Runtime) (id : String) (timestamp : ℚ) (fields : AuditRecord) : AuditEntry where
  id := id
  timestamp := timestamp
  requestId := fields.requestId
  agentId := fields.agentId
  serverId := fields.serverId
  toolName := fields.toolName
  qualifiedName := fields.qualifiedName
  mutable := fields.mutable
  status := fields.status
  isError := fields.isError
  errorDetail := fields.errorDetail
  latencyMs := fields.latencyMs
  guardrailBlocked := fields.guardrailBlocked
  authDenied := fields.authDenied
  rateLimited := fields.rateLimited
  redacted := fields.redacted
  argumentsHash := hashArgs rt fields.arguments

/-- `_BATCH`. -/
def batchSize : ℕ := 50

/-- `maxsize` of the queue. -/
def queueCapacity : ℕ := 10000

/-- The collecting loop of `_flush`: entries from the front while the queue has
any and the batch has room, and the queue that is left. -/
def collect {α : Type} : ℕ→List α→List α×List α
  | 0,queue => ([],queue)
  | _+1,[] => ([],[])
  | room+1,entry::queue =>
    let rest := collect room queue
    (entry::rest.1,rest.2)

/-- How waiting for a commit ends. -/
inductive CommitOutcome where
  /-- The commit succeeds. -/
  | committed
  /-- The session raises; the error is logged. -/
  | failed
  /-- The waiting task is cancelled, before or after the rows are stored. -/
  | cancelled (stored : Bool)

/-- Whether the rows are stored. -/
def CommitOutcome.lands : CommitOutcome→Bool
  | .committed => true
  | .failed => false
  | .cancelled stored => stored

/-- Queue and table. -/
structure AuditStore where
  /-- `_queue`. -/
  queue : List AuditEntry := []
  /-- Rows in commit order. -/
  database : List AuditEntry := []

/-- The end of a flush. -/
def AuditStore.endFlush (store : AuditStore) (batch : List AuditEntry) (outcome : CommitOutcome) :
    AuditStore :=
  if outcome.lands=true then {store with database := store.database++batch} else store

/-- The consumer task. -/
inductive Consumer where
  /-- Not started, or ended. -/
  | absent
  /-- Waiting for the next flush. -/
  | sleeping
  /-- Waiting for the commit of a batch. -/
  | committing (batch : List AuditEntry)

/-- Progress of `stop`. -/
inductive Shutdown where
  /-- Not called. -/
  | running
  /-- The consumer is cancelled and awaited. -/
  | awaiting
  /-- Waiting for the commit of the last batch. -/
  | committing (batch : List AuditEntry)
  /-- Waiting for the engine to be disposed. -/
  | disposing
  /-- Returned. -/
  | stopped

/-- The store with its tasks. -/
structure AuditRun where
  /-- Queue and table. -/
  store : AuditStore := {}
  /-- The consumer task. -/
  consumer : Consumer := .absent
  /-- The stopping task. -/
  shutdown : Shutdown := .running
  /-- Entries that were accepted into the queue, in order. -/
  accepted : List AuditEntry := []

/-- One thing that can happen next. -/
inductive AuditAction where
  /-- `record`, with the identifier and time it draws. -/
  | record (id : String) (timestamp : ℚ) (fields : AuditRecord)
  /-- `start`. -/
  | start
  /-- The consumer wakes up and flushes. -/
  | wake
  /-- The commit the consumer waits for ends. -/
  | consumerCommit (outcome : CommitOutcome)
  /-- The cancellation of the consumer arrives at its await. -/
  | cancelConsumer (stored : Bool)
  /-- `stop`, up to the consumer's end. -/
  | stop
  /-- The flush of `stop`. -/
  | finalFlush
  /-- The commit that `stop` waits for ends. -/
  | finalCommit (outcome : CommitOutcome)
  /-- The engine is disposed. -/
  | dispose

/-- One action. Actions that no task is ready for change nothing. -/
def step (rt : Runtime) (r : AuditRun) : AuditAction→AuditRun
  | .record id timestamp fields =>
    if r.store.queue.length<queueCapacity then
      let entry := newEntry rt id timestamp fields
      {r with
        store := {r.store with queue := r.store.queue++[entry]}
        accepted := r.accepted++[entry]}
    else r
  | .start =>
    match r.consumer,r.shutdown with
    | .absent,.running => {r with consumer := .sleeping}
    | _,_ => r
  | .wake =>
    match r.consumer,r.shutdown with
    | .sleeping,.running =>
      let flushed := collect batchSize r.store.queue
      if flushed.1=[] then r
      else {r with store := {r.store with queue := flushed.2},consumer := .committing flushed.1}
    | _,_ => r
  | .consumerCommit outcome =>
    match r.consumer with
    | .committing batch => {r with store := r.store.endFlush batch outcome,consumer := .sleeping}
    | _ => r
  | .cancelConsumer stored =>
    match r.consumer with
    | .absent => r
    | .sleeping => {r with consumer := .absent}
    | .committing batch =>
      {r with store := r.store.endFlush batch (.cancelled stored),consumer := .absent}
  | .stop =>
    match r.shutdown with
    | .running => {r with shutdown := .awaiting}
    | _ => r
  | .finalFlush =>
    match r.shutdown,r.consumer with
    | .awaiting,.absent =>
      let flushed := collect batchSize r.store.queue
      if flushed.1=[] then {r with shutdown := .disposing}
      else {r with store := {r.store with queue := flushed.2},shutdown := .committing flushed.1}
    | _,_ => r
  | .finalCommit outcome =>
    match r.shutdown with
    | .committing batch =>
      {r with store := r.store.endFlush batch outcome,shutdown := .disposing}
    | _ => r
  | .dispose =>
    match r.shutdown with
    | .disposing => {r with shutdown := .stopped}
    | _ => r

/-- The batch the consumer is committing. -/
def Consumer.batch : Consumer→List AuditEntry
  | .committing batch => batch
  | _ => []

/-- The batch the stopping task is committing. -/
def Shutdown.batch : Shutdown→List AuditEntry
  | .committing batch => batch
  | _ => []

/-- Every accepted entry is in exactly one of the table, a batch of a flush in
progress, and the queue. -/
def Conserved (r : AuditRun) : Prop :=
  (r.store.database++r.consumer.batch++r.shutdown.batch++r.store.queue).Perm r.accepted

/-- The action ends a flush in progress whose rows are not stored. -/
def Abandons (r : AuditRun) : AuditAction→Prop
  | .consumerCommit outcome => r.consumer.batch≠[] ∧ outcome.lands=false
  | .cancelConsumer stored => r.consumer.batch≠[] ∧ stored=false
  | .finalCommit outcome => r.shutdown.batch≠[] ∧ outcome.lands=false
  | _ => False

/-- Collecting takes a first part of the queue. -/
theorem collect_eq {α : Type} (room : ℕ) (queue : List α) :
    collect room queue=(queue.take room,queue.drop room) := by
  induction room generalizing queue with
  | zero => rfl
  | succ room ih =>
    cases queue with
    | nil => rfl
    | cons entry queue => rw [collect,ih,List.take_succ_cons,List.drop_succ_cons]

/-- A batch and what is left of the queue make up the queue. -/
theorem collect_append {α : Type} (room : ℕ) (queue : List α) :
    (collect room queue).1++(collect room queue).2=queue := by
  rw [collect_eq]
  exact List.take_append_drop room queue

/-- A flush that is not abandoned adds its batch to the table. -/
theorem endFlush_kept (store : AuditStore) {batch : List AuditEntry} (outcome : CommitOutcome)
    (h : ¬(batch≠[] ∧ outcome.lands=false)) :
    store.endFlush batch outcome={store with database := store.database++batch} := by
  unfold AuditStore.endFlush
  cases hl : outcome.lands with
  | true => rfl
  | false =>
    have hempty : batch=[] := by
      by_contra hn
      exact h ⟨hn,hl⟩
    rw [hempty,List.append_nil]
    rfl

/-- Everything that is stored, in flight or queued. -/
def held (r : AuditRun) : List AuditEntry :=
  r.store.database++r.consumer.batch++r.shutdown.batch++r.store.queue

/-- Moving a batch out of the queue into a flush permutes what is held. -/
theorem perm_collected {α : Type} (stored others queue : List α) (room : ℕ) :
    (stored++(collect room queue).1++others++(collect room queue).2).Perm
      (stored++[]++others++queue) := by
  rw [List.append_nil,List.append_assoc,List.append_assoc,List.append_assoc]
  refine List.Perm.append_left stored ?_
  rw [←List.append_assoc]
  refine (List.perm_append_comm.append_right _).trans ?_
  rw [List.append_assoc,collect_append]

/-- A stored batch is held as before. -/
theorem perm_stored {α : Type} (stored batch others queue : List α) :
    (stored++batch++[]++others++queue).Perm (stored++batch++others++queue) := by
  rw [List.append_nil]

/-- What an action does, with the tasks that are ready for it. -/
inductive Effect (rt : Runtime) (r : AuditRun) : AuditAction→AuditRun→Prop where
  /-- Nothing is ready for it, or it has nothing to do. -/
  | idle {a : AuditAction}
    (hflush : a=.finalFlush→ r.shutdown=.awaiting→ r.consumer≠.absent)
    (hfull : ∀ id timestamp fields, a=.record id timestamp fields→
      queueCapacity≤r.store.queue.length) : Effect rt r a r
  /-- A record is accepted. -/
  | accept {id : String} {timestamp : ℚ} {fields : AuditRecord} :
    Effect rt r (.record id timestamp fields)
      {r with
        store := {r.store with queue := r.store.queue++[newEntry rt id timestamp fields]}
        accepted := r.accepted++[newEntry rt id timestamp fields]}
  /-- The consumer starts. -/
  | start (hc : r.consumer=.absent) (hs : r.shutdown=.running) :
    Effect rt r .start {r with consumer := .sleeping}
  /-- The consumer takes a batch. -/
  | wake (hc : r.consumer=.sleeping) (hs : r.shutdown=.running) :
    Effect rt r .wake {r with
      store := {r.store with queue := (collect batchSize r.store.queue).2}
      consumer := .committing (collect batchSize r.store.queue).1}
  /-- The consumer's commit ends. -/
  | consumerCommit {outcome : CommitOutcome} {batch : List AuditEntry}
    (hc : r.consumer=.committing batch) :
    Effect rt r (.consumerCommit outcome)
      {r with store := r.store.endFlush batch outcome,consumer := .sleeping}
  /-- The waiting consumer is cancelled. -/
  | cancelSleeping {stored : Bool} (hc : r.consumer=.sleeping) :
    Effect rt r (.cancelConsumer stored) {r with consumer := .absent}
  /-- The committing consumer is cancelled. -/
  | cancelCommitting {stored : Bool} {batch : List AuditEntry}
    (hc : r.consumer=.committing batch) :
    Effect rt r (.cancelConsumer stored)
      {r with store := r.store.endFlush batch (.cancelled stored),consumer := .absent}
  /-- `stop` is called. -/
  | stop (hs : r.shutdown=.running) : Effect rt r .stop {r with shutdown := .awaiting}
  /-- The last flush finds an empty queue. -/
  | emptyFlush (hs : r.shutdown=.awaiting) (hc : r.consumer=.absent)
    (hq : r.store.queue=[]) : Effect rt r .finalFlush {r with shutdown := .disposing}
  /-- The last flush takes a batch. -/
  | finalFlush (hs : r.shutdown=.awaiting) (hc : r.consumer=.absent) :
    Effect rt r .finalFlush {r with
      store := {r.store with queue := (collect batchSize r.store.queue).2}
      shutdown := .committing (collect batchSize r.store.queue).1}
  /-- The last commit ends. -/
  | finalCommit {outcome : CommitOutcome} {batch : List AuditEntry}
    (hs : r.shutdown=.committing batch) :
    Effect rt r (.finalCommit outcome)
      {r with store := r.store.endFlush batch outcome,shutdown := .disposing}
  /-- `stop` returns. -/
  | dispose (hs : r.shutdown=.disposing) : Effect rt r .dispose {r with shutdown := .stopped}

/-- An empty batch comes from an empty queue. -/
theorem queue_of_empty_batch {queue : List AuditEntry} (h : (collect batchSize queue).1=[]) :
    queue=[] := by
  rw [collect_eq] at h
  exact (List.take_eq_nil_iff.mp h).resolve_left (by decide)

/-- Every step has one of the effects. -/
theorem step_effect (rt : Runtime) (r : AuditRun) (a : AuditAction) :
    Effect rt r a (step rt r a) := by
  cases a with
  | record id timestamp fields =>
    simp only [step]
    split
    · exact .accept
    · rename_i hfull
      exact .idle (fun h => by cases h) (fun _ _ _ _ => not_lt.mp hfull)
  | start =>
    simp only [step]
    split
    · exact .start ‹_› ‹_›
    · exact .idle (fun h => by cases h) (fun _ _ _ h => by cases h)
  | wake =>
    simp only [step]
    split
    · split
      · exact .idle (fun h => by cases h) (fun _ _ _ h => by cases h)
      · exact .wake ‹_› ‹_›
    · exact .idle (fun h => by cases h) (fun _ _ _ h => by cases h)
  | consumerCommit outcome =>
    simp only [step]
    split
    · exact .consumerCommit ‹_›
    · exact .idle (fun h => by cases h) (fun _ _ _ h => by cases h)
  | cancelConsumer stored =>
    simp only [step]
    split
    · exact .idle (fun h => by cases h) (fun _ _ _ h => by cases h)
    · exact .cancelSleeping ‹_›
    · exact .cancelCommitting ‹_›
  | stop =>
    simp only [step]
    split
    · exact .stop ‹_›
    · exact .idle (fun h => by cases h) (fun _ _ _ h => by cases h)
  | finalFlush =>
    simp only [step]
    split
    · split
      · exact .emptyFlush ‹_› ‹_› (queue_of_empty_batch ‹_›)
      · exact .finalFlush ‹_› ‹_›
    · rename_i hready
      exact .idle (fun _ hs hc => hready hs hc) (fun _ _ _ h => by cases h)
  | finalCommit outcome =>
    simp only [step]
    split
    · exact .finalCommit ‹_›
    · exact .idle (fun h => by cases h) (fun _ _ _ h => by cases h)
  | dispose =>
    simp only [step]
    split
    · exact .dispose ‹_›
    · exact .idle (fun h => by cases h) (fun _ _ _ h => by cases h)

/-- An action that abandons no batch holds everything held before, and what it
accepts. -/
theorem held_step (rt : Runtime) (r : AuditRun) (a : AuditAction) (ha : ¬Abandons r a) :
    ∃ extra, (step rt r a).accepted=r.accepted++extra ∧
      (held (step rt r a)).Perm (held r++extra) := by
  have hkeep : ∀ r' : AuditRun, r'.accepted=r.accepted→(held r').Perm (held r)→
      ∃ extra, r'.accepted=r.accepted++extra ∧ (held r').Perm (held r++extra) :=
    fun r' haccepted hp => ⟨[],by rw [haccepted,List.append_nil],by rwa [List.append_nil]⟩
  have hretask : ∀ r' : AuditRun, r'.accepted=r.accepted→held r'=held r→
      ∃ extra, r'.accepted=r.accepted++extra ∧ (held r').Perm (held r++extra) :=
    fun r' haccepted he => hkeep r' haccepted (List.Perm.of_eq he)
  have heffect := step_effect rt r a
  generalize step rt r a=r' at heffect ⊢
  cases heffect with
  | idle => exact hretask _ rfl rfl
  | accept =>
    refine ⟨_,rfl,?_⟩
    simp only [held,List.append_assoc]
    exact List.Perm.refl _
  | start hc hs => exact hretask _ rfl (by simp only [held,hc,Consumer.batch])
  | wake hc hs =>
    refine hkeep _ rfl ?_
    simp only [held,hc,Consumer.batch]
    exact perm_collected _ _ _ _
  | consumerCommit hc =>
    simp only [Abandons,hc,Consumer.batch] at ha
    refine hkeep _ rfl ?_
    simp only [held,endFlush_kept _ _ ha,hc,Consumer.batch]
    exact perm_stored _ _ _ _
  | cancelSleeping hc => exact hretask _ rfl (by simp only [held,hc,Consumer.batch])
  | cancelCommitting hc =>
    simp only [Abandons,hc,Consumer.batch] at ha
    refine hkeep _ rfl ?_
    simp only [held,endFlush_kept _ (.cancelled _) ha,hc,Consumer.batch]
    exact perm_stored _ _ _ _
  | stop hs => exact hretask _ rfl (by simp only [held,hs,Shutdown.batch])
  | emptyFlush hs hc hq => exact hretask _ rfl (by simp only [held,hs,Shutdown.batch])
  | finalFlush hs hc =>
    have hp := perm_collected r.store.database [] r.store.queue batchSize
    refine hkeep _ rfl ?_
    simpa only [held,hs,hc,Shutdown.batch,Consumer.batch,List.append_nil] using hp
  | finalCommit hs =>
    simp only [Abandons,hs,Shutdown.batch] at ha
    refine hkeep _ rfl ?_
    simp only [held,endFlush_kept _ _ ha,hs,Shutdown.batch,List.append_nil]
    refine List.Perm.append_right _ ?_
    rw [List.append_assoc,List.append_assoc]
    exact List.Perm.append_left _ List.perm_append_comm
  | dispose hs => exact hretask _ rfl (by simp only [held,hs,Shutdown.batch])

/-- A flush that does not store its rows leaves the table alone. -/
theorem endFlush_lost (store : AuditStore) (batch : List AuditEntry) {outcome : CommitOutcome}
    (h : outcome.lands=false) : store.endFlush batch outcome=store := by
  unfold AuditStore.endFlush
  rw [h]
  exact if_neg Bool.false_ne_true

/-- A consumer with a batch is committing it. -/
theorem Consumer.committing_of_batch {c : Consumer} (h : c.batch≠[]) :
    ∃ batch, c=.committing batch ∧ batch≠[] := by
  cases c with
  | absent => exact absurd rfl h
  | sleeping => exact absurd rfl h
  | committing batch => exact ⟨batch,rfl,h⟩

/-- A stopping task with a batch is committing it. -/
theorem Shutdown.committing_of_batch {s : Shutdown} (h : s.batch≠[]) :
    ∃ batch, s=.committing batch ∧ batch≠[] := by
  cases s with
  | committing batch => exact ⟨batch,rfl,h⟩
  | _ => exact absurd rfl h

/-- Less is held when a batch is dropped. -/
theorem length_dropped {α : Type} (stored others queue : List α) {batch : List α}
    (h : batch≠[]) :
    (stored++[]++others++queue).length<(stored++batch++others++queue).length := by
  have hpos := List.length_pos_of_ne_nil h
  simp only [List.length_append,List.length_nil]
  omega

/-- An action that abandons a batch holds less than before and accepts
nothing. -/
theorem held_abandoned (rt : Runtime) (r : AuditRun) (a : AuditAction) (ha : Abandons r a) :
    (step rt r a).accepted=r.accepted ∧ (held (step rt r a)).length<(held r).length := by
  cases a with
  | consumerCommit outcome =>
    obtain ⟨hb,hl⟩ := ha
    obtain ⟨batch,hc,hbatch⟩ := Consumer.committing_of_batch hb
    simp only [step,hc,endFlush_lost _ _ hl,held,Consumer.batch]
    exact ⟨trivial,length_dropped _ _ _ hbatch⟩
  | cancelConsumer stored =>
    obtain ⟨hb,rfl⟩ := ha
    obtain ⟨batch,hc,hbatch⟩ := Consumer.committing_of_batch hb
    have hlost : (CommitOutcome.cancelled false).lands=false := rfl
    simp only [step,hc,endFlush_lost _ _ hlost,held,Consumer.batch]
    exact ⟨trivial,length_dropped _ _ _ hbatch⟩
  | finalCommit outcome =>
    obtain ⟨hb,hl⟩ := ha
    obtain ⟨batch,hs,hbatch⟩ := Shutdown.committing_of_batch hb
    have hdropped := length_dropped (r.store.database++r.consumer.batch) [] r.store.queue hbatch
    simp only [step,hs,endFlush_lost _ _ hl,held,Shutdown.batch]
    simpa only [List.append_nil,true_and] using hdropped
  | _ => exact ha.elim

/-- One action conserves the accepted entries exactly when it abandons no
batch. -/
theorem conserved_step (rt : Runtime) (r : AuditRun) (a : AuditAction) (h : Conserved r) :
    Conserved (step rt r a) ↔ ¬Abandons r a := by
  constructor
  · intro hc ha
    obtain ⟨haccepted,hlt⟩ := held_abandoned rt r a ha
    have hbefore := List.Perm.length_eq h
    have hafter := List.Perm.length_eq hc
    rw [haccepted,←hbefore] at hafter
    exact absurd hafter (ne_of_lt hlt)
  · intro ha
    obtain ⟨extra,haccepted,hp⟩ := held_step rt r a ha
    unfold Conserved
    rw [haccepted]
    exact hp.trans (List.Perm.append_right extra h)

/-- Nothing is accepted at the start. -/
theorem conserved_start : Conserved {} := List.Perm.refl []

/-- In every run the accepted entries are conserved throughout exactly when no
flush ends with its batch not stored. -/
theorem conserved_iff (rt : Runtime) (actions : List AuditAction) :
    Always (step rt) Conserved {} actions ↔ Meets (step rt) (fun r a => ¬Abandons r a) {} actions :=
  always_iff_meets (I:=fun _ => True) (fun _ _ _ => trivial)
    (fun r a _ h => conserved_step rt r a h) trivial conserved_start actions

/-- The record of a successful call without arguments. -/
def plainRecord : AuditRecord where
  requestId := "r1"
  agentId := "agent"
  serverId := "pg"
  toolName := "t"
  qualifiedName := "pg.t"
  mutable := false
  arguments := .obj []

/-- One record whose flush ends in a given way. -/
def oneFlush (ending : AuditAction) : List AuditAction :=
  [.start,.record "e1" 0 plainRecord,.wake,ending]

/-- A batch is lost when its commit fails, and when its flush is cancelled. -/
theorem batch_lost :
    ¬Always (step asciiRuntime) Conserved {} (oneFlush (.consumerCommit .failed)) ∧
    ¬Always (step asciiRuntime) Conserved {} (oneFlush (.cancelConsumer false)) := by
  constructor
  · intro h
    exact absurd (List.Perm.length_eq h.final) (by decide)
  · intro h
    exact absurd (List.Perm.length_eq h.final) (by decide)

/-- The last flush has taken its batch. -/
def Shutdown.collected : Shutdown→Bool
  | .running => false
  | .awaiting => false
  | _ => true

/-- The table, the flush in progress and the queue continue each other. -/
structure InOrder (r : AuditRun) : Prop where
  /-- Together they are the accepted entries, in order. -/
  order : r.accepted=held r
  /-- The last flush begins after the consumer has ended. -/
  alone : r.shutdown.collected=true→ r.consumer=.absent

/-- A running or waiting `stop` has not collected. -/
theorem not_collected {r : AuditRun} (h : r.shutdown=.running ∨ r.shutdown=.awaiting) :
    r.shutdown.collected≠true := by
  rcases h with hs | hs
  · rw [hs]
    exact Bool.false_ne_true
  · rw [hs]
    exact Bool.false_ne_true

/-- The last flush begins after the consumer has ended, and it is not started
again. -/
theorem alone_step (rt : Runtime) {r : AuditRun}
    (h : r.shutdown.collected=true→ r.consumer=.absent) (a : AuditAction)
    (hn : (step rt r a).shutdown.collected=true) : (step rt r a).consumer=.absent := by
  have heffect := step_effect rt r a
  generalize step rt r a=r' at heffect hn ⊢
  cases heffect with
  | idle => exact h hn
  | accept => exact h hn
  | start hc hs => exact absurd hn (not_collected (Or.inl hs))
  | wake hc hs => exact absurd hn (not_collected (Or.inl hs))
  | consumerCommit hc =>
    cases (h hn).symm.trans hc
  | cancelSleeping => rfl
  | cancelCommitting => rfl
  | stop => cases hn
  | emptyFlush hs hc => exact hc
  | finalFlush hs hc => exact hc
  | finalCommit hs => exact h (by rw [hs]; rfl)
  | dispose hs => exact h (by rw [hs]; rfl)

/-- An action that abandons no batch keeps the order. -/
theorem inOrder_step (rt : Runtime) {r : AuditRun} (h : InOrder r) (a : AuditAction)
    (ha : ¬Abandons r a) : InOrder (step rt r a) := by
  refine ⟨?_,alone_step rt h.alone a⟩
  have horder := h.order
  have heffect := step_effect rt r a
  generalize step rt r a=r' at heffect ⊢
  cases heffect with
  | idle => exact horder
  | accept => simp only [held,horder,List.append_assoc]
  | start hc hs =>
    simp only [held,hc,Consumer.batch] at horder ⊢
    exact horder
  | wake hc hs =>
    simp only [held,hc,hs,Consumer.batch,Shutdown.batch,List.append_nil] at horder ⊢
    rw [List.append_assoc,collect_append]
    exact horder
  | consumerCommit hc =>
    simp only [Abandons,hc,Consumer.batch] at ha
    simp only [held,endFlush_kept _ _ ha,hc,Consumer.batch,List.append_nil] at horder ⊢
    exact horder
  | cancelSleeping hc =>
    simp only [held,hc,Consumer.batch] at horder ⊢
    exact horder
  | cancelCommitting hc =>
    simp only [Abandons,hc,Consumer.batch] at ha
    simp only [held,endFlush_kept _ (.cancelled _) ha,hc,Consumer.batch,
      List.append_nil] at horder ⊢
    exact horder
  | stop hs =>
    simp only [held,hs,Shutdown.batch] at horder ⊢
    exact horder
  | emptyFlush hs hc hq =>
    simp only [held,hs,Shutdown.batch] at horder ⊢
    exact horder
  | finalFlush hs hc =>
    simp only [held,hs,Shutdown.batch,List.append_nil] at horder ⊢
    rw [List.append_assoc,collect_append]
    exact horder
  | finalCommit hs =>
    have hc : r.consumer=.absent := h.alone (by rw [hs]; rfl)
    simp only [Abandons,hs,Shutdown.batch] at ha
    simp only [held,endFlush_kept _ _ ha,hs,hc,Consumer.batch,Shutdown.batch,
      List.append_nil] at horder ⊢
    exact horder
  | dispose hs =>
    simp only [held,hs,Shutdown.batch] at horder ⊢
    exact horder

/-- The action fits the one batch that `stop` flushes: its flush finds at most
one batch in the queue, and nothing is recorded once it has collected. -/
def Fits (r : AuditRun) (a : AuditAction) : Prop :=
  (a=.finalFlush→ r.shutdown=.awaiting→ r.consumer=.absent→
    r.store.queue.length≤batchSize) ∧
  ∀ id timestamp fields, a=.record id timestamp fields→ r.shutdown.collected=false

/-- The end of a flush keeps the queue. -/
theorem endFlush_queue (store : AuditStore) (batch : List AuditEntry) (outcome : CommitOutcome) :
    (store.endFlush batch outcome).queue=store.queue := by
  unfold AuditStore.endFlush
  split <;> rfl

/-- Once the last batch is collected the queue only grows, and stays empty only
without further records. -/
theorem collected_step (rt : Runtime) {r : AuditRun} (h : r.shutdown.collected=true)
    (a : AuditAction) : (step rt r a).shutdown.collected=true ∧
      ((step rt r a).store.queue=[] ↔ r.store.queue=[] ∧ Fits r a) := by
  have hsame : Fits r a→ (r.store.queue=[] ↔ r.store.queue=[] ∧ Fits r a) :=
    fun hf => ⟨fun hq => ⟨hq,hf⟩,fun hq => hq.1⟩
  have hother : (∀ id timestamp fields, a≠.record id timestamp fields)→
      (r.store.queue=[] ↔ r.store.queue=[] ∧ Fits r a) :=
    fun hn => hsame ⟨fun _ hs => absurd h (not_collected (Or.inr hs)),
      fun id timestamp fields ha => absurd ha (hn _ _ _)⟩
  have hnever : ∀ id timestamp fields, a=.record id timestamp fields→ ¬Fits r a := by
    intro id timestamp fields ha hf
    have hn := hf.2 id timestamp fields ha
    rw [h] at hn
    cases hn
  have heffect := step_effect rt r a
  generalize step rt r a=r' at heffect ⊢
  cases heffect with
  | idle hflush hfull =>
    refine ⟨h,⟨fun hq => (hother (fun id timestamp fields ha => ?_)).mp hq,fun hq => hq.1⟩⟩
    have hlong := hfull id timestamp fields ha
    rw [hq] at hlong
    exact absurd hlong (by decide)
  | accept => exact ⟨h,by simp [hnever _ _ _ rfl]⟩
  | start hc hs => exact absurd h (not_collected (Or.inl hs))
  | wake hc hs => exact absurd h (not_collected (Or.inl hs))
  | consumerCommit hc =>
    rw [endFlush_queue]
    exact ⟨h,hother (fun _ _ _ hn => by cases hn)⟩
  | cancelSleeping hc => exact ⟨h,hother (fun _ _ _ hn => by cases hn)⟩
  | cancelCommitting hc =>
    rw [endFlush_queue]
    exact ⟨h,hother (fun _ _ _ hn => by cases hn)⟩
  | stop hs => exact absurd h (not_collected (Or.inl hs))
  | emptyFlush hs hc hq => exact absurd h (not_collected (Or.inr hs))
  | finalFlush hs hc => exact absurd h (not_collected (Or.inr hs))
  | finalCommit hs =>
    rw [endFlush_queue]
    exact ⟨rfl,hother (fun _ _ _ hn => by cases hn)⟩
  | dispose hs => exact ⟨rfl,hother (fun _ _ _ hn => by cases hn)⟩

/-- While `stop` waits for the consumer, an action fits and leaves it waiting,
or it is the last flush, which empties the queue exactly when it fits. -/
theorem awaiting_step (rt : Runtime) {r : AuditRun} (h : r.shutdown=.awaiting)
    (a : AuditAction) : ((step rt r a).shutdown=.awaiting ∧ Fits r a) ∨
      ((step rt r a).shutdown.collected=true ∧ ((step rt r a).store.queue=[] ↔ Fits r a)) := by
  have hrecord : ∀ id timestamp fields, a=.record id timestamp fields→
      r.shutdown.collected=false := fun _ _ _ _ => by rw [h]; rfl
  have hfits : a≠.finalFlush→Fits r a := fun hn => ⟨fun ha => absurd ha hn,hrecord⟩
  have hflush : r.consumer=.absent→ (Fits r .finalFlush ↔ r.store.queue.length≤batchSize) :=
    fun hc => ⟨fun hf => hf.1 rfl h hc,fun hle => ⟨fun _ _ _ => hle,fun _ _ _ hn => by cases hn⟩⟩
  have heffect := step_effect rt r a
  generalize step rt r a=r' at heffect ⊢
  cases heffect with
  | idle hready =>
    exact Or.inl ⟨h,⟨fun ha hs hc => absurd hc (hready ha hs),hrecord⟩⟩
  | accept => exact Or.inl ⟨h,hfits (fun hn => by cases hn)⟩
  | start hc hs => cases h.symm.trans hs
  | wake hc hs => cases h.symm.trans hs
  | consumerCommit hc => exact Or.inl ⟨h,hfits (fun hn => by cases hn)⟩
  | cancelSleeping hc => exact Or.inl ⟨h,hfits (fun hn => by cases hn)⟩
  | cancelCommitting hc => exact Or.inl ⟨h,hfits (fun hn => by cases hn)⟩
  | stop hs => cases h.symm.trans hs
  | emptyFlush hs hc hq =>
    refine Or.inr ⟨rfl,?_⟩
    rw [hflush hc,hq]
    exact ⟨fun _ => Nat.zero_le _,fun _ => rfl⟩
  | finalFlush hs hc =>
    refine Or.inr ⟨rfl,?_⟩
    rw [hflush hc,collect_eq]
    exact List.drop_eq_nil_iff
  | finalCommit hs => cases h.symm.trans hs
  | dispose hs => cases h.symm.trans hs

/-- From the last flush on, the queue is empty at the end exactly when it was
empty and nothing was recorded. -/
theorem collected_run (rt : Runtime) {r : AuditRun} (h : r.shutdown.collected=true)
    (actions : List AuditAction) : (final (step rt) r actions).store.queue=[] ↔
      r.store.queue=[] ∧ Meets (step rt) Fits r actions := by
  induction actions generalizing r with
  | nil => exact ⟨fun hq => ⟨hq,trivial⟩,fun hq => hq.1⟩
  | cons a actions ih =>
    obtain ⟨hcollected,hqueue⟩ := collected_step rt h a
    rw [final,List.foldl_cons,←final,ih hcollected,hqueue,Meets,and_assoc]

/-- Once `stop` has returned, the queue is empty exactly when everything since
its call fitted. -/
theorem awaiting_run (rt : Runtime) {r : AuditRun} (h : r.shutdown=.awaiting)
    {actions : List AuditAction} (hs : (final (step rt) r actions).shutdown=.stopped) :
    (final (step rt) r actions).store.queue=[] ↔ Meets (step rt) Fits r actions := by
  induction actions generalizing r with
  | nil =>
    rw [final,List.foldl_nil,h] at hs
    cases hs
  | cons a actions ih =>
    rw [final,List.foldl_cons,←final] at hs ⊢
    rw [Meets]
    rcases awaiting_step rt h a with ⟨hwaiting,hfits⟩ | ⟨hcollected,hqueue⟩
    · rw [ih hwaiting hs]
      exact ⟨fun hm => ⟨hfits,hm⟩,fun hm => hm.2⟩
    · rw [collected_run rt hcollected,hqueue]

/-- When every commit stores its rows, the table holds exactly the accepted
entries in order after `stop` has returned, exactly when they fitted its one
batch. -/
theorem shutdown_complete_iff (rt : Runtime) (before after : List AuditAction)
    (hcommits : Meets (step rt) (fun r a => ¬Abandons r a) {} (before++.stop::after))
    (hrunning : (final (step rt) {} before).shutdown=.running)
    (hstopped : (final (step rt) {} (before++.stop::after)).shutdown=.stopped) :
    (final (step rt) {} (before++.stop::after)).store.database=
      (final (step rt) {} (before++.stop::after)).accepted ↔
    Meets (step rt) Fits (final (step rt) {} (before++[.stop])) after := by
  have hstart : InOrder {} := ⟨rfl,fun _ => rfl⟩
  have horder := meets_invariant (I:=InOrder) (fun r a h ha => inOrder_step rt h a ha) hstart
    hcommits
  have hconsumer := horder.alone (by rw [hstopped]; rfl)
  have hheld := horder.order
  simp only [held,hconsumer,hstopped,Consumer.batch,Shutdown.batch,List.append_nil] at hheld
  have hsplit : final (step rt) {} (before++.stop::after)=
      final (step rt) (final (step rt) {} (before++[.stop])) after := by
    simp only [final,List.foldl_append,List.foldl_cons,List.foldl_nil]
  have hawaiting : (final (step rt) {} (before++[.stop])).shutdown=.awaiting := by
    simp only [final,List.foldl_append,List.foldl_cons,List.foldl_nil] at hrunning ⊢
    simp only [step,hrunning]
  rw [hsplit] at hstopped
  rw [←awaiting_run rt hawaiting hstopped,hheld,←hsplit]
  exact List.self_eq_append_right

/-- A commit whose end the action decides stores its rows. -/
def stores : AuditAction→Bool
  | .consumerCommit outcome => outcome.lands
  | .cancelConsumer stored => stored
  | .finalCommit outcome => outcome.lands
  | _ => true

/-- Such actions abandon nothing. -/
theorem stores_commits (rt : Runtime) (r : AuditRun) {actions : List AuditAction}
    (h : actions.all stores=true) : Meets (step rt) (fun r a => ¬Abandons r a) r actions := by
  refine meets_of_forall (fun r a ha => ?_) r
  have hstores := List.all_eq_true.mp h a ha
  cases a with
  | consumerCommit outcome => exact fun hn => Bool.noConfusion (hstores.symm.trans hn.2)
  | cancelConsumer stored => exact fun hn => Bool.noConfusion (hstores.symm.trans hn.2)
  | finalCommit outcome => exact fun hn => Bool.noConfusion (hstores.symm.trans hn.2)
  | _ => exact fun hn => hn

/-- Records `0` to `count-1`. -/
def records (count : ℕ) : List AuditAction :=
  (List.range count).map (fun i => .record ("e"++toString i) i plainRecord)

/-- Three records are flushed by the consumer and two come later. -/
def flushedActions : List AuditAction :=
  .start::records 3++[.wake,.consumerCommit .committed]++records 2

/-- The consumer is cancelled while it sleeps, and the last batch is stored. -/
def shutdownActions : List AuditAction :=
  [.cancelConsumer true,.finalFlush,.finalCommit .committed,.dispose]

theorem shutdown_complete_flushed :
    (final (step asciiRuntime) {} (flushedActions++.stop::shutdownActions)).store.database=
      (final (step asciiRuntime) {} (flushedActions++.stop::shutdownActions)).accepted ↔
    Meets (step asciiRuntime) Fits (final (step asciiRuntime) {} (flushedActions++[.stop]))
      shutdownActions :=
  shutdown_complete_iff asciiRuntime flushedActions shutdownActions
    (stores_commits asciiRuntime {} rfl) rfl rfl

set_option maxRecDepth 4096 in
/-- Fifty-one entries wait for the last flush; one of them is lost. -/
theorem shutdown_loses :
    Meets (step asciiRuntime) (fun r a => ¬Abandons r a) {}
      (records 51++.stop::shutdownActions) ∧
    (final (step asciiRuntime) {} (records 51++.stop::shutdownActions)).shutdown=.stopped ∧
    (final (step asciiRuntime) {} (records 51++.stop::shutdownActions)).accepted.length=51 ∧
    (final (step asciiRuntime) {} (records 51++.stop::shutdownActions)).store.database.length=
      50 :=
  ⟨stores_commits asciiRuntime {} rfl,rfl,rfl,rfl⟩

end McpGateway.AuditLog
