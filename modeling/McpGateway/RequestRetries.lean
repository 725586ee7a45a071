import Mathlib
import McpGateway.StepRun
import McpGateway.JsonValue
import McpGateway.GatewaySettings
import McpGateway.CircuitBreakers
import McpGateway.ToolNaming
import McpGateway.ServerRegistry
import McpGateway.RegistryRuns
import McpGateway.ToolRouting
import McpGateway.ToolAuthorizer
import McpGateway.PyRuntime
import McpGateway.PiiRedactor
import McpGateway.Guardrails
import McpGateway.UpstreamContent
import McpGateway.ToolOrchestrator
import McpGateway.CallMediation
import McpGateway.AuthProviders
import McpGateway.McpClient
import McpGateway.ClientRuns
import McpGateway.AgentAttribution

/-!
# Repeated requests

One call of a tool invokes its client at most once, and the client repeats an
attempt that ends in a transport error up to two times, whatever the tool. A
request is sent at most three times, and at most once more than attempts of
its call failed in the transport.
-/

namespace McpGateway.RequestRetries

open StepRun JsonValue GatewaySettings CircuitBreakers ToolNaming ServerRegistry RegistryRuns
open ToolRouting ToolAuthorizer PyRuntime PiiRedactor Guardrails UpstreamContent ToolOrchestrator
open CallMediation AuthProviders McpClient ClientRuns AgentAttribution

section Definitions

/-- The operation that an action resumes or cancels. -/
def target : ClientAction→Option ℕ
  | .grant i => some i
  | .resolve i _ => some i
  | .progress i _ => some i
  | .respond i _ => some i
  | .wake i => some i
  | .cancel i => some i
  | _ => none

/-- One step of an operation, as its observer counts it. -/
structure OwnStep where
  /-- Whether it sends the request. -/
  sends : Bool
  /-- Whether it ends an attempt with a transport error, a connection error or
  a timeout. -/
  fails : Bool

/-- Whether an event is a request. -/
def isRequest : Option ClientEvent→Bool
  | some (.sent _ _) => true
  | _ => false

/-- The action ends the current attempt with an exception that is retried. -/
def retriedFailure (client : MCPClient) (task : ClientTask) : ClientAction→Bool
  | .resolve _ world =>
    match task.phase,(client.resolveHeaders world task.operation.agentId).2 with
    | .resolving,.error error => error.retried
    | _,_ => false
  | .progress _ (.error error) =>
    match task.phase with
    | .entering _ => error.retried
    | .handshaking _ _ => error.retried
    | .initializing _ _ => error.retried
    | _ => false
  | .respond _ (.raised error) =>
    match task.phase with
    | .requesting _ => error.retried
    | _ => false
  | _ => false

/-- Where the operation at an index stands after an action on an operation. An
operation that ends leaves its place. -/
def place (s s' : ClientRun) (acted : Option ℕ) (i : ℕ) : Option ℕ :=
  match acted with
  | none => some i
  | some j =>
    if s'.tasks.length<s.tasks.length then
      if j=i then none else if j < i then some (i-1) else some i
    else some i

/-- The steps of the operation at an index along a schedule. -/
def ownSteps (rt : Runtime) : ClientRun→ℕ→List ClientAction→List OwnStep
  | _,_,[] => []
  | s,i,a::as =>
    let next := ClientRuns.step rt s a
    let own :=
      match s.tasks[i]? with
      | none => []
      | some task =>
        if target a=some i then [⟨isRequest next.2,retriedFailure s.client task a⟩] else []
    match place s next.1 (target a) i with
    | none => own
    | some i => own++ownSteps rt next.1 i as

/-- The steps of one invocation of a client along the schedule that follows
it. An invocation that the breaker refuses has none. -/
def invocationSteps (rt : Runtime) (s : ClientRun) (operation : Operation)
    (as : List ClientAction) : List OwnStep :=
  let begun := (begin s operation).1
  if begun.tasks.length=s.tasks.length then [] else ownSteps rt begun s.tasks.length as

/-- The client steps that an effect of a call stands for. -/
def effectSteps (rt : Runtime) (s : ClientRun) (as : List ClientAction) : Effect→List OwnStep
  | .upstream _ tool sent agentId =>
    invocationSteps rt s (.callTool tool sent (some agentId)) as
  | _ => []

/-- The client steps of one call of a tool: its client is in this state when it
is invoked and follows this schedule from then on. -/
def callSteps (rt : Runtime) (o : Orchestrator) (now : ℚ) (request : CallRequest)
    (interlude : Interlude) (s : ClientRun) (as : List ClientAction) : List OwnStep :=
  (callTool rt o now request interlude).effects.flatMap (effectSteps rt s as)

/-- Number of requests among these steps. -/
def requests (steps : List OwnStep) : ℕ := steps.countP OwnStep.sends

/-- Number of attempts among these steps that fail in the transport. -/
def failures (steps : List OwnStep) : ℕ := steps.countP OwnStep.fails

end Definitions

section Tasks

/-- Attempts are numbered up to three, and a pause is before a further one. -/
structure Timed (task : ClientTask) : Prop where
  /-- No fourth attempt. -/
  bounded : task.attempt≤3
  /-- A pause is not after the third. -/
  pausing : task.phase=.sleeping→task.attempt<3

/-- Requests that an operation can still send. -/
def budget (task : ClientTask) : ℕ :=
  match task.phase with
  | .requesting _ => 3-task.attempt
  | .sleeping => 3-task.attempt
  | .resetting (.ended _) => 0
  | .closing (.ended _) => 0
  | _ => 4-task.attempt

/-- Requests that it can still send without another failure. -/
def credit (task : ClientTask) : ℕ :=
  match task.phase with
  | .requesting _ => 0
  | .resetting (.ended _) => 0
  | .closing (.ended _) => 0
  | _ => 1

/-- An operation is still on its way, and what it sent is paid for. -/
structure Continues (task task' : ClientTask) (sends fails : Bool) : Prop where
  /-- Attempts stay numbered. -/
  timed : Timed task→Timed task'
  /-- A request takes from the budget. -/
  budget : Timed task→budget task'+sends.toNat≤RequestRetries.budget task
  /-- A request takes from the credit, a failure adds to it. -/
  credit : credit task'+sends.toNat≤RequestRetries.credit task+fails.toNat

/-- The operation ended without a request, or it continues. -/
def Fate (s : ClientRun) (i : ℕ) (task : ClientTask) (fails : Bool) (o : Outcome) : Prop :=
  (o.1.tasks=s.tasks.eraseIdx i ∧ isRequest o.2=false) ∨
    ∃ task', o.1.tasks=s.tasks.set i task' ∧ Continues task task' (isRequest o.2) fails

/-- A pause and an opening can end the attempt, a request already was sent. -/
def Opening (task : ClientTask) : Prop := budget task=4-task.attempt ∧ credit task=1

variable {s s' : ClientRun} {i : ℕ} {task : ClientTask} {fails : Bool}

/-- The end of an operation. -/
theorem fate_finish (hs : s'.tasks=s.tasks) (result : OperationResult) :
    Fate s i task fails (finish s' i task result) :=
  .inl ⟨congrArg (List.eraseIdx · i) hs,rfl⟩

/-- A silent move within what the operation may still send. -/
theorem fate_move (hs : s'.tasks=s.tasks) {phase : Phase}
    (h : Continues task {task with phase := phase} false fails) :
    Fate s i task fails (move s' i task phase,none) :=
  .inr ⟨_,congrArg (List.set · i _) hs,h⟩

/-- The attempt goes on towards its request. -/
theorem fate_opening (hs : s'.tasks=s.tasks) (ho : Opening task) {phase : Phase}
    (hphase : Opening {task with phase := phase}) (hawake : phase≠.sleeping) :
    Fate s i task fails (move s' i task phase,none) := by
  refine fate_move hs ⟨fun h => ⟨h.bounded,fun hp => absurd hp hawake⟩,fun _ => ?_,?_⟩
  · rw [hphase.1,ho.1]
    exact le_refl _
  · rw [hphase.2,ho.2]
    exact Nat.le_add_right _ _

/-- Nothing happens. -/
theorem fate_same (ht : s.tasks[i]?=some task) : Fate s i task fails (s,none) := by
  obtain ⟨hi,hget⟩ := List.getElem?_eq_some_iff.mp ht
  have hset : s.tasks.set i task=s.tasks := by
    rw [←hget]
    exact List.set_getElem_self hi
  exact .inr ⟨task,hset.symm,id,fun _ => le_refl _,Nat.le_add_right _ _⟩

/-- A request is sent on a session. -/
theorem fate_send (hs : s'.tasks=s.tasks) (ho : Opening task) (session : Session) :
    Fate s i task fails (send s' i task session) := by
  refine .inr ⟨_,congrArg (List.set · i _) hs,fun h => ⟨h.bounded,fun hp => (by cases hp)⟩,
    fun h => ?_,?_⟩
  · have hbounded := h.bounded
    rw [ho.1]
    simp only [budget,send,isRequest,Bool.toNat_true]
    omega
  · rw [ho.2]
    simp only [credit,send,isRequest,Bool.toNat_true]
    omega

/-- The end of an attempt. -/
theorem fate_endAttempt (hs : s'.tasks=s.tasks) (hbudget : 3-task.attempt≤budget task)
    {result : Except ClientException OperationResult}
    (hfails : ∀ error, result=.error error→error.retried=true→fails=true) :
    Fate s i task fails (endAttempt s' i task result) := by
  have hreset : ∀ (s' : ClientRun) (result : OperationResult), s'.tasks=s.tasks→
      Fate s i task fails (move s' i task (.resetting (.ended result)),none) := by
    intro s' result hs
    exact fate_move hs ⟨fun h => ⟨h.bounded,fun hp => (by cases hp)⟩,fun _ => Nat.zero_le _,
      Nat.zero_le _⟩
  unfold endAttempt
  split
  · split
    · exact fate_finish hs _
    · exact fate_finish hs _
  · rename_i error
    split
    · exact hreset s' _ hs
    · split
      · rename_i hretry
        refine fate_move hs ⟨fun h => ⟨h.bounded,fun _ => hretry.2⟩,fun _ => hbudget,?_⟩
        rw [hfails error rfl hretry.1]
        exact Nat.le_add_left _ _
      · dsimp only
        split
        · exact fate_finish hs _
        · exact hreset _ _ hs

/-- The end of an attempt before its request. -/
theorem fate_endOpening (hs : s'.tasks=s.tasks) (ho : Opening task) {error : ClientException}
    (hfails : error.retried=true→fails=true) :
    Fate s i task fails (endAttempt s' i task (.error error)) := by
  refine fate_endAttempt hs ?_ (fun other he hr => ?_)
  · rw [ho.1]
    omega
  · cases he
    exact hfails hr

/-- What follows a reset. -/
theorem fate_proceed (hs : s'.tasks=s.tasks) {next : AfterReset}
    (hphase : task.phase=.resetting next ∨ task.phase=.closing next) :
    Fate s i task fails (proceed s' i task next) := by
  cases next with
  | ended result => exact fate_finish hs result
  | retry =>
    have ho : Opening task := by
      unfold Opening budget credit
      rcases hphase with hp | hp <;> rw [hp] <;> exact ⟨rfl,rfl⟩
    exact fate_opening hs ho ⟨rfl,rfl⟩ (fun hp => (by cases hp))

/-- The lock is granted. -/
theorem fate_granted (ht : s.tasks[i]?=some task) : Fate s i task fails (granted s i task) := by
  unfold granted
  split
  · rename_i hp
    have ho : Opening task := by
      unfold Opening budget credit
      rw [hp]
      exact ⟨rfl,rfl⟩
    split
    · exact fate_send rfl ho _
    · exact fate_opening rfl ho ⟨rfl,rfl⟩ (fun hp => (by cases hp))
  · rename_i next hp
    dsimp only
    split
    · exact fate_proceed rfl (.inl hp)
    · refine fate_move rfl ⟨fun h => ⟨h.bounded,fun hp => (by cases hp)⟩,fun _ => ?_,?_⟩
      · unfold budget
        rw [hp]
        cases next <;> exact le_refl _
      · unfold credit
        rw [hp]
        cases next <;> exact Nat.le_add_right _ _
  · exact fate_same ht

/-- Headers are resolved or not. -/
theorem fate_resolved (ht : s.tasks[i]?=some task) (world : World)
    (hfails : task.phase=.resolving→∀ error,
      (s.client.resolveHeaders world task.operation.agentId).2=.error error→
        error.retried=true→fails=true) :
    Fate s i task fails (resolved s i task world) := by
  unfold resolved
  split
  · rename_i hp
    have ho : Opening task := by
      unfold Opening budget credit
      rw [hp]
      exact ⟨rfl,rfl⟩
    dsimp only
    split
    · rename_i error he
      exact fate_endOpening rfl ho (hfails hp error he)
    · exact fate_opening rfl ho ⟨rfl,rfl⟩ (fun hp => (by cases hp))
  · exact fate_same ht

/-- An opening or closing progresses. -/
theorem fate_progressed (ht : s.tasks[i]?=some task) (result : Except ClientException Unit)
    (hfails : ∀ session contexts, task.phase=.entering session ∨
      task.phase=.handshaking session contexts ∨ task.phase=.initializing session contexts→
        ∀ error, result=.error error→error.retried=true→fails=true) :
    Fate s i task fails (progressed s i task result) := by
  have hopening : ∀ session contexts, task.phase=.entering session ∨
      task.phase=.handshaking session contexts ∨ task.phase=.initializing session contexts→
        Opening task := by
    intro session contexts hp
    unfold Opening budget credit
    rcases hp with hp | hp | hp <;> rw [hp] <;> exact ⟨rfl,rfl⟩
  unfold progressed
  split
  · rename_i session error hp
    exact fate_endOpening rfl (hopening session [] (.inl hp))
      (hfails session [] (.inl hp) error rfl)
  · rename_i session _ hp
    exact fate_opening rfl (hopening session [] (.inl hp)) ⟨rfl,rfl⟩ (fun hp => (by cases hp))
  · rename_i session contexts error hp
    exact fate_endOpening rfl (hopening session contexts (.inr (.inl hp)))
      (hfails session contexts (.inr (.inl hp)) error rfl)
  · rename_i session contexts _ hp
    exact fate_opening rfl (hopening session contexts (.inr (.inl hp))) ⟨rfl,rfl⟩
      (fun hp => (by cases hp))
  · rename_i session contexts error hp
    exact fate_endOpening rfl (hopening session contexts (.inr (.inr hp)))
      (hfails session contexts (.inr (.inr hp)) error rfl)
  · rename_i session contexts _ hp
    exact fate_send rfl (hopening session contexts (.inr (.inr hp))) session
  · rename_i next hp
    exact fate_proceed rfl (.inr hp)
  · exact fate_same ht

/-- A request ends. -/
theorem fate_responded (ht : s.tasks[i]?=some task) (rt : Runtime) (reply : Reply)
    (hfails : ∀ session error, task.phase=.requesting session→
      reply=.raised error→error.retried=true→fails=true) :
    Fate s i task fails (responded s i task rt reply) := by
  have hended : ∀ session, task.phase=.requesting session→
      ∀ result : Except ClientException OperationResult,
      (∀ error, result=.error error→error.retried=true→fails=true)→
        Fate s i task fails (endAttempt s i task result) := by
    intro session hp result hf
    refine fate_endAttempt rfl ?_ hf
    unfold budget
    rw [hp]
  unfold responded
  split
  · rename_i session error hp
    refine hended session hp _ (fun other ho hr => ?_)
    cases ho
    exact hfails session error hp rfl hr
  · rename_i session _ _ _ result hp _
    split
    · exact hended session hp _ (fun _ ho => (by cases ho))
    · refine hended session hp _ (fun other ho hr => ?_)
      cases ho
      cases hr
  · rename_i session list hp _
    exact hended session hp _ (fun _ ho => (by cases ho))
  · rename_i session hp _
    exact hended session hp _ (fun _ ho => (by cases ho))
  · exact fate_same ht

/-- A pause ends. -/
theorem fate_woken (ht : s.tasks[i]?=some task) : Fate s i task fails (woken s i task) := by
  unfold woken
  split
  · rename_i hp
    refine .inr ⟨_,rfl,fun h => ⟨h.pausing hp,fun hp => (by cases hp)⟩,fun h => ?_,?_⟩
    · have hattempt := h.pausing hp
      simp only [budget,hp,isRequest,Bool.toNat_false]
      omega
    · simp only [credit,hp,isRequest,Bool.toNat_false]
      omega
  · exact fate_same ht

/-- An operation is cancelled. -/
theorem fate_cancelled : Fate s i task fails (cancelled s i task) := by
  unfold cancelled
  split
  · exact fate_finish rfl _
  · exact fate_finish rfl _

/-- What an action does to the operation it is about. -/
theorem fate_step (rt : Runtime) {a : ClientAction} (hta : target a=some i)
    (ht : s.tasks[i]?=some task) :
    Fate s i task (retriedFailure s.client task a) (ClientRuns.step rt s a) := by
  cases a with
  | tick elapsed => cases hta
  | start operation => cases hta
  | grant j =>
    cases hta
    simp only [ClientRuns.step,onTask,ht]
    split
    · exact fate_same ht
    · exact fate_granted ht
  | resolve j world =>
    cases hta
    simp only [ClientRuns.step,onTask,ht]
    refine fate_resolved ht world (fun hp error he hr => ?_)
    simp only [retriedFailure,hp,he]
    exact hr
  | progress j result =>
    cases hta
    simp only [ClientRuns.step,onTask,ht]
    refine fate_progressed ht result (fun session contexts hp error he hr => ?_)
    rw [he]
    simp only [retriedFailure]
    rcases hp with hp | hp | hp <;> rw [hp] <;> exact hr
  | respond j reply =>
    cases hta
    simp only [ClientRuns.step,onTask,ht]
    refine fate_responded ht rt reply (fun session error hp he hr => ?_)
    rw [he]
    simp only [retriedFailure,hp]
    exact hr
  | wake j =>
    cases hta
    simp only [ClientRuns.step,onTask,ht]
    exact fate_woken ht
  | cancel j =>
    cases hta
    simp only [ClientRuns.step,onTask,ht]
    exact fate_cancelled

end Tasks

section Runs

variable {s : ClientRun} {i : ℕ} {task : ClientTask}

/-- An action on no operation leaves every operation where it is. -/
theorem untargeted_step (rt : Runtime) {a : ClientAction} (hta : target a=none)
    (ht : s.tasks[i]?=some task) : (ClientRuns.step rt s a).1.tasks[i]?=some task := by
  have happend : ∀ other : ClientTask, (s.tasks++[other])[i]?=some task := by
    intro other
    rw [List.getElem?_append_left (List.getElem?_eq_some_iff.mp ht).1]
    exact ht
  cases a with
  | tick elapsed => exact ht
  | start operation =>
    simp only [ClientRuns.step,begin]
    split
    · exact happend _
    · exact happend _
    · split
      · exact ht
      · exact happend _
  | grant j => cases hta
  | resolve j world => cases hta
  | progress j result => cases hta
  | respond j reply => cases hta
  | wake j => cases hta
  | cancel j => cases hta

/-- An action on an operation that does not exist does nothing. -/
theorem missing_step (rt : Runtime) {a : ClientAction} {j : ℕ} (hta : target a=some j)
    (hj : s.tasks[j]?=none) : (ClientRuns.step rt s a).1=s := by
  cases a with
  | tick elapsed => cases hta
  | start operation => cases hta
  | grant k =>
    cases hta
    simp only [ClientRuns.step,onTask,hj]
    split <;> rfl
  | resolve k world =>
    cases hta
    simp only [ClientRuns.step,onTask,hj]
  | progress k result =>
    cases hta
    simp only [ClientRuns.step,onTask,hj]
  | respond k reply =>
    cases hta
    simp only [ClientRuns.step,onTask,hj]
  | wake k =>
    cases hta
    simp only [ClientRuns.step,onTask,hj]
  | cancel k =>
    cases hta
    simp only [ClientRuns.step,onTask,hj]

/-- An action on the operation ends it without a request, or it continues where
it was. -/
theorem own_step (rt : Runtime) {a : ClientAction} (hta : target a=some i)
    (ht : s.tasks[i]?=some task) :
    (place s (ClientRuns.step rt s a).1 (some i) i=none ∧
      isRequest (ClientRuns.step rt s a).2=false) ∨
    ∃ task', place s (ClientRuns.step rt s a).1 (some i) i=some i ∧
      (ClientRuns.step rt s a).1.tasks[i]?=some task' ∧
      Continues task task' (isRequest (ClientRuns.step rt s a).2)
        (retriedFailure s.client task a) := by
  have hlength := (List.getElem?_eq_some_iff.mp ht).1
  rcases fate_step rt hta ht with ⟨htasks,hsilent⟩ | ⟨task',htasks,hcontinues⟩
  · have hshort : (ClientRuns.step rt s a).1.tasks.length<s.tasks.length := by
      rw [htasks,List.length_eraseIdx_of_lt hlength]
      omega
    refine .inl ⟨?_,hsilent⟩
    simp only [place,if_pos hshort,if_true]
  · have hsame : ¬(ClientRuns.step rt s a).1.tasks.length<s.tasks.length := by
      rw [htasks,List.length_set]
      exact lt_irrefl _
    refine .inr ⟨task',?_,?_,hcontinues⟩
    · simp only [place,if_neg hsame]
    · rw [htasks,List.getElem?_set_self hlength]

/-- A step that an operation takes is paid from its budget, and from its credit
and its failures. -/
theorem paid_of_continues {task task' : ClientTask} {sends fails : Bool}
    (hc : Continues task task' sends fails) (h : Timed task) {later : List OwnStep}
    (hbudget : requests later≤budget task')
    (hcredit : requests later≤credit task'+failures later) :
    requests (⟨sends,fails⟩::later)≤budget task ∧
      requests (⟨sends,fails⟩::later)≤credit task+failures (⟨sends,fails⟩::later) := by
  have hspent := hc.budget h
  have hpaid := hc.credit
  unfold requests at hbudget
  unfold requests failures at hcredit ⊢
  rw [List.countP_cons,List.countP_cons]
  dsimp only
  cases sends <;> cases fails <;>
    simp only [Bool.toNat_true,Bool.toNat_false,if_true,Bool.false_eq_true,if_false]
      at hspent hpaid ⊢ <;> omega

/-- An action on another operation only moves the operation in the list. -/
theorem other_step (rt : Runtime) {a : ClientAction} {j : ℕ} (hta : target a=some j) (hne : j≠i)
    (ht : s.tasks[i]?=some task) :
    ∃ i', place s (ClientRuns.step rt s a).1 (some j) i=some i' ∧
      (ClientRuns.step rt s a).1.tasks[i']?=some task := by
  unfold place
  dsimp only
  cases hj : s.tasks[j]? with
  | none =>
    rw [missing_step rt hta hj,if_neg (lt_irrefl _)]
    exact ⟨i,rfl,ht⟩
  | some other =>
    have hlength := (List.getElem?_eq_some_iff.mp hj).1
    rcases fate_step rt hta hj with ⟨htasks,-⟩ | ⟨other',htasks,-⟩
    · have hshort : (ClientRuns.step rt s a).1.tasks.length<s.tasks.length := by
        rw [htasks,List.length_eraseIdx_of_lt hlength]
        omega
      rw [if_pos hshort,if_neg hne,htasks]
      by_cases hlt : j < i
      · rw [if_pos hlt]
        refine ⟨i-1,rfl,?_⟩
        rw [List.getElem?_eraseIdx_of_ge (by omega),Nat.sub_add_cancel (by omega)]
        exact ht
      · rw [if_neg hlt]
        refine ⟨i,rfl,?_⟩
        rw [List.getElem?_eraseIdx_of_lt (by omega)]
        exact ht
    · have hsame : ¬(ClientRuns.step rt s a).1.tasks.length<s.tasks.length := by
        rw [htasks,List.length_set]
        exact lt_irrefl _
      rw [if_neg hsame,htasks]
      refine ⟨i,rfl,?_⟩
      rw [List.getElem?_set_ne hne]
      exact ht

/-- Along any schedule an operation sends no more requests than its budget,
and no more than its credit and its failures allow. -/
theorem ownSteps_bound (rt : Runtime) (as : List ClientAction) (ht : s.tasks[i]?=some task)
    (h : Timed task) :
    requests (ownSteps rt s i as)≤budget task ∧
      requests (ownSteps rt s i as)≤credit task+failures (ownSteps rt s i as) := by
  induction as generalizing s i task with
  | nil => exact ⟨Nat.zero_le _,Nat.zero_le _⟩
  | cons a as ih =>
    unfold ownSteps
    dsimp only
    rw [ht]
    dsimp only
    cases hta : target a with
    | none =>
      rw [if_neg (fun he => (by cases he))]
      exact ih (untargeted_step rt hta ht) h
    | some j =>
      by_cases hj : j=i
      · subst hj
        rw [if_pos rfl]
        rcases own_step rt hta ht with ⟨hended,hsilent⟩ | ⟨task',hplace,hget,hcontinues⟩
        · rw [hended,hsilent]
          exact ⟨Nat.zero_le _,Nat.zero_le _⟩
        · obtain ⟨hbudget,hcredit⟩ := ih hget (hcontinues.timed h)
          rw [hplace]
          exact paid_of_continues hcontinues h hbudget hcredit
      · have hother : ¬some j=some i := fun he => hj (Option.some.inj he)
        obtain ⟨i',hplace,hget⟩ := other_step rt hta hj ht
        rw [if_neg hother,hplace]
        exact ih hget h

/-- An operation that was just added sends at most three requests. -/
theorem added_bound (rt : Runtime) {s s' : ClientRun} {task : ClientTask}
    (hadded : s'.tasks=s.tasks++[task]) (h : Timed task) (hbudget : budget task≤3)
    (hcredit : credit task≤1) (as : List ClientAction) :
    requests (ownSteps rt s' s.tasks.length as)≤3 ∧
      requests (ownSteps rt s' s.tasks.length as)≤
        1+failures (ownSteps rt s' s.tasks.length as) := by
  have hget : s'.tasks[s.tasks.length]?=some task := by
    rw [hadded,List.getElem?_append_right (le_refl _),Nat.sub_self]
    rfl
  obtain ⟨hspent,hpaid⟩ := ownSteps_bound rt as hget h
  exact ⟨hspent.trans hbudget,hpaid.trans (Nat.add_le_add_right hcredit _)⟩

/-- One invocation of a client sends at most three requests, and at most one
more than attempts of it fail in the transport. -/
theorem invocationSteps_bound (rt : Runtime) (s : ClientRun) (operation : Operation)
    (as : List ClientAction) :
    requests (invocationSteps rt s operation as)≤3 ∧
      requests (invocationSteps rt s operation as)≤
        1+failures (invocationSteps rt s operation as) := by
  have hfirst : ∀ phase : Phase, phase≠.sleeping→
      Timed {operation := operation,phase := phase} :=
    fun phase hawake => ⟨Nat.le_add_left 1 2,fun hp => absurd hp hawake⟩
  unfold invocationSteps
  dsimp only
  split
  · exact ⟨Nat.zero_le _,Nat.zero_le _⟩
  · rename_i hgrown
    unfold begin at hgrown ⊢
    split
    · exact added_bound rt rfl (hfirst .fetching (fun hp => (by cases hp))) (le_refl 3)
        (le_refl 1) as
    · exact added_bound rt rfl (hfirst (.resetting (.ended .closed)) (fun hp => (by cases hp)))
        (Nat.zero_le 3) (Nat.zero_le 1) as
    · split
      · rename_i hgate
        simp only [hgate] at hgrown
        exact absurd trivial hgrown
      · exact added_bound rt rfl (hfirst .fetching (fun hp => (by cases hp))) (le_refl 3)
          (le_refl 1) as

end Runs

section Calls

/-- Reports of a call stand for no client step. -/
theorem effectSteps_report (rt : Runtime) (s : ClientRun) (as : List ClientAction) {e : Effect}
    (h : ∀ client tool sent agentId, e≠.upstream client tool sent agentId) :
    effectSteps rt s as e=[] := by
  cases e with
  | upstream client tool sent agentId => exact absurd rfl (h client tool sent agentId)
  | toolCall serverId tool status => rfl
  | audit record => rfl
  | webhook event payload => rfl
  | storeResult qualified arguments content => rfl

/-- The effects of a second half stand for no client step. -/
theorem finishCall_steps (rt : Runtime) (s : ClientRun) (as : List ClientAction)
    (o : Orchestrator) (now : ℚ) (call : PendingCall) (answer : UpstreamAnswer) :
    (finishCall rt o now call answer).effects.flatMap (effectSteps rt s as)=[] := by
  refine List.flatMap_eq_nil_iff.mpr fun e he => effectSteps_report rt s as ?_
  rintro client tool sent agentId rfl
  exact finishCall_effects he

/-- The effects of a first half stand for the steps of at most one invocation. -/
theorem startCall_steps (rt : Runtime) (s : ClientRun) (as : List ClientAction)
    (o : Orchestrator) (now : ℚ) (request : CallRequest) :
    (startCall rt o now request).effects.flatMap (effectSteps rt s as)=[] ∨
    ∃ operation, (startCall rt o now request).effects.flatMap (effectSteps rt s as)=
      invocationSteps rt s operation as := by
  rcases mediated_or_none rt o now request with ⟨f,sent,reqRedacted,rfl,hmediated⟩ | hnot
  · rw [startCall_mediated hmediated]
    cases (lookupResult rt (rateGate o now f).1 now f sent).2 with
    | some content => exact .inl rfl
    | none => exact .inr ⟨_,List.append_nil _⟩
  · obtain ⟨outcome,-,-,-,hreport⟩ := startCall_not_mediated hnot
    refine .inl (List.flatMap_eq_nil_iff.mpr fun e he => effectSteps_report rt s as ?_)
    rintro client tool sent agentId rfl
    exact hreport _ he

/-- The steps of a call are those of at most one invocation of a client. -/
theorem callSteps_eq (rt : Runtime) (o : Orchestrator) (now : ℚ) (request : CallRequest)
    (interlude : Interlude) (s : ClientRun) (as : List ClientAction) :
    callSteps rt o now request interlude s as=[] ∨
    ∃ operation, callSteps rt o now request interlude s as=invocationSteps rt s operation as := by
  have hfirst := startCall_steps rt s as o now request
  unfold callSteps callTool
  dsimp only
  cases (startCall rt o now request).result with
  | ended outcome => exact hfirst
  | waiting call =>
    dsimp only
    rw [List.flatMap_append,finishCall_steps,List.append_nil]
    exact hfirst

/-- For every sequence of transport outcomes one call of a tool sends its
request at most three times, and at most once more than attempts of it end in
a transport error, a connection error or a timeout. -/
theorem call_requests_bound (rt : Runtime) (o : Orchestrator) (now : ℚ) (request : CallRequest)
    (interlude : Interlude) (s : ClientRun) (as : List ClientAction) :
    requests (callSteps rt o now request interlude s as)≤3 ∧
      requests (callSteps rt o now request interlude s as)≤
        1+failures (callSteps rt o now request interlude s as) := by
  rcases callSteps_eq rt o now request interlude s as with h | ⟨operation,h⟩
  · rw [h]
    exact ⟨Nat.zero_le _,Nat.zero_le _⟩
  · rw [h]
    exact invocationSteps_bound rt s operation as

end Calls

/-- A server whose only tool is mutable. -/
def mutableServer : UpstreamServer := {plainServer "a" with mutableTools := ["t"]}

/-- An orchestrator over this server, synchronized, that lets `agent` use its
mutable tool. -/
def mutableOrchestrator : Orchestrator :=
  {plainOrchestrator [] with
    registry := (final RegistryRuns.step (RegistryRuns.start {} {}) [.register mutableServer,
      .syncStart "a",.syncFinish 0 (.ok [{name := "t"}])]).registry
    authorizer := {mutableAllowedAgents := ["agent"]}}

/-- A session is opened and the request is sent on it. -/
def openedRequest : List ClientAction :=
  [.grant 0,.resolve 0 plainWorld,.progress 0 (.ok ()),.progress 0 (.ok ()),.progress 0 (.ok ())]

/-- The response is lost, and the attempt is repeated on a new session. -/
def lostResponse : List ClientAction :=
  openedRequest++[.respond 0 (.raised (.transport "connection reset")),.wake 0,.grant 0,
    .progress 0 (.ok ())]++openedRequest

/-- A mutable tool is called once and requested twice. -/
theorem mutable_request_repeated :
    (resolve mutableOrchestrator.registry "a.t" none).map
      (fun found => decide (found.2∈found.1.server.mutableTools))=.ok true ∧
    requests (callSteps asciiRuntime mutableOrchestrator 0 (plainRequest "a.t")
      (fun o => (o,0,.cancelled))
      {clock := 0,client := .new (fun _ => none) mutableServer none none}
      lostResponse)=2 := by
  refine ⟨rfl,?_⟩
  decide +kernel

end McpGateway.RequestRetries
