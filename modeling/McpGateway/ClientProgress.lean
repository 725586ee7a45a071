import Mathlib
import McpGateway.StepRun
import McpGateway.TaskPool
import McpGateway.JsonValue
import McpGateway.GatewaySettings
import McpGateway.CircuitBreakers
import McpGateway.RegistryRuns
import McpGateway.PyRuntime
import McpGateway.UpstreamContent
import McpGateway.AuthProviders
import McpGateway.McpClient
import McpGateway.ClientRuns
import McpGateway.RequestRetries

/-!
# Every operation of a client ends

An operation is suspended at the lock, at something outside, or between two
attempts. Each time it is resumed it comes nearer to its end, whatever it is
resumed with; and when it waits for the lock, the operation that holds it waits
for something else. So no operations wait for each other, and each one is
answered, once, after a bounded number of resumptions.
-/

namespace McpGateway.ClientProgress

open StepRun TaskPool JsonValue GatewaySettings CircuitBreakers RegistryRuns PyRuntime
open UpstreamContent AuthProviders McpClient ClientRuns RequestRetries

section Definitions

/-- Resumptions that an operation has left at most: nine for each further
attempt, and those to the end of the present one. -/
def remaining (task : ClientTask) : ℕ :=
  match task.phase with
  | .closing (.ended _) => 1
  | .resetting (.ended _) => 2
  | .requesting _ => 9*(3-task.attempt)+3
  | .initializing _ _ => 9*(3-task.attempt)+4
  | .handshaking _ _ => 9*(3-task.attempt)+5
  | .entering _ => 9*(3-task.attempt)+6
  | .resolving => 9*(3-task.attempt)+7
  | .fetching => 9*(3-task.attempt)+8
  | .closing .retry => 9*(3-task.attempt)+9
  | .resetting .retry => 9*(3-task.attempt)+10
  | .sleeping => 9*(2-task.attempt)+11

/-- Resumptions that all operations on their way have left. -/
def left (s : ClientRun) : ℕ := (s.tasks.map remaining).sum

/-- The action is what the operation is suspended for. -/
def fits (s : ClientRun) (task : ClientTask) : ClientAction→Bool
  | .grant _ =>
    match task.phase with
    | .fetching => !s.locked
    | .resetting _ => !s.locked
    | _ => false
  | .resolve _ _ =>
    match task.phase with
    | .resolving => true
    | _ => false
  | .progress _ _ =>
    match task.phase with
    | .entering _ => true
    | .handshaking _ _ => true
    | .initializing _ _ => true
    | .closing _ => true
    | _ => false
  | .respond _ reply =>
    match task.phase,task.operation,reply with
    | .requesting _,_,.raised _ => true
    | .requesting _,.callTool _ _ _,.result _ => true
    | .requesting _,.listTools,.tools _ => true
    | .requesting _,.ping,.pong => true
    | _,_,_ => false
  | .wake _ =>
    match task.phase with
    | .sleeping => true
    | _ => false
  | .cancel _ => true
  | _ => false

/-- The action resumes an operation. -/
def resumes (s : ClientRun) (a : ClientAction) : Bool :=
  match (target a).bind (fun i => s.tasks[i]?) with
  | none => false
  | some task => fits s task a

/-- The action cancels an operation. -/
def cancels : ClientAction→Bool
  | .cancel _ => true
  | _ => false

/-- The operation that an action begins. -/
def begun : ClientAction→Option Operation
  | .start operation => some operation
  | _ => none

/-- The operation that an event answers. -/
def answered : ClientEvent→Option Operation
  | .ended operation _ => some operation
  | _ => none

/-- Number of resumptions along a schedule. -/
def resumptions (rt : Runtime) : ClientRun→List ClientAction→ℕ
  | _,[] => 0
  | s,a::rest => (resumes s a).toNat+resumptions rt (ClientRuns.step rt s a).1 rest

end Definitions

section Parts

/-- A resumed operation is answered, or it is nearer to its end. -/
inductive Resumed (s : ClientRun) (i : ℕ) (task : ClientTask) (o : Outcome) : Prop where
  /-- It is answered. -/
  | ended (result : OperationResult) (tasks : o.1.tasks=s.tasks.eraseIdx i)
    (event : o.2=some (.ended task.operation result))
  /-- It is suspended elsewhere. -/
  | moved (next : ClientTask) (tasks : o.1.tasks=s.tasks.set i next)
    (operation : next.operation=task.operation) (less : remaining next<remaining task)
    (event : ∀ e∈o.2, answered e=none)

variable {s s' : ClientRun} {i : ℕ} {task : ClientTask}

/-- The end of an operation. -/
theorem resumed_finish (hs : s'.tasks=s.tasks) (result : OperationResult) :
    Resumed s i task (finish s' i task result) :=
  .ended result (congrArg (List.eraseIdx · i) hs) rfl

/-- A step towards the end. -/
theorem resumed_move (hs : s'.tasks=s.tasks) {phase : Phase}
    (hless : remaining {task with phase := phase}<remaining task) :
    Resumed s i task (move s' i task phase,none) :=
  .moved {task with phase := phase} (congrArg (fun tasks => List.set tasks i _) hs) rfl hless
    (fun _ he => (by cases he))

/-- A request. -/
theorem resumed_send (hs : s'.tasks=s.tasks) (session : Session)
    (hless : 9*(3-task.attempt)+3<remaining task) :
    Resumed s i task (send s' i task session) := by
  refine .moved {task with phase := .requesting session}
    (congrArg (fun tasks => List.set tasks i _) hs) rfl hless ?_
  intro e he
  cases he
  rfl

/-- The end of an attempt. -/
theorem resumed_endAttempt (hs : s'.tasks=s.tasks) (hp : 9*(3-task.attempt)+3≤remaining task)
    (result : Except ClientException OperationResult) :
    Resumed s i task (endAttempt s' i task result) := by
  have hreset : ∀ ending : OperationResult, ∀ s'' : ClientRun, s''.tasks=s.tasks→
      Resumed s i task (move s'' i task (.resetting (.ended ending)),none) := by
    intro ending s'' hs''
    refine resumed_move hs'' ?_
    have htwo : remaining {task with phase := .resetting (.ended ending)}=2 := rfl
    omega
  unfold endAttempt
  split
  · split
    · exact resumed_finish hs _
    · refine resumed_finish ?_ _
      exact hs
  · rename_i error
    split
    · exact hreset _ s' hs
    · split
      · rename_i hretry
        refine resumed_move hs ?_
        have hsleep : remaining {task with phase := .sleeping}=9*(2-task.attempt)+11 := rfl
        have hattempt := hretry.2
        omega
      · dsimp only
        split
        · refine resumed_finish ?_ _
          exact hs
        · exact hreset _ _ hs

/-- What follows a reset. -/
theorem resumed_proceed (hs : s'.tasks=s.tasks) {next : AfterReset}
    (hp : next=.retry→9*(3-task.attempt)+8<remaining task) :
    Resumed s i task (proceed s' i task next) := by
  cases next with
  | retry => exact resumed_move hs (hp rfl)
  | ended result => exact resumed_finish hs result

/-- A granted lock. -/
theorem resumed_granted (hf : fits s task (.grant i)=true) :
    Resumed s i task (granted s i task) := by
  obtain ⟨operation,attempt,phase⟩ := task
  cases phase with
  | fetching =>
    simp only [granted]
    split
    · refine resumed_send rfl _ ?_
      simp only [remaining]
      omega
    · refine resumed_move rfl ?_
      simp only [remaining]
      omega
  | resetting next =>
    simp only [granted]
    split
    · refine resumed_proceed ?_ ?_
      · rfl
      · rintro rfl
        simp only [remaining]
        omega
    · refine resumed_move ?_ ?_
      · rfl
      · cases next <;> simp only [remaining] <;> omega
  | _ => exact absurd hf Bool.false_ne_true

/-- Resolved headers. -/
theorem resumed_resolved (world : World) (hf : fits s task (.resolve i world)=true) :
    Resumed s i task (resolved s i task world) := by
  obtain ⟨operation,attempt,phase⟩ := task
  cases phase with
  | resolving =>
    have hend : 9*(3-attempt)+3≤remaining ⟨operation,attempt,.resolving⟩ := by
      simp only [remaining]
      omega
    simp only [resolved]
    split
    · refine resumed_endAttempt ?_ hend _
      rfl
    · refine .moved ⟨operation,attempt,.entering _⟩ rfl rfl ?_ ?_
      · simp only [remaining]
        omega
      · intro e he
        cases he
        rfl
  | _ => exact absurd hf Bool.false_ne_true

/-- An awaited part of an opening or closing. -/
theorem resumed_progressed (result : Except ClientException Unit)
    (hf : fits s task (.progress i result)=true) :
    Resumed s i task (progressed s i task result) := by
  obtain ⟨operation,attempt,phase⟩ := task
  cases phase with
  | entering session =>
    have hend : 9*(3-attempt)+3≤remaining ⟨operation,attempt,.entering session⟩ := by
      simp only [remaining]
      omega
    cases result with
    | error error =>
      refine resumed_endAttempt ?_ hend (.error error)
      rfl
    | ok _ =>
      refine resumed_move ?_ ?_
      · rfl
      · simp only [remaining]
        omega
  | handshaking session contexts =>
    have hend : 9*(3-attempt)+3≤remaining ⟨operation,attempt,.handshaking session contexts⟩ := by
      simp only [remaining]
      omega
    cases result with
    | error error =>
      refine resumed_endAttempt ?_ hend (.error error)
      rfl
    | ok _ =>
      refine resumed_move ?_ ?_
      · rfl
      · simp only [remaining]
        omega
  | initializing session contexts =>
    have hend : 9*(3-attempt)+3≤remaining ⟨operation,attempt,.initializing session contexts⟩ := by
      simp only [remaining]
      omega
    cases result with
    | error error =>
      refine resumed_endAttempt ?_ hend (.error error)
      rfl
    | ok _ =>
      refine resumed_send ?_ session ?_
      · rfl
      · simp only [remaining]
        omega
  | closing next =>
    refine resumed_proceed ?_ ?_
    · rfl
    · rintro rfl
      simp only [remaining]
      omega
  | _ => exact absurd hf Bool.false_ne_true

/-- The end of a request. -/
theorem resumed_responded (rt : Runtime) (reply : Reply)
    (hf : fits s task (.respond i reply)=true) :
    Resumed s i task (responded s i task rt reply) := by
  obtain ⟨operation,attempt,phase⟩ := task
  cases phase with
  | requesting session =>
    have hend : ∀ result, Resumed s i ⟨operation,attempt,.requesting session⟩
        (endAttempt s i ⟨operation,attempt,.requesting session⟩ result) :=
      fun result => resumed_endAttempt rfl le_rfl result
    cases reply with
    | raised error => cases operation <;> exact hend (.error error)
    | result result =>
      cases operation with
      | callTool name arguments agentId =>
        simp only [responded]
        split <;> exact hend _
      | _ => exact absurd hf Bool.false_ne_true
    | tools list =>
      cases operation with
      | listTools => exact hend (.ok (.tools list))
      | _ => exact absurd hf Bool.false_ne_true
    | pong =>
      cases operation with
      | ping => exact hend (.ok (.pong true))
      | _ => exact absurd hf Bool.false_ne_true
  | _ => exact absurd hf Bool.false_ne_true

/-- The end of a pause. -/
theorem resumed_woken (hf : fits s task (.wake i)=true) : Resumed s i task (woken s i task) := by
  obtain ⟨operation,attempt,phase⟩ := task
  cases phase with
  | sleeping =>
    refine .moved ⟨operation,attempt+1,.resetting .retry⟩ rfl rfl ?_ (fun _ he => (by cases he))
    simp only [remaining]
    omega
  | _ => exact absurd hf Bool.false_ne_true

/-- A cancellation. -/
theorem resumed_cancelled : Resumed s i task (cancelled s i task) := by
  unfold cancelled
  split
  · refine resumed_finish ?_ _
    rfl
  · exact resumed_finish rfl _

end Parts

section Steps

variable {s : ClientRun} {i : ℕ} {task : ClientTask} {a : ClientAction}

/-- An action resumes the operation that is suspended for it. -/
theorem step_resumed (rt : Runtime) (hta : target a=some i) (ht : s.tasks[i]?=some task)
    (hf : fits s task a=true) : Resumed s i task (ClientRuns.step rt s a) := by
  cases a with
  | tick elapsed => cases hta
  | start operation => cases hta
  | grant j =>
    cases hta
    have hfree : s.locked=false := by
      cases hp : task.phase with
      | fetching =>
        simp only [fits,hp,Bool.not_eq_true'] at hf
        exact hf
      | resetting next =>
        simp only [fits,hp,Bool.not_eq_true'] at hf
        exact hf
      | _ =>
        simp only [fits,hp] at hf
        cases hf
    simp only [ClientRuns.step,onTask,ht,hfree]
    exact resumed_granted hf
  | resolve j world =>
    cases hta
    simp only [ClientRuns.step,onTask,ht]
    exact resumed_resolved world hf
  | progress j result =>
    cases hta
    simp only [ClientRuns.step,onTask,ht]
    exact resumed_progressed result hf
  | respond j reply =>
    cases hta
    simp only [ClientRuns.step,onTask,ht]
    exact resumed_responded rt reply hf
  | wake j =>
    cases hta
    simp only [ClientRuns.step,onTask,ht]
    exact resumed_woken hf
  | cancel j =>
    cases hta
    simp only [ClientRuns.step,onTask,ht]
    exact resumed_cancelled

/-- An action that no operation is suspended for does nothing. -/
theorem step_unfit (rt : Runtime) (hta : target a=some i) (ht : s.tasks[i]?=some task)
    (hf : fits s task a=false) : ClientRuns.step rt s a=(s,none) := by
  obtain ⟨operation,attempt,phase⟩ := task
  cases a with
  | tick elapsed => cases hta
  | start operation => cases hta
  | grant j =>
    cases hta
    simp only [ClientRuns.step,onTask,ht]
    split
    · rfl
    · rename_i hfree
      cases phase with
      | fetching =>
        have hlocked : (!s.locked)=false := hf
        rw [Bool.not_eq_false'] at hlocked
        exact absurd hlocked hfree
      | resetting next =>
        have hlocked : (!s.locked)=false := hf
        rw [Bool.not_eq_false'] at hlocked
        exact absurd hlocked hfree
      | _ => rfl
  | resolve j world =>
    cases hta
    simp only [ClientRuns.step,onTask,ht]
    cases phase with
    | resolving => cases hf
    | _ => rfl
  | progress j result =>
    cases hta
    simp only [ClientRuns.step,onTask,ht]
    cases phase with
    | entering session => cases hf
    | handshaking session contexts => cases hf
    | initializing session contexts => cases hf
    | closing next => cases hf
    | _ => rfl
  | respond j reply =>
    cases hta
    simp only [ClientRuns.step,onTask,ht]
    cases phase with
    | requesting session => cases reply <;> cases operation <;> first | rfl | cases hf
    | _ => cases reply <;> cases operation <;> rfl
  | wake j =>
    cases hta
    simp only [ClientRuns.step,onTask,ht]
    cases phase with
    | sleeping => cases hf
    | _ => rfl
  | cancel j => cases hf

/-- An action on an operation that does not exist does nothing. -/
theorem step_missing (rt : Runtime) (hta : target a=some i) (ht : s.tasks[i]?=none) :
    ClientRuns.step rt s a=(s,none) := by
  cases a with
  | tick elapsed => cases hta
  | start operation => cases hta
  | grant j =>
    cases hta
    simp only [ClientRuns.step,onTask,ht]
    split <;> rfl
  | _ =>
    cases hta
    simp only [ClientRuns.step,onTask,ht]

/-- The end of one operation of a list of them. -/
theorem operations_ended (ht : s.tasks[i]?=some task) :
    (task.operation::(s.tasks.eraseIdx i).map ClientTask.operation).Perm
      (s.tasks.map ClientTask.operation) := by
  obtain ⟨before,after,hl,-,herase⟩ := around ht
  rw [herase,hl,List.map_append,List.map_append,List.map_cons]
  exact List.perm_middle.symm

/-- One operation goes on. -/
theorem operations_moved (ht : s.tasks[i]?=some task) {next : ClientTask}
    (hop : next.operation=task.operation) :
    (s.tasks.set i next).map ClientTask.operation=s.tasks.map ClientTask.operation := by
  obtain ⟨before,after,hl,hset,-⟩ := around ht
  rw [hset next,hl,List.map_append,List.map_append,List.map_cons,List.map_cons,hop]

/-- What one action does to the operations and to the resumptions they have
left. -/
structure Proceeds (s : ClientRun) (a : ClientAction) (o : Outcome) : Prop where
  /-- The operations before and the one that begins are those afterwards and
  the one that is answered. -/
  operations : (o.2.toList.filterMap answered++o.1.tasks.map ClientTask.operation).Perm
    (s.tasks.map ClientTask.operation++(begun a).toList)
  /-- A resumption is taken from what is left; who begins brings some in. -/
  paid : left o.1+(resumes s a).toNat≤left s+26*(begun a).toList.length

/-- Nothing happens. -/
theorem proceeds_idle (hb : begun a=none) (hr : resumes s a=false) {o : Outcome}
    (htasks : o.1.tasks=s.tasks) (hevent : o.2=none) : Proceeds s a o := by
  refine ⟨?_,?_⟩
  · rw [hevent,htasks,hb]
    simp only [Option.toList_none,List.filterMap_nil,List.nil_append,List.append_nil]
    exact List.Perm.refl _
  · rw [left,left,htasks,hb,hr]
    exact le_rfl

/-- An operation begins, or is refused at once. -/
theorem proceeds_begin (s : ClientRun) (operation : Operation) :
    Proceeds s (.start operation) (begin s operation) := by
  have hadd : ∀ s' : ClientRun, ∀ task : ClientTask, s'.tasks=s.tasks++[task]→
      task.operation=operation→ remaining task≤26→
        Proceeds s (.start operation) (s',none) := by
    intro s' task htasks hop hle
    refine ⟨?_,?_⟩
    · rw [htasks,List.map_append,List.map_singleton,hop]
      exact List.Perm.refl _
    · rw [left,htasks,List.map_append,List.sum_append,List.map_singleton,List.sum_singleton]
      have hone : 26*(begun (.start operation)).toList.length=26 := rfl
      have hnot : (resumes s (.start operation)).toNat=0 := rfl
      rw [hone,hnot,left]
      omega
  have hfetch : ∀ operation : Operation,
      remaining {operation := operation,phase := .fetching}≤26 := fun _ => le_rfl
  have hrefuse : ∀ error calls, Proceeds s (.start operation)
      ({s with breakerCalls := calls},some (.ended operation (.raised error))) := by
    intro error calls
    refine ⟨?_,Nat.le_add_right _ _⟩
    have hone : (some (ClientEvent.ended operation (.raised error))).toList.filterMap answered=
        [operation] := rfl
    rw [hone]
    exact List.perm_append_comm
  cases operation with
  | ping => exact hadd _ _ rfl rfl (hfetch _)
  | close => exact hadd _ _ rfl rfl (show 2≤26 by decide)
  | callTool name arguments agentId =>
    unfold begin
    dsimp only
    split
    · exact hrefuse _ _
    · exact hadd _ _ rfl rfl (hfetch _)
  | listTools =>
    unfold begin
    dsimp only
    split
    · exact hrefuse _ _
    · exact hadd _ _ rfl rfl (hfetch _)

/-- Every action proceeds. -/
theorem step_proceeds (rt : Runtime) (s : ClientRun) (a : ClientAction) :
    Proceeds s a (ClientRuns.step rt s a) := by
  cases hta : target a with
  | none =>
    cases a with
    | tick elapsed => exact proceeds_idle rfl rfl rfl rfl
    | start operation => exact proceeds_begin s operation
    | _ => cases hta
  | some i =>
    have hb : begun a=none := by
      cases a with
      | start operation => cases hta
      | _ => rfl
    cases ht : s.tasks[i]? with
    | none =>
      have hresumes : resumes s a=false := by simp only [resumes,hta,Option.bind_some,ht]
      have hstep := step_missing rt hta ht
      exact proceeds_idle hb hresumes (by rw [hstep]) (by rw [hstep])
    | some task =>
      have hresumes : resumes s a=fits s task a := by
        simp only [resumes,hta,Option.bind_some,ht]
      cases hf : fits s task a with
      | false =>
        have hstep := step_unfit rt hta ht hf
        exact proceeds_idle hb (hresumes.trans hf) (by rw [hstep]) (by rw [hstep])
      | true =>
        have herase := sum_erase remaining ht
        rw [hf] at hresumes
        cases step_resumed rt hta ht hf with
        | ended result tasks event =>
          refine ⟨?_,?_⟩
          · rw [event,tasks,hb,Option.toList_none,List.append_nil]
            exact operations_ended ht
          · have hpos : 1≤remaining task := by
              unfold remaining
              split <;> omega
            rw [left,left,tasks,herase,hb,hresumes,Bool.toNat_true]
            omega
        | moved next tasks operation less event =>
          refine ⟨?_,?_⟩
          · have hsilent : (ClientRuns.step rt s a).2.toList.filterMap answered=[] :=
              List.filterMap_eq_nil_iff.mpr fun e he => event e (Option.mem_toList.mp he)
            rw [hsilent,tasks,operations_moved ht operation,hb,Option.toList_none,List.append_nil,
              List.nil_append]
          · have hset := sum_set remaining ht next
            rw [left,left,tasks,hset,herase,hb,hresumes,Bool.toNat_true]
            omega

/-- Something that an operation is suspended for, other than a cancellation. -/
def Resumable (s : ClientRun) (i : ℕ) : Prop :=
  ∃ a, target a=some i ∧ cancels a=false ∧ resumes s a=true

/-- The operation is at the lock while another has it. -/
def Queued (s : ClientRun) (task : ClientTask) : Prop :=
  s.locked=true ∧ (task.phase=.fetching ∨ ∃ next, task.phase=.resetting next)

/-- An operation that is not at a taken lock can be resumed. -/
theorem resumable_or_queued (ht : s.tasks[i]?=some task) : Resumable s i ∨ Queued s task := by
  have hresume : ∀ a, target a=some i→cancels a=false→fits s task a=true→ Resumable s i := by
    intro a hta hc hf
    refine ⟨a,hta,hc,?_⟩
    simp only [resumes,hta,Option.bind_some,ht]
    exact hf
  have hlock : (task.phase=.fetching ∨ ∃ next, task.phase=.resetting next)→
      Resumable s i ∨ Queued s task := by
    intro hp
    cases hl : s.locked with
    | true => exact Or.inr ⟨hl,hp⟩
    | false =>
      refine Or.inl (hresume (.grant i) rfl rfl ?_)
      rcases hp with hp | ⟨next,hp⟩ <;> simp only [fits,hp,hl,Bool.not_false]
  cases hp : task.phase with
  | fetching => exact hlock (Or.inl hp)
  | resetting next => exact hlock (Or.inr ⟨next,hp⟩)
  | resolving =>
    let world : World := ⟨fun _ => none,0,fun _ _ => .body none none,0⟩
    exact Or.inl (hresume (.resolve i world) rfl rfl (by simp only [fits,hp]))
  | requesting session =>
    exact Or.inl (hresume (.respond i (.raised (.other ""))) rfl rfl (by simp only [fits,hp]))
  | sleeping => exact Or.inl (hresume (.wake i) rfl rfl (by simp only [fits,hp]))
  | _ => exact Or.inl (hresume (.progress i (.ok ())) rfl rfl (by simp only [fits,hp]))

/-- Who has the lock can be resumed. -/
theorem holder_resumable (ht : s.tasks[i]?=some task) (hh : task.phase.holdsLock=true) :
    Resumable s i := by
  refine (resumable_or_queued ht).resolve_right ?_
  rintro ⟨-,hp | ⟨next,hp⟩⟩
  · rw [hp] at hh
    cases hh
  · rw [hp] at hh
    cases hh

/-- An operation can be resumed, or it waits for the lock of one that can. -/
theorem not_stuck (ht : s.tasks[i]?=some task) :
    Resumable s i ∨ Queued s task ∧ ∃ j holder, s.tasks[j]?=some holder ∧
      holder.phase.holdsLock=true ∧ Resumable s j := by
  rcases resumable_or_queued ht with hready | hqueued
  · exact Or.inl hready
  · obtain ⟨holder,hmem,hholds⟩ := List.any_eq_true.mp hqueued.1
    obtain ⟨j,hj⟩ := List.mem_iff_getElem?.mp hmem
    exact Or.inr ⟨hqueued,j,holder,hj,hholds,holder_resumable hj hholds⟩

end Steps

section Runs

variable (rt : Runtime)

/-- Operations that a schedule begins. -/
def requested (actions : List ClientAction) : List Operation := actions.filterMap begun

/-- Whatever happens in a run, its operations are answered or on their way, and
resumptions are limited. -/
theorem run_proceeds (s : ClientRun) (actions : List ClientAction) :
    ((run (ClientRuns.step rt) s actions).2.filterMap answered++
      (run (ClientRuns.step rt) s actions).1.tasks.map ClientTask.operation).Perm
        (s.tasks.map ClientTask.operation++requested actions) ∧
    left (run (ClientRuns.step rt) s actions).1+resumptions rt s actions≤
      left s+26*(requested actions).length := by
  induction actions generalizing s with
  | nil =>
    refine ⟨?_,le_rfl⟩
    rw [requested,List.filterMap_nil,List.append_nil]
    exact List.Perm.refl _
  | cons a rest ih =>
    obtain ⟨hoperations,hpaid⟩ := step_proceeds rt s a
    obtain ⟨hlater,hlaterpaid⟩ := ih (ClientRuns.step rt s a).1
    have hbegun : requested (a::rest)=(begun a).toList++requested rest := by
      rw [requested,requested,List.filterMap_cons]
      cases begun a <;> rfl
    rw [hbegun,run]
    refine ⟨?_,?_⟩
    · rw [List.filterMap_append,List.append_assoc]
      refine (hlater.append_left _).trans ?_
      rw [←List.append_assoc,←List.append_assoc]
      exact hoperations.append_right _
    · rw [resumptions,List.length_append]
      dsimp only
      omega

/-- What is known of a client after a run. -/
structure Progresses (actions : List ClientAction) (last : ClientRun) (events : List ClientEvent)
    (resumed : ℕ) : Prop where
  /-- Each operation that began was answered once, or is on its way. -/
  accounted : (events.filterMap answered++last.tasks.map ClientTask.operation).Perm
    (requested actions)
  /-- Operations were resumed a limited number of times. -/
  bounded : resumed≤26*(requested actions).length
  /-- An operation on its way can be resumed by something other than a
  cancellation, or it waits for the lock and the one that has it can. -/
  unstuck : ∀ i task, last.tasks[i]?=some task→ Resumable last i ∨ Queued last task ∧
    ∃ j holder, last.tasks[j]?=some holder ∧ holder.phase.holdsLock=true ∧ Resumable last j

/-- Whatever operations of one client overlap, and whatever their openings,
requests and closings end with: none is lost or answered twice, no operations
wait for each other, and no more than twenty-six resumptions for each that began
are left until all are answered. -/
theorem client_progresses (client : MCPClient) (now : ℚ) (actions : List ClientAction) :
    let r := run (ClientRuns.step rt) {clock := now,client := client} actions
    Progresses actions r.1 r.2 (resumptions rt {clock := now,client := client} actions) := by
  intro r
  obtain ⟨hoperations,hpaid⟩ := run_proceeds rt {clock := now,client := client} actions
  refine ⟨hoperations,?_,fun i task ht => not_stuck ht⟩
  have hnone : left {clock := now,client := client}=0 := rfl
  rw [hnone,Nat.zero_add] at hpaid
  exact (Nat.le_add_left _ _).trans hpaid

end Runs

end McpGateway.ClientProgress
