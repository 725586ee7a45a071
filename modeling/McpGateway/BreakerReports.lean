import Mathlib
import McpGateway.StepRun
import McpGateway.TaskPool
import McpGateway.GatewaySettings
import McpGateway.CircuitBreakers
import McpGateway.PyRuntime
import McpGateway.UpstreamContent
import McpGateway.AuthProviders
import McpGateway.McpClient
import McpGateway.BreakerRuns
import McpGateway.ClientRuns

/-!
# How a client uses its breaker

A breaker knows admissions and outcomes, a client knows operations that wait
for locks, sessions, answers and pauses. A disciplined history is one in which
every outcome settles an admission. Each client run drives its breaker along
such a history: an admitted operation owes one outcome until it reports, and
only a cancellation leaves one unsettled.
-/

namespace McpGateway.BreakerReports

open StepRun TaskPool GatewaySettings CircuitBreakers PyRuntime UpstreamContent AuthProviders
open McpClient BreakerRuns ClientRuns

section Discipline

/-- Histories of a breaker in which every outcome settles an admission, with
the breaker they lead to and the admissions that are not settled. -/
inductive Disciplined (b : CircuitBreaker) : List TimedOperation→CircuitBreaker→ℕ→Prop where
  /-- Nothing has happened. -/
  | start : Disciplined b [] b 0
  /-- The breaker refuses. -/
  | refuse {ops : List TimedOperation} {now : CircuitBreaker} {n : ℕ} {time : ℚ}
    {error : CircuitOpenError} (h : Disciplined b ops now n)
    (hr : now.beforeCall time=.error error) : Disciplined b (ops++[⟨time,.beforeCall⟩]) now n
  /-- It admits. -/
  | admission {ops : List TimedOperation} {now admitted : CircuitBreaker} {n : ℕ} {time : ℚ}
    (h : Disciplined b ops now n) (ha : now.beforeCall time=.ok admitted) :
    Disciplined b (ops++[⟨time,.beforeCall⟩]) admitted (n+1)
  /-- An admission is settled by a success. -/
  | succeed {ops : List TimedOperation} {now : CircuitBreaker} {n : ℕ} {time : ℚ}
    (h : Disciplined b ops now (n+1)) :
    Disciplined b (ops++[⟨time,.onSuccess⟩]) now.onSuccess n
  /-- An admission is settled by a failure. -/
  | fail {ops : List TimedOperation} {now : CircuitBreaker} {n : ℕ} {time : ℚ}
    (h : Disciplined b ops now (n+1)) :
    Disciplined b (ops++[⟨time,.onFailure⟩]) (now.onFailure time) n

variable {b now : CircuitBreaker} {ops : List TimedOperation} {n : ℕ}

/-- A disciplined history is a run of the breaker. -/
theorem Disciplined.run (h : Disciplined b ops now n) : final BreakerRuns.step b ops=now := by
  have hlast : ∀ (ops : List TimedOperation) op, final BreakerRuns.step b (ops++[op])=
      BreakerRuns.step (final BreakerRuns.step b ops) op := fun ops op => List.foldl_concat ..
  induction h with
  | start => rfl
  | refuse h hr ih =>
    rw [hlast,ih,BreakerRuns.step]
    dsimp only
    rw [hr]
  | admission h ha ih =>
    rw [hlast,ih,BreakerRuns.step]
    dsimp only
    rw [ha]
  | succeed h ih =>
    rw [hlast,ih]
    rfl
  | fail h ih =>
    rw [hlast,ih]
    rfl

end Discipline

section Obligations

/-- The operation passes the gate of the breaker. -/
def gated : Operation→Bool
  | .callTool _ _ _ => true
  | .listTools => true
  | .ping => false
  | .close => false

/-- The phase lies behind the report of an operation. -/
def reported : Phase→Bool
  | .resetting (.ended _) => true
  | .closing (.ended _) => true
  | _ => false

/-- The operation was admitted and has not reported. -/
def owes (task : ClientTask) : Bool := gated task.operation && !reported task.phase

/-- Operations that have not reported. -/
def owing (s : ClientRun) : ℕ := (s.tasks.map (fun task => (owes task).toNat)).sum

/-- A step of a run cancels an operation that has not reported. -/
def drops (taken : ClientRun×ClientAction) : Bool :=
  match taken.2 with
  | .cancel i => (taken.1.tasks[i]?).any owes
  | _ => false

variable (s : ClientRun) (i : ℕ) {task : ClientTask}

/-- The end of an operation settles what it owed. -/
theorem owing_erase (hi : s.tasks[i]?=some task) :
    owing s=(owes task).toNat+((s.tasks.eraseIdx i).map (fun task => (owes task).toNat)).sum :=
  sum_erase _ hi

/-- So does its next phase, if it owes nothing there. -/
theorem owing_move (hi : s.tasks[i]?=some task) (next : ClientTask) (phase : Phase) :
    owing (move s i next phase)+(owes task).toNat=
      owing s+(owes {next with phase := phase}).toNat := by
  have hset := sum_set (fun task : ClientTask => (owes task).toNat) hi {next with phase := phase}
  have herase := owing_erase s i hi
  unfold owing move at *
  dsimp only
  omega

end Obligations

section Steps

/-- The calls of the breaker are one more. -/
def Logged (s s' : ClientRun) (operation : BreakerOperation) : Prop :=
  s'.breakerCalls=s.breakerCalls++[⟨s.clock,operation⟩]

/-- Everything a step can do with the breaker, when it drops an operation that
owes an outcome and when it does not. -/
inductive Uses (s s' : ClientRun) : Bool→Prop where
  /-- Nothing. -/
  | quiet (hb : s'.client.breaker=s.client.breaker) (hl : s'.breakerCalls=s.breakerCalls)
    (ho : owing s'=owing s) : Uses s s' false
  /-- The breaker refuses an operation. -/
  | refuse {b : CircuitBreaker} {error : CircuitOpenError} (hb : s.client.breaker=some b)
    (hr : b.beforeCall s.clock=.error error) (hb' : s'.client.breaker=s.client.breaker)
    (hl : Logged s s' .beforeCall) (ho : owing s'=owing s) : Uses s s' false
  /-- It admits one. -/
  | admission {b admitted : CircuitBreaker} (hb : s.client.breaker=some b)
    (ha : b.beforeCall s.clock=.ok admitted) (hb' : s'.client.breaker=some admitted)
    (hl : Logged s s' .beforeCall) (ho : owing s'=owing s+1) : Uses s s' false
  /-- An operation without a breaker passes. -/
  | pass (hb : s.client.breaker=none) (hb' : s'.client.breaker=none) : Uses s s' false
  /-- An operation reports a success. -/
  | succeed (hb : s'.client.breaker=s.client.breaker.map CircuitBreaker.onSuccess)
    (hl : Logged s s' .onSuccess) (ho : owing s=owing s'+1) : Uses s s' false
  /-- An operation reports a failure. -/
  | fail (hb : s'.client.breaker=s.client.breaker.map (CircuitBreaker.onFailure · s.clock))
    (hl : Logged s s' .onFailure) (ho : owing s=owing s'+1) : Uses s s' false
  /-- An operation that owes an outcome is cancelled. -/
  | abandon (hb : s'.client.breaker=s.client.breaker) (hl : s'.breakerCalls=s.breakerCalls)
    (ho : owing s=owing s'+1) : Uses s s' true

/-- A closing has nothing to report. -/
def Closers (s : ClientRun) : Prop :=
  ∀ task∈s.tasks, task.operation=.close→ reported task.phase=true

/-- What a step does with the breaker, and to the closings. -/
structure Sound (s s' : ClientRun) (dropped : Bool) : Prop where
  /-- The breaker. -/
  uses : Uses s s' dropped
  /-- The closings. -/
  closers : Closers s'
  /-- The clock stays. -/
  clock : s'.clock=s.clock

variable {s moved : ClientRun} {i : ℕ} {task : ClientTask}

/-- Closings stay closings when one task stands elsewhere. -/
theorem closers_move (hc : Closers moved) {next : ClientTask} {phase : Phase}
    (hn : next.operation=.close→ reported phase=true) : Closers (move moved i next phase) := by
  intro other ho hclose
  rcases List.mem_or_eq_of_mem_set ho with ho | rfl
  · exact hc other ho hclose
  · exact hn hclose

/-- So they do when one task ends. -/
theorem closers_finish (hc : Closers moved) (result : OperationResult) :
    Closers (finish moved i task result).1 :=
  fun other ho => hc other (List.mem_of_mem_eraseIdx ho)

/-- A client with the same operations on their way, whose breaker may have been
told something. -/
structure Beside (s moved : ClientRun) : Prop where
  /-- The operations. -/
  tasks : moved.tasks=s.tasks
  /-- The clock. -/
  clock : moved.clock=s.clock

/-- One whose breaker has been told nothing. -/
structure Untold (s moved : ClientRun) : Prop extends Beside s moved where
  /-- The breaker. -/
  breaker : moved.client.breaker=s.client.breaker
  /-- Its calls. -/
  calls : moved.breakerCalls=s.breakerCalls

/-- An operation that goes on without a report. -/
theorem sound_move (hc : Closers s) (hi : s.tasks[i]?=some task) (hm : Untold s moved)
    {next : ClientTask} {phase : Phase} (ho : owes {next with phase := phase}=owes task)
    (hn : next.operation=.close→ reported phase=true) :
    Sound s (move moved i next phase) false := by
  have hmoved : Closers moved := fun other h => hc other (hm.tasks ▸ h)
  refine ⟨.quiet hm.breaker hm.calls ?_,closers_move hmoved hn,hm.clock⟩
  have howing := owing_move moved i (hm.tasks ▸ hi) next phase
  have hsame : owing moved=owing s := by
    unfold owing
    rw [hm.tasks]
  rw [ho] at howing
  omega

/-- What an operation owed is no longer owed behind it. -/
theorem owing_finish (hi : s.tasks[i]?=some task) (hm : Beside s moved)
    (result : OperationResult) :
    owing s=owing (finish moved i task result).1+(owes task).toNat := by
  have howing := owing_erase s i hi
  unfold owing finish at *
  dsimp only
  rw [hm.tasks]
  omega

/-- An operation that ends and owes nothing. -/
theorem sound_finish (hc : Closers s) (hi : s.tasks[i]?=some task) (hm : Untold s moved)
    (ho : owes task=false) (result : OperationResult) :
    Sound s (finish moved i task result).1 false := by
  have hmoved : Closers moved := fun other h => hc other (hm.tasks ▸ h)
  have howing := owing_finish hi hm.toBeside result
  rw [ho] at howing
  exact ⟨.quiet hm.breaker hm.calls howing.symm,closers_finish hmoved result,hm.clock⟩

/-- Behind the report of a failure, an operation owes nothing. -/
theorem owing_settled (hi : s.tasks[i]?=some task) (hm : Beside s moved) (ho : owes task=true)
    {phase : Phase} (hp : reported phase=true) : owing s=owing (move moved i task phase)+1 := by
  have howing := owing_move moved i (hm.tasks ▸ hi) task phase
  have hsame : owing moved=owing s := by
    unfold owing
    rw [hm.tasks]
  have hnone : owes {task with phase := phase}=false := by
    simp only [owes,hp,Bool.not_true,Bool.and_false]
  rw [ho,hnone] at howing
  simp only [Bool.toNat_true,Bool.toNat_false] at howing
  omega

/-- The end of an attempt reports, or leads to the next attempt. -/
theorem sound_endAttempt (hc : Closers s) (hi : s.tasks[i]?=some task) (hm : Untold s moved)
    (hp : reported task.phase=false) (result : Except ClientException OperationResult) :
    Sound s (endAttempt moved i task result).1 false := by
  have hmoved : Closers moved := fun other h => hc other (hm.tasks ▸ h)
  cases hg : gated task.operation with
  | false =>
    have ho : owes task=false := by simp only [owes,hg,Bool.false_and]
    have hping : task.operation=.ping := by
      cases hop : task.operation with
      | callTool name arguments agentId => rw [hop] at hg; cases hg
      | listTools => rw [hop] at hg; cases hg
      | ping => rfl
      | close =>
        have hclosed := hc task (List.mem_of_getElem? hi) hop
        rw [hp] at hclosed
        cases hclosed
    unfold endAttempt
    cases result with
    | ok value =>
      rw [hping]
      exact sound_finish hc hi hm ho value
    | error error =>
      rw [hping]
      refine sound_move hc hi hm ?_ (fun hclose => ?_)
      · simp only [owes,hg,Bool.false_and]
      · rw [hping] at hclose
        cases hclose
  | true =>
    have ho : owes task=true := by simp only [owes,hg,hp,Bool.not_false,Bool.and_true]
    have hnotClose : ∀ {phase : Phase}, task.operation=.close→ reported phase=true := by
      intro phase hclose
      rw [hclose] at hg
      cases hg
    have hlog : ∀ operation, moved.breakerCalls++[(⟨moved.clock,operation⟩ : TimedOperation)]=
        s.breakerCalls++[⟨s.clock,operation⟩] := by
      intro operation
      rw [hm.calls,hm.clock]
    have hbeside : ∀ client calls,
        Beside s {moved with client := client,breakerCalls := calls} :=
      fun _ _ => ⟨hm.tasks,hm.clock⟩
    have hreport : ∀ client calls,
        Closers {moved with client := client,breakerCalls := calls} := fun _ _ => hmoved
    have hsettle : ∀ value client calls, owing s=
        owing (finish {moved with client := client,breakerCalls := calls} i task value).1+1 := by
      intro value client calls
      have howing := owing_finish hi (hbeside client calls) value
      rw [ho] at howing
      exact howing
    cases result with
    | ok value =>
      have hended : endAttempt moved i task (.ok value)=finish {moved with
          client := moved.client.onOk
          breakerCalls := moved.breakerCalls++[⟨moved.clock,.onSuccess⟩]} i task value := by
        unfold endAttempt
        cases hop : task.operation with
        | ping => rw [hop] at hg; cases hg
        | callTool name arguments agentId => rfl
        | listTools => rfl
        | close => rfl
      rw [hended]
      refine ⟨.succeed ?_ (hlog _) (hsettle value _ _),closers_finish (hreport _ _) value,hm.clock⟩
      exact congrArg (Option.map CircuitBreaker.onSuccess) hm.breaker
    | error error =>
      have hfailed : (moved.client.onErr moved.clock).breaker=
          s.client.breaker.map (CircuitBreaker.onFailure · s.clock) := by
        rw [←hm.breaker,←hm.clock]
        rfl
      by_cases hr : error.retried=true ∧ task.attempt<3
      · have hended : endAttempt moved i task (.error error)=
            (move moved i task .sleeping,none) := by
          unfold endAttempt
          cases hop : task.operation with
          | ping => rw [hop] at hg; cases hg
          | callTool name arguments agentId => exact if_pos hr
          | listTools => exact if_pos hr
          | close => exact if_pos hr
        rw [hended]
        refine sound_move hc hi hm ?_ hnotClose
        simp only [owes,hg,hp]
        rfl
      · have hreset : ∀ value, Sound s (move {moved with
            client := moved.client.onErr moved.clock
            breakerCalls := moved.breakerCalls++[⟨moved.clock,.onFailure⟩]} i task
              (.resetting (.ended value))) false :=
          fun value => ⟨.fail hfailed (hlog _) (owing_settled hi (hbeside _ _) ho rfl),
            closers_move (hreport _ _) (fun _ => rfl),hm.clock⟩
        have hraised : ∀ value, Sound s (finish {moved with
            client := moved.client.onErr moved.clock
            breakerCalls := moved.breakerCalls++[⟨moved.clock,.onFailure⟩]} i task value).1
              false :=
          fun value => ⟨.fail hfailed (hlog _) (hsettle _ _ _),closers_finish (hreport _ _) _,
            hm.clock⟩
        unfold endAttempt
        dsimp only
        rw [if_neg hr]
        cases hop : task.operation with
        | ping => rw [hop] at hg; cases hg
        | callTool name arguments agentId =>
          cases error with
          | upstream error => exact hraised _
          | transport text => exact hreset _
          | other text => exact hreset _
        | listTools =>
          cases error with
          | upstream error => exact hraised _
          | transport text => exact hreset _
          | other text => exact hreset _
        | close =>
          cases error with
          | upstream error => exact hraised _
          | transport text => exact hreset _
          | other text => exact hreset _

/-- Two phases on one side of the report owe the same. -/
theorem owes_phase {phase : Phase} (hp : reported phase=reported task.phase) :
    owes {task with phase := phase}=owes task := by
  simp only [owes,hp]

/-- A task that has not reported is no closing. -/
theorem Closers.not_close (hc : Closers s) (hi : s.tasks[i]?=some task)
    (hp : reported task.phase=false) {phase : Phase} (h : task.operation=.close) :
    reported phase=true := by
  have hreported := hc task (List.mem_of_getElem? hi) h
  rw [hp] at hreported
  cases hreported

/-- An operation goes on before its report. -/
theorem sound_next (hc : Closers s) (hi : s.tasks[i]?=some task) (hm : Untold s moved)
    (hp : reported task.phase=false) {phase : Phase} (hnext : reported phase=false) :
    Sound s (move moved i task phase) false :=
  sound_move hc hi hm (owes_phase (hnext.trans hp.symm)) (hc.not_close hi hp)

/-- What follows a reset. -/
theorem sound_proceed (hc : Closers s) (hi : s.tasks[i]?=some task) (hm : Untold s moved)
    {next : AfterReset} (hp : reported task.phase=reported (.resetting next)) :
    Sound s (proceed moved i task next).1 false := by
  cases next with
  | retry => exact sound_next hc hi hm hp rfl
  | ended result =>
    refine sound_finish hc hi hm ?_ result
    simp only [owes,hp]
    exact Bool.and_false _

/-- Nothing happens. -/
theorem sound_same (hc : Closers s) : Sound s s false := ⟨.quiet rfl rfl rfl,hc,rfl⟩

/-- The lock is granted. -/
theorem sound_granted (hc : Closers s) (hi : s.tasks[i]?=some task) :
    Sound s (granted s i task).1 false := by
  have hsame : Sound s s false := sound_same hc
  unfold granted
  cases hp : task.phase with
  | fetching =>
    have hfetching : reported task.phase=false := by rw [hp]; rfl
    cases hs : s.client.session with
    | some session => exact sound_next hc hi ⟨⟨rfl,rfl⟩,rfl,rfl⟩ hfetching rfl
    | none => exact sound_next hc hi ⟨⟨rfl,rfl⟩,rfl,rfl⟩ hfetching rfl
  | resetting next =>
    have hm : Untold s {s with client := {s.client with session := none}} :=
      ⟨⟨rfl,rfl⟩,rfl,rfl⟩
    dsimp only
    split
    · exact sound_proceed hc hi hm (by rw [hp])
    · have hside : reported (.closing next)=reported task.phase := by
        rw [hp]
        cases next <;> rfl
      refine sound_move hc hi hm (owes_phase hside) (fun hclose => ?_)
      rw [hside]
      exact hc task (List.mem_of_getElem? hi) hclose
  | resolving => exact hsame
  | entering session => exact hsame
  | handshaking session entered => exact hsame
  | initializing session entered => exact hsame
  | requesting session => exact hsame
  | sleeping => exact hsame
  | closing next => exact hsame

/-- Headers are resolved or not. -/
theorem sound_resolved (hc : Closers s) (hi : s.tasks[i]?=some task) (world : World) :
    Sound s (resolved s i task world).1 false := by
  have hsame : Sound s s false := sound_same hc
  have hbreaker : (s.client.resolveHeaders world task.operation.agentId).1.breaker=
      s.client.breaker := by
    unfold MCPClient.resolveHeaders
    cases s.client.authProvider <;> rfl
  unfold resolved
  cases hp : task.phase with
  | resolving =>
    have hresolving : reported task.phase=false := by rw [hp]; rfl
    have hm : Untold s {s with client :=
      (s.client.resolveHeaders world task.operation.agentId).1} := ⟨⟨rfl,rfl⟩,hbreaker,rfl⟩
    dsimp only
    split
    · exact sound_endAttempt hc hi hm hresolving _
    · exact sound_next hc hi hm hresolving rfl
  | fetching => exact hsame
  | entering session => exact hsame
  | handshaking session entered => exact hsame
  | initializing session entered => exact hsame
  | requesting session => exact hsame
  | sleeping => exact hsame
  | resetting next => exact hsame
  | closing next => exact hsame

/-- A part of an opening or closing ends. -/
theorem sound_progressed (hc : Closers s) (hi : s.tasks[i]?=some task)
    (result : Except ClientException Unit) :
    Sound s (progressed s i task result).1 false := by
  have hsame : Sound s s false := sound_same hc
  have hend : ∀ error, reported task.phase=false→
      Sound s (endAttempt s i task (.error error)).1 false :=
    fun error hp => sound_endAttempt hc hi ⟨⟨rfl,rfl⟩,rfl,rfl⟩ hp _
  unfold progressed
  cases hp : task.phase with
  | entering session =>
    have hentering : reported task.phase=false := by rw [hp]; rfl
    cases result with
    | error error => exact hend error hentering
    | ok u =>
      have hm : Untold s (enter s .transport).1 := ⟨⟨rfl,rfl⟩,rfl,rfl⟩
      exact sound_next hc hi hm hentering rfl
  | handshaking session contexts =>
    have hhandshaking : reported task.phase=false := by rw [hp]; rfl
    cases result with
    | error error => exact hend error hhandshaking
    | ok u =>
      have hm : Untold s (enter s .session).1 := ⟨⟨rfl,rfl⟩,rfl,rfl⟩
      exact sound_next hc hi hm hhandshaking rfl
  | initializing session contexts =>
    have hinitializing : reported task.phase=false := by rw [hp]; rfl
    cases result with
    | error error => exact hend error hinitializing
    | ok u =>
      have hm : Untold s {s with client :=
        {s.client with session := some session,stack := some contexts}} := ⟨⟨rfl,rfl⟩,rfl,rfl⟩
      exact sound_next hc hi hm hinitializing rfl
  | closing next =>
    have hside : reported task.phase=reported (.resetting next) := by
      rw [hp]
      cases next <;> rfl
    have hm : Untold s (exitStack s none) := ⟨⟨rfl,rfl⟩,rfl,rfl⟩
    exact sound_proceed hc hi hm hside
  | fetching => exact hsame
  | resolving => exact hsame
  | requesting session => exact hsame
  | sleeping => exact hsame
  | resetting next => exact hsame

/-- A request ends. -/
theorem sound_responded (hc : Closers s) (hi : s.tasks[i]?=some task) (rt : Runtime)
    (reply : Reply) :
    Sound s (responded s i task rt reply).1 false := by
  have hsame : Sound s s false := sound_same hc
  unfold responded
  cases hp : task.phase with
  | requesting session =>
    have hrequesting : reported task.phase=false := by rw [hp]; rfl
    have hend : ∀ result, Sound s (endAttempt s i task result).1 false :=
      fun result => sound_endAttempt hc hi ⟨⟨rfl,rfl⟩,rfl,rfl⟩ hrequesting result
    split
    · exact hend _
    · split <;> exact hend _
    · exact hend _
    · exact hend _
    · exact hsame
  | fetching => exact hsame
  | resolving => exact hsame
  | entering session => exact hsame
  | handshaking session entered => exact hsame
  | initializing session entered => exact hsame
  | sleeping => exact hsame
  | resetting next => exact hsame
  | closing next => exact hsame

/-- A pause ends. -/
theorem sound_woken (hc : Closers s) (hi : s.tasks[i]?=some task) :
    Sound s (woken s i task).1 false := by
  unfold woken
  split
  · rename_i hp
    have hsleeping : reported task.phase=false := by rw [hp]; rfl
    refine sound_move hc hi ⟨⟨rfl,rfl⟩,rfl,rfl⟩ ?_ (hc.not_close hi hsleeping)
    simp only [owes,hp]
    rfl
  · exact sound_same hc

/-- An operation is cancelled. -/
theorem sound_cancelled (hc : Closers s) (hi : s.tasks[i]?=some task) :
    Sound s (cancelled s i task).1 (owes task) := by
  have hfinish : ∀ moved : ClientRun, Untold s moved→
      Sound s (finish moved i task .cancelled).1 (owes task) := by
    intro moved hm
    cases ho : owes task with
    | false => exact sound_finish hc hi hm ho _
    | true =>
      have howing := owing_finish hi hm.toBeside (.cancelled)
      rw [ho] at howing
      exact ⟨.abandon hm.breaker hm.calls howing,
        closers_finish (fun other h => hc other (hm.tasks ▸ h)) _,hm.clock⟩
  unfold cancelled
  split
  · exact hfinish (exitStack s (some [])) ⟨⟨rfl,rfl⟩,rfl,rfl⟩
  · exact hfinish s ⟨⟨rfl,rfl⟩,rfl,rfl⟩

/-- An operation that begins is admitted, refused, or not gated. -/
theorem sound_begin (hc : Closers s) (operation : Operation) :
    Sound s (begin s operation).1 false := by
  have happend : ∀ (client : MCPClient) (task : ClientTask) calls,
      owing {s with client := client,tasks := s.tasks++[task],breakerCalls := calls}=
        owing s+(owes task).toNat := by
    intro client task calls
    unfold owing
    rw [List.map_append,List.sum_append]
    rfl
  have hclosers : ∀ (client : MCPClient) (task : ClientTask) calls,
      (task.operation=.close→ reported task.phase=true)→
      Closers {s with client := client,tasks := s.tasks++[task],breakerCalls := calls} := by
    intro client task calls hn other ho hclose
    rcases List.mem_append.mp ho with ho | ho
    · exact hc other ho hclose
    · cases List.mem_singleton.mp ho
      exact hn hclose
  have hrefused : gated operation=true→∀ error, s.client.gate s.clock=.error error→
      (begin s operation).1=
        {s with breakerCalls := s.breakerCalls++[⟨s.clock,.beforeCall⟩]} := by
    intro hg error he
    unfold begin
    rw [he]
    cases operation with
    | callTool name arguments agentId => rfl
    | listTools => rfl
    | ping => cases hg
    | close => cases hg
  have hpassed : gated operation=true→∀ client, s.client.gate s.clock=.ok client→
      (begin s operation).1={s with
        client := client
        tasks := s.tasks++[{operation := operation,phase := .fetching}]
        breakerCalls := s.breakerCalls++[⟨s.clock,.beforeCall⟩]} := by
    intro hg client ho
    unfold begin
    rw [ho]
    cases operation with
    | callTool name arguments agentId => rfl
    | listTools => rfl
    | ping => cases hg
    | close => cases hg
  cases hg : gated operation with
  | false =>
    cases operation with
    | callTool name arguments agentId => cases hg
    | listTools => cases hg
    | ping => exact ⟨.quiet rfl rfl (happend s.client _ _),
      hclosers s.client _ _ (fun h => by cases h),rfl⟩
    | close => exact ⟨.quiet rfl rfl (happend s.client _ _),
      hclosers s.client _ _ (fun _ => rfl),rfl⟩
  | true =>
    have howes : (owes {operation := operation,phase := .fetching}).toNat=1 := by
      simp only [owes,hg,reported,Bool.not_false,Bool.and_true,Bool.toNat_true]
    have hopen : operation=.close→ reported .fetching=true := by
      intro hclose
      rw [hclose] at hg
      cases hg
    cases hb : s.client.breaker with
    | none =>
      have hgate : s.client.gate s.clock=.ok s.client := by
        unfold MCPClient.gate
        rw [hb]
      rw [hpassed hg _ hgate]
      exact ⟨.pass hb hb,hclosers s.client _ _ hopen,rfl⟩
    | some b =>
      cases ha : b.beforeCall s.clock with
      | error error =>
        obtain ⟨refusal,hgate⟩ : ∃ refusal, s.client.gate s.clock=.error refusal := by
          unfold MCPClient.gate
          rw [hb]
          dsimp only
          rw [ha]
          exact ⟨_,rfl⟩
        rw [hrefused hg _ hgate]
        exact ⟨.refuse hb ha rfl rfl rfl,hc,rfl⟩
      | ok passed =>
        have hgate : s.client.gate s.clock=.ok {s.client with breaker := some passed} := by
          unfold MCPClient.gate
          rw [hb]
          dsimp only
          rw [ha]
        rw [hpassed hg _ hgate]
        refine ⟨.admission hb ha rfl rfl ?_,hclosers _ _ _ hopen,rfl⟩
        rw [happend,howes]

/-- Every step is sound, or time passes. -/
theorem sound_step (rt : Runtime) (hc : Closers s) (a : ClientAction) :
    (∃ elapsed, a=.tick elapsed) ∨ Sound s (ClientRuns.step rt s a).1 (drops (s,a)) := by
  have hact : ∀ (i : ℕ) (act : ClientTask→Outcome),
      (∀ task, s.tasks[i]?=some task→ Sound s (act task).1 false)→
      Sound s (onTask s i act).1 false := by
    intro i act h
    unfold onTask
    split
    · exact sound_same hc
    · rename_i task hi
      exact h task hi
  cases a with
  | tick elapsed => exact .inl ⟨elapsed,rfl⟩
  | start operation => exact .inr (sound_begin hc operation)
  | grant i =>
    simp only [ClientRuns.step]
    split
    · exact .inr (sound_same hc)
    · exact .inr (hact i _ (fun task hi => sound_granted hc hi))
  | resolve i world => exact .inr (hact i _ (fun task hi => sound_resolved hc hi world))
  | progress i result => exact .inr (hact i _ (fun task hi => sound_progressed hc hi result))
  | respond i reply => exact .inr (hact i _ (fun task hi => sound_responded hc hi rt reply))
  | wake i => exact .inr (hact i _ (fun task hi => sound_woken hc hi))
  | cancel i =>
    simp only [ClientRuns.step,onTask,drops]
    cases hi : s.tasks[i]? with
    | none => exact .inr (sound_same hc)
    | some task => exact .inr (sound_cancelled hc hi)

end Steps

section Runs

/-- The operations of a history follow each other, between two readings. -/
structure Timely (earliest latest : ℚ) (ops : List TimedOperation) : Prop where
  /-- Their times do not go back. -/
  ordered : ops.Pairwise (fun a b => a.time≤b.time)
  /-- They lie between the readings. -/
  within : ∀ op∈ops, earliest≤op.time ∧ op.time≤latest

/-- A later reading allows one operation more. -/
theorem Timely.append {earliest latest : ℚ} {ops : List TimedOperation}
    (h : Timely earliest latest ops) (hle : earliest≤latest) (operation : BreakerOperation) :
    Timely earliest latest (ops++[⟨latest,operation⟩]) := by
  refine ⟨List.pairwise_append.mpr ⟨h.ordered,List.pairwise_singleton _ _,?_⟩,?_⟩
  · intro a ha b hb
    cases List.mem_singleton.mp hb
    exact (h.within a ha).2
  · intro op ho
    rcases List.mem_append.mp ho with ho | ho
    · exact h.within op ho
    · cases List.mem_singleton.mp ho
      exact ⟨hle,le_refl latest⟩

/-- The breaker of a client is where its own calls lead, these are disciplined,
and the admissions without an outcome are those of operations on their way and
of the dropped ones. -/
structure Driven (b : CircuitBreaker) (began : ℚ) (s : ClientRun) (dropped : ℕ) : Prop where
  /-- Closings owe nothing. -/
  closers : Closers s
  /-- The clock does not go back. -/
  clock : began≤ s.clock
  /-- The calls follow each other. -/
  timely : Timely began s.clock s.breakerCalls
  /-- They are disciplined. -/
  disciplined : ∃ now, s.client.breaker=some now ∧
    Disciplined b s.breakerCalls now (owing s+dropped)

variable {b : CircuitBreaker} {began : ℚ} {s s' : ClientRun} {dropped : ℕ}

/-- Time that passes changes no call. -/
theorem driven_tick (hd : Driven b began s dropped) (elapsed : ℚ≥0) :
    Driven b began {s with clock := s.clock+elapsed} dropped := by
  have hlater : s.clock≤ s.clock+elapsed := le_add_of_nonneg_right elapsed.2
  refine ⟨hd.closers,hd.clock.trans hlater,⟨hd.timely.ordered,fun op ho => ?_⟩,hd.disciplined⟩
  obtain ⟨hearly,hlate⟩ := hd.timely.within op ho
  exact ⟨hearly,hlate.trans hlater⟩

/-- One sound step keeps the calls disciplined. -/
theorem driven_sound {drop : Bool} (hd : Driven b began s dropped) (hs : Sound s s' drop) :
    Driven b began s' (drop.toNat+dropped) := by
  obtain ⟨now,hb,hdisciplined⟩ := hd.disciplined
  have hbegan : began≤ s'.clock := hs.clock.symm ▸ hd.clock
  have hsame : s'.breakerCalls=s.breakerCalls→Timely began s'.clock s'.breakerCalls := by
    intro hl
    rw [hl,hs.clock]
    exact hd.timely
  have hlogged : ∀ {operation}, Logged s s' operation→Timely began s'.clock s'.breakerCalls := by
    intro operation hl
    rw [hl,hs.clock]
    exact hd.timely.append hd.clock operation
  cases hs.uses with
  | quiet hb' hl ho =>
    refine ⟨hs.closers,hbegan,hsame hl,now,hb'.trans hb,?_⟩
    rw [hl,ho,Bool.toNat_false,Nat.zero_add]
    exact hdisciplined
  | refuse hold hr hb' hl ho =>
    cases hb.symm.trans hold
    refine ⟨hs.closers,hbegan,hlogged hl,now,hb'.trans hb,?_⟩
    rw [hl,ho,Bool.toNat_false,Nat.zero_add]
    exact hdisciplined.refuse hr
  | admission hold ha hb' hl ho =>
    cases hb.symm.trans hold
    refine ⟨hs.closers,hbegan,hlogged hl,_,hb',?_⟩
    rw [hl,ho,Bool.toNat_false,Nat.zero_add,Nat.add_right_comm]
    exact hdisciplined.admission ha
  | pass hnone hnone' => cases hb.symm.trans hnone
  | succeed hb' hl ho =>
    rw [hb] at hb'
    refine ⟨hs.closers,hbegan,hlogged hl,_,hb',?_⟩
    rw [ho,Nat.add_right_comm] at hdisciplined
    rw [hl,Bool.toNat_false,Nat.zero_add]
    exact hdisciplined.succeed
  | fail hb' hl ho =>
    rw [hb] at hb'
    refine ⟨hs.closers,hbegan,hlogged hl,_,hb',?_⟩
    rw [ho,Nat.add_right_comm] at hdisciplined
    rw [hl,Bool.toNat_false,Nat.zero_add]
    exact hdisciplined.fail
  | abandon hb' hl ho =>
    refine ⟨hs.closers,hbegan,hsame hl,now,hb'.trans hb,?_⟩
    rw [ho,Nat.add_assoc] at hdisciplined
    rw [hl,Bool.toNat_true]
    exact hdisciplined

/-- Every step keeps them disciplined, and drops what it cancels. -/
theorem driven_step (rt : Runtime) (hd : Driven b began s dropped) (a : ClientAction) :
    Driven b began (ClientRuns.step rt s a).1 ((drops (s,a)).toNat+dropped) := by
  rcases sound_step rt hd.closers a with ⟨elapsed,rfl⟩ | hs
  · have hnone : (drops (s,.tick elapsed)).toNat+dropped=dropped := Nat.zero_add dropped
    rw [ClientRuns.step,hnone]
    exact driven_tick hd elapsed
  · exact driven_sound hd hs

/-- So does a run. -/
theorem driven_run (rt : Runtime) (hd : Driven b began s dropped) (actions : List ClientAction) :
    let step := fun s a => (ClientRuns.step rt s a).1
    Driven b began (final step s actions) ((trail step s actions).countP drops+dropped) := by
  intro step
  induction actions generalizing s dropped with
  | nil =>
    have hnone : (trail step s []).countP drops+dropped=dropped := Nat.zero_add dropped
    rw [hnone]
    exact hd
  | cons a actions ih =>
    have hcount : (trail step s (a::actions)).countP drops=
        (trail step (step s a) actions).countP drops+(drops (s,a)).toNat := by
      rw [trail,List.countP_cons]
      cases drops (s,a) <;> rfl
    rw [hcount,Nat.add_assoc]
    exact ih (driven_step rt hd a)

/-- Along every run of a client with a breaker, whatever the order in which its
operations are resumed, fail, are retried, reset and cancelled, the breaker is
where the calls that the operations made of it lead. Their readings do not go
back, every outcome settles an admission, and the outcomes still missing are
those of the operations on their way and of the ones cancelled before they
reported, neither more nor fewer. -/
theorem client_disciplined (rt : Runtime) (client : MCPClient) (b : CircuitBreaker) (began : ℚ)
    (actions : List ClientAction) :
    let step := fun s a => (ClientRuns.step rt s a).1
    let start : ClientRun := {clock := began,client := {client with breaker := some b}}
    let s := final step start actions
    let dropped := (trail step start actions).countP drops
    ∃ now, s.client.breaker=some now ∧ final BreakerRuns.step b s.breakerCalls=now ∧
      Disciplined b s.breakerCalls now (owing s+dropped) ∧
      Timely began s.clock s.breakerCalls := by
  intro step start s dropped
  have hboot : Driven b began start 0 := by
    refine ⟨fun _ h => absurd h List.not_mem_nil,le_refl _,⟨List.Pairwise.nil,?_⟩,b,rfl,.start⟩
    exact fun _ h => absurd h List.not_mem_nil
  have hrun := driven_run rt hboot actions
  obtain ⟨now,hb,hdisciplined⟩ := hrun.disciplined
  exact ⟨now,hb,hdisciplined.run,hdisciplined,hrun.timely⟩

end Runs

end McpGateway.BreakerReports
