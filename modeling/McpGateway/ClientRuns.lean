import Mathlib
import McpGateway.StepRun
import McpGateway.JsonValue
import McpGateway.GatewaySettings
import McpGateway.CircuitBreakers
import McpGateway.BreakerRuns
import McpGateway.ToolNaming
import McpGateway.PyRuntime
import McpGateway.UpstreamContent
import McpGateway.AuthProviders
import McpGateway.McpClient

/-!
# Runs of one client

Any number of operations share a client. Each is suspended at its lock, at
the opening or closing of a session, at its request or between two attempts,
and a schedule resumes them in any order with any outcome. Opening and
closing hold the lock; requests travel without it, on the session that the
operation was handed.
-/

namespace McpGateway.ClientRuns

open StepRun JsonValue GatewaySettings CircuitBreakers ToolNaming PyRuntime UpstreamContent
open AuthProviders McpClient
open BreakerRuns (TimedOperation)

/-- What an operation does after a reset. -/
inductive AfterReset where
  /-- Its next attempt. -/
  | retry
  /-- It ends. -/
  | ended (result : OperationResult)

/-- Where an operation is suspended. -/
inductive Phase where
  /-- At the lock of `_get_session`. -/
  | fetching
  /-- In `_resolve_headers`, with the lock. -/
  | resolving
  /-- At the transport of an opening, with the lock. -/
  | entering (session : Session)
  /-- At the session context of an opening, with the lock. -/
  | handshaking (session : Session) (entered : List Context)
  /-- In `initialize`, with the lock. -/
  | initializing (session : Session) (entered : List Context)
  /-- At its request. -/
  | requesting (session : Session)
  /-- Between two attempts. -/
  | sleeping
  /-- At the lock of `_reset_session`. -/
  | resetting (next : AfterReset)
  /-- In the closing of the stack, with the lock. -/
  | closing (next : AfterReset)

/-- Whether a suspended operation holds the lock. -/
def Phase.holdsLock : Phase→Bool
  | .resolving => true
  | .entering _ => true
  | .handshaking _ _ => true
  | .initializing _ _ => true
  | .closing _ => true
  | _ => false

/-- An operation on its way. -/
structure ClientTask where
  /-- What it was asked to do. -/
  operation : Operation
  /-- Number of its current attempt. -/
  attempt : ℕ := 1
  /-- Where it is suspended. -/
  phase : Phase

/-- A client in use. -/
structure ClientRun where
  /-- The monotonic clock. -/
  clock : ℚ
  /-- The client. -/
  client : MCPClient
  /-- Operations on their way. -/
  tasks : List ClientTask := []
  /-- Contexts entered and not exited. -/
  live : List Context := []
  /-- Identity of the next context. -/
  nextUid : ℕ := 0
  /-- Calls of `_gate`, `_on_ok` and `_on_err` so far. -/
  breakerCalls : List TimedOperation := []

/-- What a session yields for a request. -/
inductive Reply where
  /-- Result of a tool call. -/
  | result (result : CallToolResult)
  /-- Result of a listing. -/
  | tools (list : List RawTool)
  /-- Answer to a ping. -/
  | pong
  /-- An exception. -/
  | raised (error : ClientException)

/-- One thing that can happen next. -/
inductive ClientAction where
  /-- The passing of time. -/
  | tick (elapsed : ℚ≥0)
  /-- An operation begins. -/
  | start (operation : Operation)
  /-- The lock is granted to an operation. -/
  | grant (index : ℕ)
  /-- Headers are obtained or not. -/
  | resolve (index : ℕ) (world : World)
  /-- Entering or closing of contexts, or `initialize`, ends. -/
  | progress (index : ℕ) (result : Except ClientException Unit)
  /-- A request ends. -/
  | respond (index : ℕ) (reply : Reply)
  /-- The pause between two attempts ends. -/
  | wake (index : ℕ)
  /-- An operation is cancelled where it is suspended. -/
  | cancel (index : ℕ)

/-- What an observer of a client sees. -/
inductive ClientEvent where
  /-- A transport is opened for an agent, with the client before the headers
  were resolved and the headers that the transport sends. -/
  | opening (before : MCPClient) (world : World) (agentId : Option String) (given : Headers)
  /-- The request of an operation is sent on a session. -/
  | sent (operation : Operation) (session : Session)
  /-- An operation ends. -/
  | ended (operation : Operation) (result : OperationResult)

/-- State and event after a step. -/
abbrev Outcome := ClientRun×Option ClientEvent

section Tasks

variable (s : ClientRun) (i : ℕ) (task : ClientTask)

/-- The operation is suspended elsewhere. -/
def move (phase : Phase) : ClientRun :=
  {s with tasks := s.tasks.set i {task with phase := phase}}

/-- The operation ends. -/
def finish (result : OperationResult) : Outcome :=
  ({s with tasks := s.tasks.eraseIdx i},some (.ended task.operation result))

/-- The operation sends its request. -/
def send (session : Session) : Outcome :=
  (move s i task (.requesting session),some (.sent task.operation session))

/-- The end of an attempt of a retried operation, or of the only one of a ping.
Transport failures are retried twice; an `UpstreamError` ends the operation
without a reset. -/
def endAttempt : Except ClientException OperationResult→Outcome
  | .ok result =>
    match task.operation with
    | .ping => finish s i task result
    | _ =>
      let calls := s.breakerCalls++[⟨s.clock,.onSuccess⟩]
      finish {s with client := s.client.onOk,breakerCalls := calls} i task result
  | .error error =>
    match task.operation with
    | .ping => (move s i task (.resetting (.ended (.pong false))),none)
    | _ =>
      if error.retried=true ∧ task.attempt<3 then (move s i task .sleeping,none)
      else
        let calls := s.breakerCalls++[⟨s.clock,.onFailure⟩]
        let failed := {s with client := s.client.onErr s.clock,breakerCalls := calls}
        match error with
        | .upstream error => finish failed i task (.raised error)
        | error =>
          (move failed i task (.resetting (.ended (.raised ⟨error.text,-32000⟩))),none)

/-- The operation after its reset. -/
def proceed : AfterReset→Outcome
  | .retry => (move s i task .fetching,none)
  | .ended result => finish s i task result

/-- The lock is granted: `_get_session` uses a live session or begins an
opening, `_reset_session` drops the session and closes the stack. -/
def granted : Outcome :=
  match task.phase with
  | .fetching =>
    match s.client.session with
    | some session => send s i task session
    | none => (move s i task .resolving,none)
  | .resetting next =>
    let dropped := {s with client := {s.client with session := none}}
    match s.client.stack with
    | none => proceed dropped i task next
    | some _ => (move dropped i task (.closing next),none)
  | _ => (s,none)

/-- Headers are resolved and the transport is opened with what it is given. -/
def resolved (world : World) : Outcome :=
  match task.phase with
  | .resolving =>
    let obtained := s.client.resolveHeaders world task.operation.agentId
    let known := {s with client := obtained.1}
    match obtained.2 with
    | .error error => endAttempt known i task (.error error)
    | .ok headers =>
      let given := obtained.1.transportHeaders headers
      (move known i task (.entering ⟨task.operation.agentId,given⟩),
        some (.opening s.client world task.operation.agentId given))
  | _ => (s,none)

/-- A context is entered. -/
def enter (kind : ContextKind) : ClientRun×Context :=
  let context := ⟨kind,s.nextUid⟩
  ({s with live := s.live++[context],nextUid := s.nextUid+1},context)

/-- The contexts of the client's stack are exited. -/
def exitStack (stack : Option (List Context)) : ClientRun :=
  let exited := s.client.stack.getD []
  {s with
    live := s.live.filter (fun context => decide (context∉exited))
    client := {s.client with stack := stack}}

/-- An awaited part of an opening or closing ends. A failed opening leaves the
contexts it entered to nobody; a closing swallows its exceptions. -/
def progressed (result : Except ClientException Unit) : Outcome :=
  match task.phase,result with
  | .entering _,.error error => endAttempt s i task (.error error)
  | .entering session,.ok _ =>
    let entered := enter s .transport
    (move entered.1 i task (.handshaking session [entered.2]),none)
  | .handshaking _ _,.error error => endAttempt s i task (.error error)
  | .handshaking session contexts,.ok _ =>
    let entered := enter s .session
    (move entered.1 i task (.initializing session (contexts++[entered.2])),none)
  | .initializing _ _,.error error => endAttempt s i task (.error error)
  | .initializing session contexts,.ok _ =>
    send {s with client := {s.client with session := some session,stack := some contexts}} i task
      session
  | .closing next,_ => proceed (exitStack s none) i task next
  | _,_ => (s,none)

/-- A request ends. -/
def responded (rt : Runtime) (reply : Reply) : Outcome :=
  match task.phase,task.operation,reply with
  | .requesting _,_,.raised error => endAttempt s i task (.error error)
  | .requesting _,.callTool _ _ _,.result result =>
    match extractContent rt result with
    | .ok value => endAttempt s i task (.ok (.content value))
    | .error error => endAttempt s i task (.error (.upstream error))
  | .requesting _,.listTools,.tools list => endAttempt s i task (.ok (.tools list))
  | .requesting _,.ping,.pong => endAttempt s i task (.ok (.pong true))
  | _,_,_ => (s,none)

/-- The pause ends: every further attempt begins with a reset. -/
def woken : Outcome :=
  match task.phase with
  | .sleeping => (move s i {task with attempt := task.attempt+1} (.resetting .retry),none)
  | _ => (s,none)

/-- A cancelled closing has exited its contexts but keeps the empty stack. -/
def cancelled : Outcome :=
  match task.phase with
  | .closing _ => finish (exitStack s (some [])) i task .cancelled
  | _ => finish s i task .cancelled

end Tasks

/-- Whether some operation holds the lock. -/
def ClientRun.locked (s : ClientRun) : Bool := s.tasks.any (fun task => task.phase.holdsLock)

/-- The beginning of an operation, up to its first suspension. -/
def begin (s : ClientRun) (operation : Operation) : Outcome :=
  match operation with
  | .ping => ({s with tasks := s.tasks++[{operation := operation,phase := .fetching}]},none)
  | .close =>
    let task := {operation := operation,phase := .resetting (.ended .closed)}
    ({s with tasks := s.tasks++[task]},none)
  | _ =>
    let calls := s.breakerCalls++[⟨s.clock,.beforeCall⟩]
    match s.client.gate s.clock with
    | .error error =>
      ({s with breakerCalls := calls},some (.ended operation (.raised error)))
    | .ok client =>
      let task := {operation := operation,phase := .fetching}
      ({s with client := client,tasks := s.tasks++[task],breakerCalls := calls},none)

/-- An action on the operation at an index, when there is one. -/
def onTask (s : ClientRun) (i : ℕ) (act : ClientTask→Outcome) : Outcome :=
  match s.tasks[i]? with
  | none => (s,none)
  | some task => act task

/-- One action and the event it emits. -/
def step (rt : Runtime) (s : ClientRun) : ClientAction→Outcome
  | .tick elapsed => ({s with clock := s.clock+elapsed},none)
  | .start operation => begin s operation
  | .grant i => if s.locked=true then (s,none) else onTask s i (granted s i)
  | .resolve i world => onTask s i (fun task => resolved s i task world)
  | .progress i result => onTask s i (fun task => progressed s i task result)
  | .respond i reply => onTask s i (fun task => responded s i task rt reply)
  | .wake i => onTask s i (woken s i)
  | .cancel i => onTask s i (cancelled s i)

end McpGateway.ClientRuns
