import Mathlib
import McpGateway.PyDict
import McpGateway.PyNumber

/-!
# Circuit breakers

One breaker per server id, kept in a table that outlives registrations. The
three operations run without suspension, so each is one function of the
breaker and the monotonic clock.
-/

namespace McpGateway.CircuitBreakers

open PyDict PyNumber

/-- Breaker states. -/
inductive CircuitState where
  /-- Calls pass. -/
  | closed
  /-- Calls are refused. -/
  | isOpen
  /-- Calls pass as probes. -/
  | halfOpen
  deriving DecidableEq

/-- Thresholds of all breakers of a registry. -/
structure CircuitBreakerPolicy where
  /-- Whether clients get a breaker. -/
  enabled : Bool := true
  /-- Failures that open a closed breaker. -/
  failureThreshold : ℤ := 5
  /-- Seconds of refusal before probing. -/
  recoveryTimeout : ℚ := 30
  /-- Probe successes that close it again. -/
  probeSuccesses : ℤ := 2

/-- One circuit breaker. -/
structure CircuitBreaker where
  /-- Server it protects. -/
  serverId : String
  /-- Failures that open it. -/
  failureThreshold : ℤ
  /-- Seconds of refusal. -/
  recoveryTimeout : ℚ
  /-- Probe successes that close it. -/
  probeSuccesses : ℤ
  /-- `_state`. -/
  state : CircuitState := .closed
  /-- `_failures`. -/
  failures : ℤ := 0
  /-- `_probe_ok`. -/
  probeOk : ℤ := 0
  /-- `_opened_at`. -/
  openedAt : Option ℚ := none

/-- Refusal of a call by an open breaker. -/
structure CircuitOpenError where
  /-- Server of the breaker. -/
  serverId : String
  /-- Seconds left, rounded to one decimal. -/
  retryAfter : ℚ

/-- `before_call`: a refusal leaves the breaker unchanged. -/
def CircuitBreaker.beforeCall (b : CircuitBreaker) (now : ℚ) :
    Except CircuitOpenError CircuitBreaker :=
  if b.state=.isOpen then
    let remaining := b.recoveryTimeout-(now-b.openedAt.getD 0)
    if 0<remaining then .error ⟨b.serverId,roundTo 1 remaining⟩
    else .ok {b with state := .halfOpen,probeOk := 0}
  else .ok b

/-- `on_success`. -/
def CircuitBreaker.onSuccess (b : CircuitBreaker) : CircuitBreaker :=
  match b.state with
  | .halfOpen =>
    if b.probeSuccesses≤b.probeOk+1 then
      {b with state := .closed,probeOk := b.probeOk+1,failures := 0,openedAt := none}
    else {b with probeOk := b.probeOk+1}
  | .closed => {b with failures := 0}
  | .isOpen => b

/-- `on_failure`. -/
def CircuitBreaker.onFailure (b : CircuitBreaker) (now : ℚ) : CircuitBreaker :=
  match b.state with
  | .halfOpen => {b with failures := b.failures+1,state := .isOpen,openedAt := some now}
  | .closed =>
    if b.failureThreshold≤b.failures+1 then
      {b with failures := b.failures+1,state := .isOpen,openedAt := some now}
    else {b with failures := b.failures+1}
  | .isOpen => {b with failures := b.failures+1}

/-- The table of breakers by server id. -/
structure CircuitBreakerRegistry where
  /-- Thresholds handed to new breakers. -/
  policy : CircuitBreakerPolicy := {}
  /-- Breakers created so far; none is ever removed. -/
  breakers : Dict String CircuitBreaker := Dict.empty

/-- `get`: create the breaker of a server on first use. -/
def CircuitBreakerRegistry.get (r : CircuitBreakerRegistry) (serverId : String) :
    CircuitBreakerRegistry×CircuitBreaker :=
  match r.breakers.get? serverId with
  | some b => (r,b)
  | none =>
    let b : CircuitBreaker := {
      serverId := serverId
      failureThreshold := r.policy.failureThreshold
      recoveryTimeout := r.policy.recoveryTimeout
      probeSuccesses := r.policy.probeSuccesses }
    ({r with breakers := r.breakers.set serverId b},b)

end McpGateway.CircuitBreakers
