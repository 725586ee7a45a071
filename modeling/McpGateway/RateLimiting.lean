import Mathlib
import McpGateway.PyDict
import McpGateway.PyNumber
import McpGateway.GatewaySettings

/-!
# Token buckets

One bucket per agent and one per agent and tool, created full on first use.
A refused request still refills its buckets, and a refusal by the tool bucket
has already spent a token of the agent bucket. A bucket with rate zero makes
the waiting time a division by zero.
-/

namespace McpGateway.RateLimiting

open PyDict PyNumber GatewaySettings

/-- A continuously refilled bucket. -/
structure TokenBucket where
  /-- Tokens added per second. -/
  rate : ℚ
  /-- Largest content. -/
  capacity : ℚ
  /-- `_tokens`. -/
  tokens : ℚ
  /-- `_last`. -/
  last : ℚ

/-- A new bucket is full. -/
def TokenBucket.new (rate capacity now : ℚ) : TokenBucket := ⟨rate,capacity,capacity,now⟩

/-- Result of taking tokens. -/
inductive Consumed where
  /-- The tokens were taken. -/
  | granted
  /-- Too few tokens; the rounded waiting time. -/
  | refused (retryAfter : ℚ)
  /-- Too few tokens at rate zero. -/
  | divisionByZero

/-- `consume`. -/
def TokenBucket.consume (bucket : TokenBucket) (now : ℚ) (amount : ℚ := 1) :
    TokenBucket×Consumed :=
  let filled := min bucket.capacity (bucket.tokens+(now-bucket.last)*bucket.rate)
  if amount≤filled then ({bucket with tokens := filled-amount,last := now},.granted)
  else if bucket.rate=0 then ({bucket with tokens := filled,last := now},.divisionByZero)
  else
    ({bucket with tokens := filled,last := now},
      .refused (roundTo 3 ((amount-filled)/bucket.rate)))

/-- The buckets of one limiter. -/
structure RateLimiter where
  /-- Settings. -/
  cfg : RateLimiterConfig
  /-- Buckets by agent id. -/
  agentBuckets : Dict String TokenBucket := Dict.empty
  /-- Buckets by `<agent>:<qualified tool>`. -/
  toolBuckets : Dict String TokenBucket := Dict.empty

/-- Outcome of a rate check. -/
inductive RateVerdict where
  /-- The call may proceed. -/
  | granted
  /-- `RateLimitExceeded` with its scope and waiting time. -/
  | exceeded (scope : String) (retryAfter : ℚ)
  /-- `ZeroDivisionError`. -/
  | divisionByZero

/-- `override.get(field, default)` for the override of one key. -/
def overridden (overrides : Dict String (Dict String ℚ)) (key field : String) (default : ℚ) : ℚ :=
  (((overrides.get? key).getD Dict.empty).get? field).getD default

/-- `_agent_bucket`, the new or existing bucket. -/
def RateLimiter.agentBucket (limiter : RateLimiter) (agentId : String) (now : ℚ) : TokenBucket :=
  (limiter.agentBuckets.get? agentId).getD
    (TokenBucket.new
      (overridden limiter.cfg.agents agentId "agent_rate" limiter.cfg.defaultAgentRate)
      (overridden limiter.cfg.agents agentId "agent_burst" limiter.cfg.defaultAgentBurst) now)

/-- `f"{agent_id}:{qualified_tool}"`. -/
def toolKey (agentId qualifiedTool : String) : String := agentId++":"++qualifiedTool

/-- `_tool_bucket`, the new or existing bucket. -/
def RateLimiter.toolBucket (limiter : RateLimiter) (agentId qualifiedTool : String) (now : ℚ) :
    TokenBucket :=
  (limiter.toolBuckets.get? (toolKey agentId qualifiedTool)).getD
    (TokenBucket.new
      (overridden limiter.cfg.tools qualifiedTool "rate" limiter.cfg.defaultToolRate)
      (overridden limiter.cfg.tools qualifiedTool "burst" limiter.cfg.defaultToolBurst) now)

/-- `check`: the agent bucket first, then the tool bucket. -/
def RateLimiter.check (limiter : RateLimiter) (now : ℚ) (agentId qualifiedTool : String) :
    RateLimiter×RateVerdict :=
  if limiter.cfg.enabled=false then (limiter,.granted)
  else
    let agent := (limiter.agentBucket agentId now).consume now
    let charged := {limiter with agentBuckets := limiter.agentBuckets.set agentId agent.1}
    match agent.2 with
    | .refused retry => (charged,.exceeded ("agent:"++agentId) retry)
    | .divisionByZero => (charged,.divisionByZero)
    | .granted =>
      let key := toolKey agentId qualifiedTool
      let tool := (charged.toolBucket agentId qualifiedTool now).consume now
      let both := {charged with toolBuckets := charged.toolBuckets.set key tool.1}
      match tool.2 with
      | .refused retry => (both,.exceeded ("tool:"++key) retry)
      | .divisionByZero => (both,.divisionByZero)
      | .granted => (both,.granted)

/-- Text of a rate limit exception. -/
def rateLimitMessage (scope : String) : String := "rate limit exceeded for "++scope

end McpGateway.RateLimiting
