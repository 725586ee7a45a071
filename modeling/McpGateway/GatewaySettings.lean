import Mathlib
import McpGateway.PyText
import McpGateway.PyDict
import McpGateway.JsonValue

/-!
# Gateway configuration records

The validated configuration of the gateway, with the defaults of its source.
Only fields that some modelled component reads are kept: display names,
request timeouts, OIDC and webhook endpoints are left to the components that
use them. Durations and rates are exact rationals.
-/

namespace McpGateway.GatewaySettings

open PyText PyDict JsonValue

/-- How an upstream credential is obtained. -/
inductive AuthStrategy where
  /-- A fixed header and token. -/
  | static
  /-- A token read from an environment variable at call time. -/
  | env
  /-- A client credentials grant. -/
  | oauth2
  deriving DecidableEq

/-- Authentication settings of one upstream server. -/
structure ServerAuthConfig where
  /-- Selected provider kind. -/
  strategy : AuthStrategy := .static
  /-- Header that carries the credential. -/
  header : Option String := none
  /-- Literal token or `${VAR}` reference of a static provider. -/
  token : Option String := none
  /-- Environment variable of an `env` provider. -/
  envVar : Option String := none
  /-- Token endpoint of an `oauth2` provider. -/
  oauth2TokenUrl : Option String := none
  /-- Client id of an `oauth2` provider. -/
  oauth2ClientId : Option String := none
  /-- Environment variable with the client secret. -/
  oauth2ClientSecretEnv : Option String := none
  /-- Requested scope. -/
  oauth2Scope : Option String := none
  /-- Further fields of the token request. -/
  oauth2ExtraParams : Dict String String := Dict.empty
  /-- Seconds before expiry at which a token is refreshed. -/
  oauth2RefreshBuffer : ℚ := 60
  /-- Header under which the calling agent's id is forwarded. -/
  forwardAgentIdHeader : Option String := none
  deriving DecidableEq

/-- Qualification of tool names. -/
inductive NamingStrategy where
  /-- Always `<prefix>.<tool>`. -/
  | prefixAlways
  /-- The bare name unless another server has it. -/
  | prefixOnConflict
  /-- Never qualified. -/
  | bare
  deriving DecidableEq

/-- Reaction to a qualified name that is already taken. -/
inductive OnConflict where
  /-- Skip the later tool. -/
  | warn
  /-- Raise for the whole manifest. -/
  | error
  /-- Append `_<server_id>` to the later tool. -/
  | suffix
  deriving DecidableEq

/-- Naming settings of the registry. -/
structure NamingConfig where
  /-- Qualification strategy. -/
  strategy : NamingStrategy := .prefixAlways
  /-- Collision policy. -/
  onConflict : OnConflict := .warn
  deriving DecidableEq

/-- Wire transport of an upstream. -/
inductive Transport where
  /-- `"http"`, an alias of streamable HTTP. -/
  | http
  /-- Server-sent events. -/
  | sse
  /-- Streamable HTTP, the default. -/
  | streamableHttp
  deriving DecidableEq

/-- A configured upstream server. -/
structure UpstreamServer where
  /-- Stable server identifier. -/
  id : String
  /-- Base address. -/
  baseUrl : String := ""
  /-- Wire transport. -/
  transport : Transport := .streamableHttp
  /-- Legacy single header. -/
  authHeader : Option String := none
  /-- Legacy single token. -/
  authToken : Option String := none
  /-- Structured authentication, which overrides the legacy pair. -/
  serverAuth : Option ServerAuthConfig := none
  /-- Manifest filter tags. -/
  tags : List String := []
  /-- Disabled servers take no calls and no syncs. -/
  enabled : Bool := true
  /-- Explicit tool namespace. -/
  toolPrefix : Option String := none
  /-- Raw names of the tools that change state. -/
  mutableTools : List String := []
  deriving DecidableEq

/-- `server.tool_prefix or server.id`. -/
def UpstreamServer.effectivePrefix (server : UpstreamServer) : String :=
  orText server.toolPrefix server.id

/-- Agent permissions. The wildcard is the permission `"*"`. -/
structure AuthPolicy where
  /-- Whether calls are authorized at all. -/
  enabled : Bool := true
  /-- Permission lists by agent id. -/
  agentPermissions : Dict String (List String) := Dict.empty
  /-- Agents that may call mutable tools. -/
  mutableAllowedAgents : List String := []

/-- Personal data redaction. -/
structure RedactionPolicy where
  /-- Whether anything is redacted. -/
  enabled : Bool := true
  /-- Entity kinds, in the order their patterns are applied. -/
  entities : List String :=
    ["EMAIL_ADDRESS","PHONE_NUMBER","CREDIT_CARD","US_SSN","IP_ADDRESS","IBAN_CODE"]
  /-- Analyzer acceptance threshold. -/
  scoreThreshold : ℚ := 1/2
  /-- Whether request arguments are redacted. -/
  redactRequests : Bool := true
  /-- Whether tool results are redacted. -/
  redactResponses : Bool := true
  /-- `str.format` template of the inserted text. -/
  replacement : String := "<REDACTED:\x7bentity\x7d>"

/-- A declarative guardrail rule. -/
structure SafetyRule where
  /-- Name reported on a violation. -/
  name : String
  /-- Raw tool name, or `"*"` for every tool. -/
  tool : String := "*"
  /-- Substrings forbidden in any string argument. -/
  forbiddenSubstrings : List String := []
  /-- Bounds `"min"` and `"max"` of top-level numeric arguments. -/
  numericRanges : Dict String (Dict String PyFloat) := Dict.empty
  /-- Patterns forbidden in any string argument. -/
  forbiddenRegex : List String := []

/-- The guardrail rules. -/
structure GuardrailsPolicy where
  /-- Whether rules are checked. -/
  enabled : Bool := true
  /-- Rules in policy order. -/
  rules : List SafetyRule := []

/-- Token bucket settings; the limiter is built with the same fields. -/
structure RateLimiterConfig where
  /-- Whether calls are limited. -/
  enabled : Bool := true
  /-- Tokens per second of an agent bucket. -/
  defaultAgentRate : ℚ := 10
  /-- Capacity of an agent bucket. -/
  defaultAgentBurst : ℚ := 20
  /-- Tokens per second of a tool bucket. -/
  defaultToolRate : ℚ := 5
  /-- Capacity of a tool bucket. -/
  defaultToolBurst : ℚ := 10
  /-- Per-agent overrides `"agent_rate"` and `"agent_burst"`. -/
  agents : Dict String (Dict String ℚ) := Dict.empty
  /-- Per-tool overrides `"rate"` and `"burst"`. -/
  tools : Dict String (Dict String ℚ) := Dict.empty

/-- Schema validation settings. -/
structure SchemaValidationConfig where
  /-- Whether arguments are validated. -/
  enabled : Bool := true
  /-- Whether a tool without a schema is refused. -/
  strictOnMissingSchema : Bool := false

/-- Cache settings. -/
structure CacheConfig where
  /-- Whether anything is cached. -/
  enabled : Bool := true
  /-- Lifetime of the aggregated manifest. -/
  manifestTtl : ℚ := 60
  /-- Whether tool results are cached. -/
  toolResultsEnabled : Bool := true
  /-- Lifetime of results without an own entry. -/
  defaultToolTtl : ℚ := 0
  /-- Lifetimes by qualified tool name. -/
  toolTtls : Dict String ℚ := Dict.empty

/-- The root configuration as far as the orchestrator is built from it. -/
structure GatewayConfig where
  /-- Upstream servers; validation keeps their ids distinct. -/
  upstreams : List UpstreamServer := []
  /-- Agent authorization. -/
  auth : AuthPolicy := {}
  /-- Redaction. -/
  redaction : RedactionPolicy := {}
  /-- Guardrails. -/
  guardrails : GuardrailsPolicy := {}
  /-- Rate limiting. -/
  rateLimiting : RateLimiterConfig := {}
  /-- Naming of tools. -/
  naming : NamingConfig := {}
  /-- Schema validation. -/
  schemaValidation : SchemaValidationConfig := {}
  /-- Caching. -/
  cache : CacheConfig := {}

end McpGateway.GatewaySettings
