import McpGateway.PyText
import McpGateway.PyDict
import McpGateway.StepRun
import McpGateway.JsonValue
import McpGateway.GatewaySettings
import McpGateway.ToolNaming
import McpGateway.CircuitBreakers
import McpGateway.ServerRegistry
import McpGateway.RegistryRuns
import McpGateway.ToolRouting
import McpGateway.RateLimiting
import McpGateway.ToolAuthorizer
import McpGateway.PiiRedactor
import McpGateway.Guardrails
import McpGateway.ResultCache
import McpGateway.SchemaValidation
import McpGateway.ToolOrchestrator
import McpGateway.AclConfinement
import McpGateway.GuardedRedaction
import McpGateway.GatewayRuns
import McpGateway.CacheProvenance
import McpGateway.ResponseRedaction
import McpGateway.AuthProviders
import McpGateway.ClientRuns
import McpGateway.SessionOrigins
import McpGateway.AgentAttribution
import McpGateway.CredentialHeaders
import McpGateway.JsonEncoding
import McpGateway.BreakerRuns
import McpGateway.AuditLog
import McpGateway.CallAccounting
import McpGateway.ResultSharing
import McpGateway.ConfigReload
import McpGateway.ReloadConvergence
import McpGateway.RestartEquivalence
import McpGateway.ReloadAtomicity
import McpGateway.ConcurrentReloads
import McpGateway.RateRuns
import McpGateway.RejectedChecks
import McpGateway.AgentIsolation
import McpGateway.NameOwnership
import McpGateway.TokenRefill
import McpGateway.ProbeRuns
import McpGateway.BreakerInheritance
import McpGateway.ManifestFreshness
import McpGateway.CacheTransparency
import McpGateway.ConflictPrefixes
import McpGateway.RegistryOperations
import McpGateway.ConflictRejection
import McpGateway.ConflictReport
import McpGateway.SchemaEnforcement
import McpGateway.RequestRetries
import McpGateway.SessionLeaks
import McpGateway.WebhookDeliveries
import McpGateway.EventIds
import McpGateway.RetryAfter
import McpGateway.ZeroRates
import McpGateway.GrantableNames
import McpGateway.GuardrailDecision
import McpGateway.PermissionLists
import McpGateway.TokenFlight
import McpGateway.WalkAgreement
import McpGateway.EventCoverage
import McpGateway.SpanReplacement
import McpGateway.RegexLanguage
import McpGateway.RegexScan
import McpGateway.FallbackPatterns
import McpGateway.RedactionCoverage
import McpGateway.ErrorPaths
import McpGateway.MalformedSchemas
import McpGateway.ArgumentKeys
import McpGateway.TimedMap
import McpGateway.StoreRefinement
import McpGateway.EventStream
import McpGateway.JwksCache
import McpGateway.EventBodies
import McpGateway.BreakerReports
import McpGateway.TokenValidation
import McpGateway.ApiRuns
import McpGateway.RequestValidation
import McpGateway.RequestAdmission
import McpGateway.RequestLedger
import McpGateway.CallTrails
import McpGateway.ReloadedRates
import McpGateway.AuditQueries
import McpGateway.BreakerRecovery
import McpGateway.ClientProgress
import McpGateway.HealthReports
import McpGateway.CachedResults
import McpGateway.EnvReferences
