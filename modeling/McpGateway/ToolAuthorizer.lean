import Mathlib
import McpGateway.PyText
import McpGateway.PyDict
import McpGateway.GatewaySettings

/-!
# Agent identification and tool authorization

Identity comes from a validated token or from the agent header; permission
is decided by the policy from the raw and the qualified tool name. Empty
permission lists and the wildcard are unrestricted.
-/

namespace McpGateway.ToolAuthorizer

open PyText PyDict GatewaySettings

/-- A refused identification or authorization. -/
structure AuthorizationError where
  /-- Exception text. -/
  message : String
  /-- Reason label. -/
  reason : String
  deriving DecidableEq

/-- An identified caller. -/
structure AgentPrincipal where
  /-- Agent id. -/
  agentId : String
  /-- Permission strings, raw or qualified tool names. -/
  permissions : List String := []

/-- `can`. -/
def AgentPrincipal.can (principal : AgentPrincipal) (action : String) : Bool :=
  decide ("*"∈principal.permissions) || decide (action∈principal.permissions)

/-- `identify`. The token validator is absent when OIDC is off; it yields the
agent id of a token or the text of its failure. -/
def identify (policy : AuthPolicy) (oidc : Option (String→Except String String))
    (agentIdHeader bearerToken : Option String) : Except AuthorizationError AgentPrincipal :=
  let principal := fun agentId : String =>
    AgentPrincipal.mk agentId ((policy.agentPermissions.get? agentId).getD [])
  if policy.enabled=false then .ok ⟨orText agentIdHeader "anonymous",["*"]⟩
  else
    match oidc,present bearerToken with
    | some validate,true =>
      match validate (orText bearerToken "") with
      | .ok agentId => .ok (principal agentId)
      | .error text => .error ⟨text,"invalid_token"⟩
    | _,_ =>
      if present agentIdHeader=true then .ok (principal (orText agentIdHeader ""))
      else .error ⟨"agent id required (X-Agent-Id header or Bearer token)","missing_agent_id"⟩

/-- `authorize_tool_call`. -/
def authorizeToolCall (policy : AuthPolicy) (principal : AgentPrincipal)
    (toolName qualifiedName : String) (mutable : Bool) : Except AuthorizationError Unit :=
  if policy.enabled=false then .ok ()
  else if mutable=true ∧ principal.agentId∉policy.mutableAllowedAgents then
    .error ⟨"agent '"++principal.agentId++"' may not invoke mutable tool '"++qualifiedName++"'",
      "mutable_forbidden"⟩
  else if principal.permissions≠[] ∧ "*"∉principal.permissions then
    if principal.can toolName=true ∨ principal.can qualifiedName=true then .ok ()
    else .error ⟨"agent '"++principal.agentId++"' lacks permission for '"++qualifiedName++"'",
      "acl_denied"⟩
  else .ok ()

/-- A call is authorized exactly when its mutability and one of its two names
are permitted, or nothing is enforced. -/
theorem authorizeToolCall_ok_iff (policy : AuthPolicy) (principal : AgentPrincipal)
    (toolName qualifiedName : String) (mutable : Bool) :
    authorizeToolCall policy principal toolName qualifiedName mutable=.ok () ↔
      policy.enabled=false ∨
        ((mutable=true→principal.agentId∈policy.mutableAllowedAgents) ∧
          (principal.permissions=[] ∨ "*"∈principal.permissions ∨
            toolName∈principal.permissions ∨ qualifiedName∈principal.permissions)) := by
  unfold authorizeToolCall
  cases he : policy.enabled with
  | false => exact ⟨fun _ => Or.inl rfl,fun _ => rfl⟩
  | true =>
    rw [if_neg (fun h : true=false => Bool.noConfusion h)]
    by_cases hm : mutable=true ∧ principal.agentId∉policy.mutableAllowedAgents
    · rw [if_pos hm]
      refine ⟨fun h => (by cases h),fun h => ?_⟩
      rcases h with hf | h
      · cases hf
      · exact absurd (h.1 hm.1) hm.2
    · rw [if_neg hm]
      have hmut : mutable=true→principal.agentId∈policy.mutableAllowedAgents := by
        intro h
        by_contra hn
        exact hm ⟨h,hn⟩
      by_cases hp : principal.permissions≠[] ∧ "*"∉principal.permissions
      · rw [if_pos hp]
        simp only [AgentPrincipal.can,hp.2,decide_false,Bool.false_or,decide_eq_true_eq]
        split
        · rename_i hc
          exact ⟨fun _ => Or.inr ⟨hmut,Or.inr (Or.inr hc)⟩,fun _ => rfl⟩
        · rename_i hc
          refine ⟨fun h => (by cases h),fun h => ?_⟩
          rcases h with hf | ⟨-,hnil | hwild | hnamed⟩
          · cases hf
          · exact absurd hnil hp.1
          · exact hwild.elim
          · exact absurd hnamed hc
      · rw [if_neg hp]
        refine ⟨fun _ => Or.inr ⟨hmut,?_⟩,fun _ => rfl⟩
        by_cases hnil : principal.permissions=[]
        · exact Or.inl hnil
        · refine Or.inr (Or.inl ?_)
          by_contra hw
          exact hp ⟨hnil,hw⟩

end McpGateway.ToolAuthorizer
