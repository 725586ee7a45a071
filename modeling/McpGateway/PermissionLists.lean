import Mathlib
import McpGateway.PyText
import McpGateway.PyDict
import McpGateway.GatewaySettings
import McpGateway.ToolAuthorizer

/-!
# Shortening a permission list

A list with fewer entries permits fewer calls, down to a single entry. An
agent whose list is empty is treated like one that was never listed, and so
may call every tool that is not mutable.
-/

namespace McpGateway.PermissionLists

open PyText PyDict GatewaySettings ToolAuthorizer

/-- The policy with the permission list of one agent replaced. -/
def withPermissions (policy : AuthPolicy) (agentId : String) (permissions : List String) :
    AuthPolicy :=
  {policy with agentPermissions := policy.agentPermissions.set agentId permissions}

/-- A tool call as identification and authorization see it. -/
structure ToolRequest where
  /-- `X-Agent-Id`. -/
  agentIdHeader : Option String
  /-- Bearer token. -/
  bearerToken : Option String
  /-- Raw tool name. -/
  toolName : String
  /-- Qualified tool name. -/
  qualifiedName : String
  /-- Whether the server lists the tool as mutable. -/
  mutable : Bool

/-- The request is identified and its agent authorized. -/
def Allowed (policy : AuthPolicy) (oidc : Option (String→Except String String))
    (request : ToolRequest) : Prop :=
  ∃ principal, identify policy oidc request.agentIdHeader request.bearerToken=.ok principal ∧
    authorizeToolCall policy principal request.toolName request.qualifiedName request.mutable=
      .ok ()

/-- The list names the wildcard or one of the two names, or nothing at all. -/
def Permits (permissions : List String) (toolName qualifiedName : String) : Prop :=
  permissions=[] ∨ "*"∈permissions ∨ toolName∈permissions ∨ qualifiedName∈permissions

/-- Fewer entries permit fewer names while an entry is left. -/
theorem Permits.mono {fewer more : List String} (h : ∀ entry∈fewer, entry∈more)
    (hne : fewer≠[]) {toolName qualifiedName : String}
    (hp : Permits fewer toolName qualifiedName) : Permits more toolName qualifiedName := by
  rcases hp with hnil | hwild | hraw | hqualified
  · exact absurd hnil hne
  · exact Or.inr (Or.inl (h _ hwild))
  · exact Or.inr (Or.inr (Or.inl (h _ hraw)))
  · exact Or.inr (Or.inr (Or.inr (h _ hqualified)))

/-- Only the agent itself is identified with the replaced list. -/
theorem identify_withPermissions {policy : AuthPolicy} (he : policy.enabled=true)
    (oidc : Option (String→Except String String)) (agentIdHeader bearerToken : Option String)
    (agentId : String) (permissions : List String) :
    identify (withPermissions policy agentId permissions) oidc agentIdHeader bearerToken=
      (identify policy oidc agentIdHeader bearerToken).map (fun principal =>
        ⟨principal.agentId,
          if agentId=principal.agentId then permissions else principal.permissions⟩) := by
  have henabled : ¬policy.enabled=false := by rw [he]; exact Bool.noConfusion
  have hlist : ∀ id, ((withPermissions policy agentId permissions).agentPermissions.get? id).getD
      []=if agentId=id then permissions else (policy.agentPermissions.get? id).getD [] := by
    intro id
    rw [withPermissions,Dict.get?_set]
    split <;> rfl
  unfold identify
  rw [if_neg henabled,if_neg (show ¬(withPermissions policy agentId permissions).enabled=false
    from henabled)]
  split
  · split
    · exact congrArg (fun entries => Except.ok (AgentPrincipal.mk _ entries)) (hlist _)
    · rfl
  · split
    · exact congrArg (fun entries => Except.ok (AgentPrincipal.mk _ entries)) (hlist _)
    · rfl

/-- A request is allowed when its agent is identified, may use mutable tools
if it must, and is permitted one of the names by its list. -/
theorem allowed_iff {policy : AuthPolicy} (he : policy.enabled=true)
    (oidc : Option (String→Except String String)) (request : ToolRequest) (agentId : String)
    (permissions : List String) :
    Allowed (withPermissions policy agentId permissions) oidc request ↔
      ∃ principal, identify policy oidc request.agentIdHeader request.bearerToken=.ok principal ∧
        (request.mutable=true→principal.agentId∈policy.mutableAllowedAgents) ∧
        Permits (if agentId=principal.agentId then permissions else principal.permissions)
          request.toolName request.qualifiedName := by
  have henabled : ¬(withPermissions policy agentId permissions).enabled=false := by
    rw [withPermissions,he]
    exact Bool.noConfusion
  unfold Allowed
  simp only [authorizeToolCall_ok_iff,or_iff_right henabled,identify_withPermissions he]
  constructor
  · rintro ⟨principal,hp,hauth⟩
    cases hi : identify policy oidc request.agentIdHeader request.bearerToken with
    | error e => rw [hi] at hp; cases hp
    | ok base =>
      rw [hi] at hp
      cases hp
      exact ⟨base,rfl,hauth⟩
  · rintro ⟨base,hi,hauth⟩
    rw [hi]
    exact ⟨_,rfl,hauth⟩

/-- A shorter list allows no call that the longer one refuses, exactly unless
it is empty and the longer one restricts the agent. -/
theorem revoking_grants_nothing_iff {policy : AuthPolicy} (he : policy.enabled=true)
    (agentId : String) {more fewer : List String} (h : ∀ entry∈fewer, entry∈more) :
    (∀ oidc request, Allowed (withPermissions policy agentId fewer) oidc request→
      Allowed (withPermissions policy agentId more) oidc request) ↔
      fewer≠[] ∨ more=[] ∨ "*"∈more := by
  constructor
  · intro hall
    by_contra hn
    obtain ⟨hfewer,hmore⟩ := not_or.mp hn
    obtain ⟨hrestricts,hwild⟩ := not_or.mp hmore
    obtain ⟨tool,htool⟩ := Infinite.exists_notMem_finset more.toFinset
    have hname : tool∉more := fun hm => htool (List.mem_toFinset.mpr hm)
    have hagent : ∀ permissions, Allowed (withPermissions policy agentId permissions)
        (some (fun _ => .ok agentId)) ⟨none,some "token",tool,tool,false⟩ ↔
        Permits permissions tool tool := by
      intro permissions
      have hid : identify policy (some (fun _ => .ok agentId)) none (some "token")=
          .ok ⟨agentId,(policy.agentPermissions.get? agentId).getD []⟩ := by
        unfold identify
        rw [if_neg (by rw [he]; exact Bool.noConfusion)]
        rfl
      rw [allowed_iff he]
      simp only [hid,Except.ok.injEq,exists_eq_left',if_true,Bool.false_eq_true,false_implies,
        true_and]
    have hallowed := (hagent more).mp
      (hall _ _ ((hagent fewer).mpr (Or.inl (not_not.mp hfewer))))
    rcases hallowed with hnil | hstar | hraw | hqualified
    · exact hrestricts hnil
    · exact hwild hstar
    · exact hname hraw
    · exact hname hqualified
  · intro hcases oidc request hallowed
    rw [allowed_iff he] at hallowed ⊢
    obtain ⟨principal,hid,hmutable,hpermits⟩ := hallowed
    refine ⟨principal,hid,hmutable,?_⟩
    split at hpermits
    · rename_i hagent
      rw [if_pos hagent]
      rcases hcases with hne | hnil | hwild
      · exact hpermits.mono h hne
      · exact Or.inl hnil
      · exact Or.inr (Or.inl hwild)
    · rename_i hagent
      rw [if_neg hagent]
      exact hpermits

theorem revoking_grants_nothing_reader :
    (∀ oidc request, Allowed (withPermissions {} "reader" ["search.query"]) oidc request→
      Allowed (withPermissions {} "reader" ["pg.list_tables","search.query"]) oidc request) ↔
      ["search.query"]≠[] ∨ ["pg.list_tables","search.query"]=[] ∨
        "*"∈["pg.list_tables","search.query"] :=
  revoking_grants_nothing_iff rfl "reader" (by decide)

theorem emptied_list_allows :
    ¬Allowed (withPermissions {} "reader" ["search.query"]) none
      ⟨some "reader",none,"list_tables","pg.list_tables",false⟩ ∧
    Allowed (withPermissions {} "reader" []) none
      ⟨some "reader",none,"list_tables","pg.list_tables",false⟩ := by
  refine ⟨?_,⟨_,rfl,rfl⟩⟩
  rintro ⟨principal,hid,hauth⟩
  cases hid
  cases hauth

end McpGateway.PermissionLists
