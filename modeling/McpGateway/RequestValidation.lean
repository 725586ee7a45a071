import Mathlib
import McpGateway.PyText
import McpGateway.StepRun
import McpGateway.TaskPool
import McpGateway.JsonValue
import McpGateway.GatewaySettings
import McpGateway.RegistryRuns
import McpGateway.ToolAuthorizer
import McpGateway.PyRuntime
import McpGateway.Guardrails
import McpGateway.ResultCache
import McpGateway.ToolOrchestrator
import McpGateway.CallMediation
import McpGateway.GatewayRuns
import McpGateway.ConfigReload
import McpGateway.ConcurrentReloads
import McpGateway.JwksCache
import McpGateway.TokenValidation
import McpGateway.ApiRuns

/-!
# Token validations behind the interface

Every authorizer keeps the validator it was built with, and requests that came
before a reload go on with the old one. The fetches of a validator belong to
the requests that wait for it, one each, so an identification ends with the
validation of its own token and of no other.
-/

namespace McpGateway.RequestValidation

open PyText StepRun TaskPool JsonValue GatewaySettings RegistryRuns ToolAuthorizer PyRuntime
open Guardrails ResultCache ToolOrchestrator CallMediation GatewayRuns ConfigReload
open ConcurrentReloads JwksCache TokenValidation ApiRuns

section Definitions

variable {κ : Type} (lib : TokenLibrary κ) (rt : Runtime)

/-- A request waits for the validation of its own token. -/
def Waits (s : Server) (number id : ℕ) (token : String) : Prop :=
  ∃ request requestId authorizer ref,
    s.entering id=some ⟨request,requestId,.validating authorizer⟩ ∧
    authorizer.asks (request.bearerToken rt)=some ref ∧ ref.number=number ∧
    request.bearerToken rt=some token

/-- The validator of an authorizer is there. -/
def Known (validators : List SharedValidator) (oidc : Option ValidatorRef) : Prop :=
  ∀ ref∈oidc, ∃ validator : SharedValidator,
    validators[ref.number]?=some validator ∧ validator.cfg=ref.cfg

/-- What holds of each validator of the process. -/
structure Shared (s : Server) (number : ℕ) (validator : SharedValidator) : Prop where
  /-- What it accepted has evidence. -/
  sound : TokenValidation.Sound lib validator.cfg validator.run validator.ended
  /-- Its latest reading is past. -/
  past : validator.run.service.clock≤ s.clock
  /-- The tokens that wait are those of its requests. -/
  waiting : List.Forall₂ (Waits rt s number) validator.callers validator.run.tokens
  /-- No request waits twice. -/
  distinct : validator.callers.Nodup

/-- The authorizer that a request has taken and not left. -/
def taken : Stage→Option Authorizer
  | .bound authorizer => some authorizer
  | .validating authorizer => some authorizer
  | _ => none

/-- The validators of the process are those its authorizers refer to. -/
structure Validating (s : Server) : Prop where
  /-- The orchestrator's authorizer. -/
  swapped : Known s.validators s.swappedOidc
  /-- The application's authorizer. -/
  oidc : Known s.validators s.oidc
  /-- The authorizers of requests on their way. -/
  entering : ∀ id entry authorizer, s.entering id=some entry→taken entry.stage=some authorizer→
    Known s.validators authorizer.oidc
  /-- The validators. -/
  shared : ∀ number validator, s.validators[number]?=some validator→
    Shared lib rt s number validator

/-- Validators stay what they are and forget no validation. -/
def Later (validators validators' : List SharedValidator) : Prop :=
  ∀ (number : ℕ) (validator : SharedValidator), validators[number]?=some validator→
    ∃ later, validators'[number]?=some later ∧ later.cfg=validator.cfg ∧
      validator.ended⊆later.ended

/-- The validation is one of the validator of an authorizer. -/
def Vouched (validators : List SharedValidator) (authorizer : Authorizer) (v : Validation) :
    Prop :=
  ∃ (ref : ValidatorRef) (validator : SharedValidator), authorizer.oidc=some ref ∧
    validators[ref.number]?=some validator ∧ validator.cfg=ref.cfg ∧ v∈validator.ended

/-- A request is identified with the validation of its own token if its
authorizer asks for one, and otherwise with none. -/
def Asked (request : HttpRequest) (authorizer : Authorizer) : Option Validation→Prop
  | none => authorizer.asks (request.bearerToken rt)=none
  | some v => ∃ ref, authorizer.asks (request.bearerToken rt)=some ref ∧
    request.bearerToken rt=some v.token

/-- What a step does to the validators and says of an identification. -/
structure Turn (s s' : Server) (event : Option ServerEvent) : Prop where
  /-- The validators belong to the authorizers. -/
  validating : Validating lib rt s'
  /-- They are later ones. -/
  later : Later s.validators s'.validators
  /-- An identification has the validation it asked for. -/
  identified : ∀ id request authorizer validation principal,
    event=some (.identified id request authorizer validation principal)→
    Asked rt request authorizer validation ∧
      ∀ v∈validation, Vouched s'.validators authorizer v

end Definitions

section Frames

variable {κ : Type} {lib : TokenLibrary κ} {rt : Runtime} {s s' : Server}

/-- An optional text that counts as true is there and not empty. -/
theorem present_some {value : Option String} (h : present value=true) :
    ∃ text, value=some text ∧ text≠"" ∧ orText value ""=text := by
  cases value with
  | none => simp [present,orText] at h
  | some text =>
    have hne : text≠"" := by
      rintro rfl
      simp [present,orText] at h
    exact ⟨text,rfl,hne,if_neg hne⟩

/-- An authorizer asks its own validator, about a token that is there. -/
theorem asks_some {authorizer : Authorizer} {bearer : Option String} {ref : ValidatorRef}
    (h : authorizer.asks bearer=some ref) :
    authorizer.policy.enabled=true ∧ authorizer.oidc=some ref ∧ present bearer=true := by
  unfold Authorizer.asks at h
  split at h
  · rename_i hasks
    exact ⟨hasks.1,h,hasks.2⟩
  · cases h

/-- Validators are later than themselves. -/
theorem Later.refl (validators : List SharedValidator) : Later validators validators :=
  fun _ validator h => ⟨validator,h,rfl,List.Subset.refl _⟩

/-- What is later than the later is later. -/
theorem Later.trans {a b c : List SharedValidator} (h : Later a b) (h' : Later b c) :
    Later a c := by
  intro number validator hv
  obtain ⟨next,hn,hcfg,hsub⟩ := h number validator hv
  obtain ⟨last,hl,hcfg',hsub'⟩ := h' number next hn
  exact ⟨last,hl,hcfg'.trans hcfg,List.Subset.trans hsub hsub'⟩

/-- A validator that is there stays there. -/
theorem Known.mono {validators validators' : List SharedValidator} {oidc : Option ValidatorRef}
    (h : Known validators oidc) (hlater : Later validators validators') :
    Known validators' oidc := by
  intro ref hr
  obtain ⟨validator,hv,hcfg⟩ := h ref hr
  obtain ⟨later,hl,hsame,-⟩ := hlater ref.number validator hv
  exact ⟨later,hl,hsame.trans hcfg⟩

/-- A validation that a validator ended stays one of its validations. -/
theorem Vouched.mono {validators validators' : List SharedValidator} {authorizer : Authorizer}
    {v : Validation} (h : Vouched validators authorizer v) (hlater : Later validators validators') :
    Vouched validators' authorizer v := by
  obtain ⟨ref,validator,hr,hv,hcfg,hm⟩ := h
  obtain ⟨later,hl,hsame,hsub⟩ := hlater ref.number validator hv
  exact ⟨ref,later,hr,hl,hsame.trans hcfg,hsub hm⟩

/-- Whoever waits does so for one validator. -/
theorem Waits.unique {number number' id : ℕ} {token token' : String}
    (h : Waits rt s number id token) (h' : Waits rt s number' id token') : number'=number := by
  obtain ⟨request,requestId,authorizer,ref,he,hasks,hnumber,-⟩ := h
  obtain ⟨request',requestId',authorizer',ref',he',hasks',hnumber',-⟩ := h'
  cases he.symm.trans he'
  cases hasks.symm.trans hasks'
  exact hnumber'.symm.trans hnumber

/-- The progress of the request at hand. -/
theorem entering_self (s : Server) (id : ℕ) (entry : Option Entering) :
    (s.enter id entry).entering id=entry := Function.update_self ..

/-- The progress of the others. -/
theorem entering_other (s : Server) {id other : ℕ} (h : other≠id) (entry : Option Entering) :
    (s.enter id entry).entering other=s.entering other := Function.update_of_ne h ..

/-- Nobody else's waiting depends on one request or one validator. -/
theorem Waits.other {number id other : ℕ} {token : String} (h : Waits rt s number other token)
    (hne : other≠id) (entry : Option Entering) (changed : ℕ) (validator : SharedValidator) :
    Waits rt ((s.withValidator changed validator).enter id entry) number other token := by
  obtain ⟨request,requestId,authorizer,ref,he,hrest⟩ := h
  refine ⟨request,requestId,authorizer,ref,?_,hrest⟩
  rw [entering_other _ hne]
  exact he

/-- The callers of a validator wait on when somebody else moves. -/
theorem Shared.waiting_beside {number id : ℕ} {validator : SharedValidator}
    (h : Shared lib rt s number validator) (hid : id∉validator.callers) (entry : Option Entering)
    (changed : ℕ) (new : SharedValidator) :
    List.Forall₂ (Waits rt ((s.withValidator changed new).enter id entry) number)
      validator.callers validator.run.tokens := by
  refine pair_imp h.waiting (fun other ho token hw => hw.other ?_ entry changed new)
  rintro rfl
  exact hid ho

/-- A process with the same validators, in which the same requests wait. -/
theorem Validating.aside (hv : Validating lib rt s) (hsame : s'.validators=s.validators)
    (hclock : s.clock≤ s'.clock)
    (hwait : ∀ id entry authorizer, s.entering id=some entry→
      entry.stage=.validating authorizer→ s'.entering id=some entry)
    (hswapped : Known s.validators s'.swappedOidc) (hoidc : Known s.validators s'.oidc)
    (hentering : ∀ id entry authorizer, s'.entering id=some entry→
      taken entry.stage=some authorizer→Known s.validators authorizer.oidc) :
    Validating lib rt s' := by
  refine ⟨hsame.symm ▸ hswapped,hsame.symm ▸ hoidc,?_,?_⟩
  · intro id entry authorizer he ht
    rw [hsame]
    exact hentering id entry authorizer he ht
  · intro number validator hn
    rw [hsame] at hn
    have hshared := hv.shared number validator hn
    refine ⟨hshared.sound,hshared.past.trans hclock,pair_imp hshared.waiting ?_,hshared.distinct⟩
    rintro id - token ⟨request,requestId,authorizer,ref,he,hrest⟩
    exact ⟨request,requestId,authorizer,ref,hwait id _ authorizer he rfl,hrest⟩

/-- A request that does not wait moves on or leaves. -/
theorem Validating.enter (hv : Validating lib rt s) {id : ℕ} {entry : Option Entering}
    (hnot : ∀ old authorizer, s.entering id=some old→ old.stage≠.validating authorizer)
    (hnew : ∀ e authorizer, entry=some e→taken e.stage=some authorizer→
      Known s.validators authorizer.oidc) : Validating lib rt (s.enter id entry) := by
  refine hv.aside rfl (le_refl _) ?_ hv.swapped hv.oidc ?_
  · intro other old authorizer ho hs
    have hne : other≠id := by
      rintro rfl
      exact hnot old authorizer ho hs
    rw [entering_other s hne]
    exact ho
  · intro other e authorizer he ht
    by_cases hid : other=id
    · subst hid
      rw [entering_self] at he
      exact hnew e authorizer he ht
    · rw [entering_other s hid] at he
      exact hv.entering other e authorizer he ht

/-- The gateway does not go back in time. -/
theorem gateway_clock (rt : Runtime) (g : Gateway) (a : GatewayAction) :
    g.clock≤(GatewayRuns.step rt g a).1.clock := by
  cases a with
  | tick elapsed => exact le_add_of_nonneg_right elapsed.2
  | callFinish index outcome =>
    unfold GatewayRuns.step
    dsimp only
    split <;> exact le_refl _
  | _ => exact le_refl _

/-- What the gateway does leaves the validators alone. -/
theorem Validating.withGateway (hv : Validating lib rt s) (a : GatewayAction) :
    Validating lib rt (s.withGateway (GatewayRuns.step rt s.gateway a).1) :=
  hv.aside rfl (gateway_clock rt s.gateway a) (fun _ _ _ he _ => he) hv.swapped hv.oidc hv.entering

/-- So do the actions of an endpoint. -/
theorem Validating.actions (hv : Validating lib rt s) (actions : List GatewayAction) :
    Validating lib rt (actions.foldl (fun s a => s.perform rt a) s) ∧
      (actions.foldl (fun s a => s.perform rt a) s).validators=s.validators := by
  induction actions generalizing s with
  | nil => exact ⟨hv,rfl⟩
  | cons a rest ih => exact ih (hv.withGateway a)

end Frames

section Parts

variable {κ : Type} {lib : TokenLibrary κ} {rt : Runtime} {settings : Settings} {s : Server}

/-- The end of an identification: a refusal, or a principal. -/
theorem conclude_cases (rt : Runtime) (settings : Settings) (s : Server) (id : ℕ)
    (entry : Entering) (authorizer : Authorizer) (validation : Option Validation) :
    (∃ status detail, s.conclude rt settings id entry authorizer validation=
      (s.enter id none,some (.refused id entry.request status detail))) ∨
    ∃ principal, authorizer.principal rt (settings.agentId rt entry.request)
        (entry.request.bearerToken rt) validation=.ok principal ∧
      s.conclude rt settings id entry authorizer validation=
        (s.enter id (some {entry with stage := .identified principal}),
          some (.identified id entry.request authorizer validation principal)) := by
  unfold Server.conclude
  cases hp : authorizer.principal rt (settings.agentId rt entry.request)
    (entry.request.bearerToken rt) validation with
  | error refusal => exact .inl ⟨_,_,rfl⟩
  | ok principal => exact .inr ⟨principal,rfl,rfl⟩

/-- One validator and the request at hand change, and the requests of the
others are other ones. -/
theorem Validating.update (hv : Validating lib rt s) {number id : ℕ} {old : SharedValidator}
    (new : SharedValidator) (entry : Option Entering) (hn : s.validators[number]?=some old)
    (hcfg : new.cfg=old.cfg) (hsub : old.ended⊆new.ended)
    (hothers : ∀ other validator, other≠number→ s.validators[other]?=some validator→
      id∉validator.callers)
    (hshared : Shared lib rt ((s.withValidator number new).enter id entry) number new)
    (hentry : ∀ e authorizer, entry=some e→taken e.stage=some authorizer→
      Known s.validators authorizer.oidc) :
    Validating lib rt ((s.withValidator number new).enter id entry) ∧
      Later s.validators (s.withValidator number new).validators := by
  obtain ⟨hlt,-⟩ := List.getElem?_eq_some_iff.mp hn
  have hself : (s.withValidator number new).validators[number]?=some new :=
    List.getElem?_set_self hlt
  have hne : ∀ {other}, other≠number→
      (s.withValidator number new).validators[other]?=s.validators[other]? :=
    fun h => List.getElem?_set_ne h.symm
  have hlater : Later s.validators (s.withValidator number new).validators := by
    intro other validator ho
    by_cases hother : other=number
    · subst hother
      cases hn.symm.trans ho
      exact ⟨new,hself,hcfg,hsub⟩
    · exact ⟨validator,(hne hother).trans ho,rfl,List.Subset.refl _⟩
  refine ⟨⟨hv.swapped.mono hlater,hv.oidc.mono hlater,?_,?_⟩,hlater⟩
  · intro other e authorizer he ht
    by_cases hid : other=id
    · subst hid
      rw [entering_self] at he
      exact (hentry e authorizer he ht).mono hlater
    · rw [entering_other _ hid] at he
      exact (hv.entering other e authorizer he ht).mono hlater
  · intro other validator ho
    by_cases hother : other=number
    · subst hother
      cases hself.symm.trans ho
      exact hshared
    · have ho' := (hne hother).symm.trans ho
      have hold := hv.shared other validator ho'
      have hid := hothers other validator hother ho'
      exact ⟨hold.sound,hold.past,hold.waiting_beside hid entry number new,hold.distinct⟩

end Parts

section Runs

variable {κ : Type} {lib : TokenLibrary κ} {rt : Runtime} {settings : Settings}

/-- The validators belong to the authorizers, and every identification with a
validation has one of its authorizer's validator. -/
structure Proven (lib : TokenLibrary κ) (rt : Runtime) (s : Server) (h : List ServerEvent) :
    Prop where
  /-- The validators. -/
  validating : Validating lib rt s
  /-- The identifications. -/
  vouched : ∀ id request authorizer v principal,
    ServerEvent.identified id request authorizer (some v) principal∈h→
    Vouched s.validators authorizer v

/-- An accepted token of a proven history has evidence among the fetches of the
validator that its authorizer was built with. -/
theorem Proven.evident {s : Server} {h : List ServerEvent} (hp : Proven lib rt s h) {id : ℕ}
    {request : HttpRequest} {authorizer : Authorizer} {v : Validation}
    {principal : AgentPrincipal} {payload : Json}
    (hm : ServerEvent.identified id request authorizer (some v) principal∈h)
    (haccepted : v.outcome=.accepted payload) :
    ∃ ref validator, authorizer.oidc=some ref ∧ s.validators[ref.number]?=some validator ∧
      Evident lib ref.cfg validator.run.service.fetches v payload := by
  obtain ⟨ref,validator,hoidc,hn,hcfg,hv⟩ := hp.vouched id request authorizer v principal hm
  have hshared := hp.validating.shared ref.number validator hn
  exact ⟨ref,validator,hoidc,hn,hcfg ▸ hshared.sound.evident v hv payload haccepted⟩

end Runs

end McpGateway.RequestValidation
