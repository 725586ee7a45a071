import Mathlib
import McpGateway.PyDict
import McpGateway.PyText
import McpGateway.StepRun
import McpGateway.TaskPool
import McpGateway.JsonValue
import McpGateway.PyRuntime
import McpGateway.JwksCache

/-!
# Validation of bearer tokens

A token is decoded with the configured secret, or with keys of the identity
provider, whose fetch is the only suspension. Validations overlap on one key
cache. An empty table accepts nothing, so an accepted token was decoded with a
key that a fetched document listed, even where the cache takes the empty table
for a fetched one.
-/

namespace McpGateway.TokenValidation

open PyDict PyText StepRun TaskPool JsonValue PyRuntime JwksCache

/-- `OIDCConfig`, when it is enabled. -/
structure OIDCConfig where
  /-- Accepted algorithms. -/
  algorithms : List String := ["RS256"]
  /-- Address of the key document. -/
  jwksUrl : Option String := none
  /-- Expected issuer. -/
  issuer : Option String := none
  /-- Expected audience. -/
  audience : Option String := none
  /-- Symmetric secret. -/
  secret : Option String := none
  /-- Claim with the agent id. -/
  agentIdClaim : String := "sub"
  /-- Lifetime of fetched keys. -/
  jwksCacheTtl : ℚ := 300

/-- What `jwt.decode` is asked to check. -/
structure DecodeRules where
  /-- Accepted algorithms. -/
  algorithms : List String
  /-- Expected audience. -/
  audience : Option String
  /-- Expected issuer. -/
  issuer : Option String
  /-- `verify_aud`. -/
  verifyAud : Bool

/-- The rules of a configuration, which are the same for both kinds of key. -/
def OIDCConfig.rules (cfg : OIDCConfig) : DecodeRules :=
  ⟨cfg.algorithms,cfg.audience,cfg.issuer,present cfg.audience⟩

/-- A key of `jwt.decode`. -/
inductive VerificationKey (κ : Type) where
  /-- The secret. -/
  | secret (text : String)
  /-- A constructed key. -/
  | key (key : κ)

/-- The token library. -/
structure TokenLibrary (κ : Type) where
  /-- `jwt.decode`: the claims. -/
  decode : String→VerificationKey κ→DecodeRules→Except DecodeError Json
  /-- `jwt.get_unverified_header(token).get("kid")`, or the text of a `JWTError`. -/
  header : String→Except String (Option String)
  /-- `jwk.construct`. -/
  construct : Construct κ

/-- `str` of a claim. -/
def claimText (rt : Runtime) : Json→String
  | .null => "None"
  | .bool true => "True"
  | .bool false => "False"
  | .int n => toString n
  | .float (.finite q) => rt.reprFloat q
  | .float .negZero => "-0.0"
  | .float .nan => "nan"
  | .float (.inf false) => "inf"
  | .float (.inf true) => "-inf"
  | .str text => text
  | value => rt.strValue value

/-- `extract_agent_id`. -/
def extractAgentId (rt : Runtime) (cfg : OIDCConfig) (payload : Json) : Except String String :=
  match payload.get? cfg.agentIdClaim with
  | none => .error ("missing claim '"++cfg.agentIdClaim++"' in token")
  | some value =>
    if value.truthy=true then .ok (claimText rt value)
    else .error ("missing claim '"++cfg.agentIdClaim++"' in token")

/-- A validation that ended. -/
structure Validation where
  /-- The token. -/
  token : String
  /-- Reading at its beginning. -/
  tested : ℚ
  /-- Reading at its end. -/
  answered : ℚ
  /-- How it ended. -/
  outcome : TokenOutcome Json

/-- A validator in use. -/
structure ValidatorRun where
  /-- The key cache, with the validations that wait for it. -/
  service : KeyService
  /-- Their tokens, in the same order. -/
  tokens : List String := []

/-- What happens next. -/
inductive ValidatorAction where
  /-- A token is presented. -/
  | present (token : String) (now : ℚ)
  /-- The fetch of a waiting validation ends. -/
  | settle (index : ℕ) (download : Except String Json) (now : ℚ)

/-- Its reading of the clock. -/
def ValidatorAction.now : ValidatorAction→ℚ
  | .present _ now => now
  | .settle _ _ now => now

section Steps

variable {κ : Type} (lib : TokenLibrary κ) (cfg : OIDCConfig)

/-- Decoding with one kind of key, an exception for the handlers of `validate`. -/
def decodeWith (token : String) (key : VerificationKey κ) : Except DecodeError Json :=
  lib.decode token key cfg.rules

/-- `validate` with the secret. -/
def withSecret (token secret : String) : TokenOutcome Json :=
  match decodeWith lib cfg token (.secret secret) with
  | .ok payload => .accepted payload
  | .error (.jwt text) => .rejected ("invalid token: "++text)
  | .error (.other text) => .crashed text

/-- `validate` behind `get_key`. -/
def conclude (token : String) : KeyOutcome κ→TokenOutcome Json
  | .key key => tryKeys (fun key => decodeWith lib cfg token (.key key)) none [key]
  | .keys keys => tryKeys (fun key => decodeWith lib cfg token (.key key)) none keys
  | .unknownKid kid => .rejected ("unknown kid '"++kid++"'")
  | .badKey text => .rejected ("bad JWK: "++text)
  | .constructFailed text => .crashed text
  | .fetchFailed text => .crashed text
  | .documentFailed .attributeError => .crashed "AttributeError"
  | .documentFailed .typeError => .crashed "TypeError"

/-- The end of a validation whose keys are known. -/
def concluded (token : String) (answer : KeyAnswer κ) : Validation :=
  ⟨token,answer.tested,answer.answered,conclude lib cfg token answer.outcome⟩

/-- `validate` up to its suspension, or the end of one. The secret wins over
the key document, and without either nothing is accepted. -/
def step (s : ValidatorRun) : ValidatorAction→ValidatorRun×Option Validation
  | .present token now =>
    let ended := fun outcome =>
      ({s with service := {s.service with clock := now}},some ⟨token,now,now,outcome⟩)
    if present cfg.secret=true then ended (withSecret lib cfg token (orText cfg.secret ""))
    else if present cfg.jwksUrl=false then ended (.rejected "no JWKS URL or secret configured")
    else
      match lib.header token with
      | .error text => ended (.rejected ("invalid token: "++text))
      | .ok kid =>
        let asked := JwksCache.step lib.construct s.service (.ask kid now)
        match asked.2 with
        | none => ({service := asked.1,tokens := s.tokens++[token]},none)
        | some answer => ({s with service := asked.1},some (concluded lib cfg token answer))
  | .settle index download now =>
    let settled := JwksCache.step lib.construct s.service (.settle index download now)
    match s.tokens[index]?,settled.2 with
    | some token,some answer =>
      ({service := settled.1,tokens := s.tokens.eraseIdx index},
        some (concluded lib cfg token answer))
    | _,_ => ({s with service := settled.1},none)

/-- A validator as `Authorizer` builds it. -/
def built (start : ℚ) : ValidatorRun := {service := fresh cfg.jwksCacheTtl start}

/-- The clock does not go back. -/
def Forward (s : ValidatorRun) (a : ValidatorAction) : Prop := s.service.clock≤a.now

end Steps

section Evidence

variable {κ : Type} (lib : TokenLibrary κ) (cfg : OIDCConfig)

/-- A key that a document lists decodes the token. A token that names a key is
decoded with that one. -/
def Decoded (keys : Dict Kid Json) (token : String) (payload : Json) : Prop :=
  ∃ raw∈keys.values, ∃ key kid, lib.header token=.ok kid ∧
    (∀ name, kid=some name→name≠""→keys.get? (.text name)=some raw) ∧
    lib.construct raw=.ok key ∧ lib.decode token (.key key) cfg.rules=.ok payload

/-- The payload was decoded with the secret, or with a key of a document whose
fetch completed no longer than the lifetime before the validation began, or
during it. -/
def Evident (fetches : List JwksFetch) (v : Validation) (payload : Json) : Prop :=
  if present cfg.secret=true then
    lib.decode v.token (.secret (orText cfg.secret "")) cfg.rules=.ok payload
  else ∃ fetch∈fetches, ∃ keys, documentKeys fetch.document=.ok keys ∧
    Decoded lib cfg keys v.token payload ∧
    (fetch.completed≤v.tested ∧ v.tested≤fetch.completed+cfg.jwksCacheTtl ∨
      v.tested≤fetch.completed ∧ fetch.completed≤v.answered)

/-- Waiting validations are those of the key cache, with the identifiers of
their tokens. -/
def Aligned (s : ValidatorRun) : Prop :=
  List.Forall₂ (fun token (call : PendingKey) => lib.header token=.ok call.kid) s.tokens
    s.service.pending

/-- What every reached state and its history satisfy. -/
structure Sound (s : ValidatorRun) (h : List Validation) : Prop where
  /-- The cache holds the last fetch. -/
  recorded : Recorded cfg.jwksCacheTtl s.service
  /-- Tokens and calls belong together. -/
  aligned : Aligned lib s
  /-- With a secret nothing waits. -/
  idle : present cfg.secret=true→s.service.pending=[]
  /-- Accepted tokens have evidence. -/
  evident : ∀ v∈h, ∀ payload, v.outcome=.accepted payload→
    Evident lib cfg s.service.fetches v payload

variable {lib cfg}

/-- The key that decides is one of those tried. -/
theorem tryKeys_accepted {π : Type} {decode : κ→Except DecodeError π} {payload : π}
    {keys : List κ} {last : Option String} (h : tryKeys decode last keys=.accepted payload) :
    ∃ key∈keys, decode key=.ok payload := by
  induction keys generalizing last with
  | nil => cases h
  | cons key keys ih =>
    unfold tryKeys at h
    cases hd : decode key with
    | ok found =>
      rw [hd] at h
      cases h
      exact ⟨key,List.mem_cons_self,hd⟩
    | error e =>
      rw [hd] at h
      cases e with
      | jwt text =>
        obtain ⟨other,ho,hdecoded⟩ := ih h
        exact ⟨other,List.mem_cons_of_mem _ ho,hdecoded⟩
      | other text => cases h

/-- Only a key or a list of keys leads to an accepted token. -/
theorem conclude_accepted {token : String} {outcome : KeyOutcome κ} {payload : Json}
    (h : conclude lib cfg token outcome=.accepted payload) : ∃ key,
      (outcome=.key key ∨ ∃ keys, outcome=.keys keys ∧ key∈keys) ∧
      lib.decode token (.key key) cfg.rules=.ok payload := by
  cases outcome with
  | key key =>
    obtain ⟨found,hf,hdecoded⟩ := tryKeys_accepted h
    cases List.mem_singleton.mp hf
    exact ⟨key,.inl rfl,hdecoded⟩
  | keys keys =>
    obtain ⟨found,hf,hdecoded⟩ := tryKeys_accepted h
    exact ⟨found,.inr ⟨keys,rfl,hf⟩,hdecoded⟩
  | unknownKid kid => cases h
  | badKey text => cases h
  | constructFailed text => cases h
  | fetchFailed text => cases h
  | documentFailed error => cases error <;> cases h

/-- A constructed list has a source for each of its elements. -/
theorem construct_source {construct : Construct κ} {raws : List Json} {keys : List κ}
    (h : raws.mapM construct=.ok keys) {key : κ} (hk : key∈keys) :
    ∃ raw∈raws, construct raw=.ok key := by
  induction raws generalizing keys with
  | nil =>
    cases h
    exact absurd hk List.not_mem_nil
  | cons raw raws ih =>
    rw [List.mapM_cons] at h
    cases hraw : construct raw with
    | error e =>
      rw [hraw] at h
      cases h
    | ok first =>
      rw [hraw] at h
      cases hrest : raws.mapM construct with
      | error e =>
        rw [hrest] at h
        cases h
      | ok rest =>
        rw [hrest] at h
        cases h
        rcases List.mem_cons.mp hk with rfl | hk
        · exact ⟨raw,List.mem_cons_self,hraw⟩
        · obtain ⟨source,hs,hconstructed⟩ := ih hrest hk
          exact ⟨source,List.mem_cons_of_mem _ hs,hconstructed⟩

/-- What `get_key` answers from a table and the token accepts is listed in the
table. -/
theorem decoded_of_accepted {keys : Dict Kid Json} {token : String} {kid : Option String}
    {payload : Json} (hkid : lib.header token=.ok kid)
    (h : conclude lib cfg token (answerFrom lib.construct keys kid)=.accepted payload) :
    Decoded lib cfg keys token payload := by
  obtain ⟨key,hkey,hdecoded⟩ := conclude_accepted h
  unfold answerFrom at hkey
  cases hname : kid.filter (fun kid => kid≠"") with
  | some name =>
    rw [hname] at hkey
    obtain ⟨hsome,-⟩ := Option.filter_eq_some_iff.mp hname
    cases hget : keys.get? (.text name) with
    | none =>
      simp only [hget] at hkey
      rcases hkey with hkey | ⟨_,hkey,-⟩ <;> cases hkey
    | some raw =>
      simp only [hget] at hkey
      cases hraw : lib.construct raw with
      | error e =>
        simp only [hraw] at hkey
        cases e <;> rcases hkey with hkey | ⟨_,hkey,-⟩ <;> cases hkey
      | ok found =>
        simp only [hraw] at hkey
        rcases hkey with hkey | ⟨_,hkey,-⟩
        · cases hkey
          refine ⟨raw,Dict.mem_values_iff.mpr ⟨_,hget⟩,key,kid,hkid,?_,hraw,hdecoded⟩
          intro other hother _
          rw [hsome] at hother
          cases hother
          exact hget
        · cases hkey
  | none =>
    rw [hname] at hkey
    have hunnamed : ∀ name, kid=some name→name≠""→False := by
      intro name hk hne
      exact (Option.filter_eq_none_iff.mp hname name hk) (decide_eq_true hne)
    cases hall : keys.values.mapM lib.construct with
    | error e =>
      simp only [hall] at hkey
      cases e <;> rcases hkey with hkey | ⟨_,hkey,-⟩ <;> cases hkey
    | ok found =>
      simp only [hall] at hkey
      rcases hkey with hkey | ⟨listed,hkey,hmem⟩
      · cases hkey
      · cases hkey
        obtain ⟨raw,hraw,hconstructed⟩ := construct_source hall hmem
        exact ⟨raw,hraw,key,kid,hkid,fun name hk hne => (hunnamed name hk hne).elim,
          hconstructed,hdecoded⟩

/-- More fetches are no less evidence. -/
theorem Evident.mono {fetches later : List JwksFetch} {v : Validation} {payload : Json}
    (h : Evident lib cfg fetches v payload) (hsub : fetches⊆later) :
    Evident lib cfg later v payload := by
  unfold Evident at h ⊢
  split
  · rename_i hsecret
    rwa [if_pos hsecret] at h
  · rename_i hsecret
    rw [if_neg hsecret] at h
    obtain ⟨fetch,hf,hrest⟩ := h
    exact ⟨fetch,hsub hf,hrest⟩

/-- A validation that ends with evidence keeps the rest sound. -/
theorem Sound.extend {s s' : ValidatorRun} {h : List Validation} {e : Option Validation}
    (hs : Sound lib cfg s h) (hrecorded : Recorded cfg.jwksCacheTtl s'.service)
    (haligned : Aligned lib s') (hidle : present cfg.secret=true→s'.service.pending=[])
    (hsub : s.service.fetches⊆s'.service.fetches)
    (hnew : ∀ v, e=some v→∀ payload, v.outcome=.accepted payload→
      Evident lib cfg s'.service.fetches v payload) : Sound lib cfg s' (h++e.toList) := by
  refine ⟨hrecorded,haligned,hidle,fun v hv payload haccepted => ?_⟩
  rcases List.mem_append.mp hv with hv | hv
  · exact (hs.evident v hv payload haccepted).mono hsub
  · exact hnew v (Option.mem_toList.mp hv) payload haccepted

/-- The record does not depend on the latest reading, if the clock does not go
back. -/
theorem recorded_clock {service : KeyService} {ttl now : ℚ} (h : Recorded ttl service)
    (hnow : service.clock≤now) : Recorded ttl {service with clock := now} :=
  ⟨h.lifetime,h.unfetched,h.fetched,fun fetch hf => (h.completed fetch hf).trans hnow,
    fun call hc => (h.tested call hc).trans hnow⟩

/-- A token that is accepted without a fetch is decoded with a key of an earlier
one, which is not too old. -/
theorem evident_asked {s : ValidatorRun} {h : List Validation} {token : String} {now : ℚ}
    {kid : Option String} {payload : Json} (hs : Sound lib cfg s h)
    (hsecret : ¬present cfg.secret=true) (hnow : s.service.clock≤now)
    (hkid : lib.header token=.ok kid) (hneeds : ¬s.service.cache.needsFetch kid now=true)
    (haccepted : conclude lib cfg token (answerFrom lib.construct s.service.cache.keys kid)=
      .accepted payload) :
    Evident lib cfg s.service.fetches
      ⟨token,now,now,conclude lib cfg token (answerFrom lib.construct s.service.cache.keys kid)⟩
      payload := by
  have hdecoded := decoded_of_accepted hkid haccepted
  have hfetched : s.service.fetches≠[] := by
    intro hnone
    obtain ⟨raw,hraw,-⟩ := hdecoded
    rw [(hs.recorded.unfetched hnone).1] at hraw
    exact absurd hraw List.not_mem_nil
  obtain ⟨fetch,hmem,hdocument,hat⟩ := hs.recorded.fetched hfetched
  obtain ⟨hyoung,-⟩ := not_or.mp (fun h => hneeds ((needsFetch_iff _ _ _).mpr h))
  rw [hs.recorded.lifetime,hat,not_lt] at hyoung
  have hpast := (hs.recorded.completed fetch hmem).trans hnow
  unfold Evident
  rw [if_neg hsecret]
  exact ⟨fetch,hmem,_,hdocument,hdecoded,.inl ⟨hpast,by linarith⟩⟩

/-- A validator before its first token. -/
theorem sound_built (lib : TokenLibrary κ) (cfg : OIDCConfig) (start : ℚ) :
    Sound lib cfg (built cfg start) [] :=
  ⟨recorded_fresh _ _,.nil,fun _ => rfl,fun _ h => absurd h List.not_mem_nil⟩

/-- A presented token. -/
theorem sound_present {s : ValidatorRun} {h : List Validation} {token : String} {now : ℚ}
    (hs : Sound lib cfg s h) (hnow : s.service.clock≤now) :
    Sound lib cfg (step lib cfg s (.present token now)).1
      (h++(step lib cfg s (.present token now)).2.toList) := by
  have hended : ∀ outcome, (∀ payload, outcome=.accepted payload→
      Evident lib cfg s.service.fetches ⟨token,now,now,outcome⟩ payload)→
      Sound lib cfg {s with service := {s.service with clock := now}}
        (h++(some (⟨token,now,now,outcome⟩ : Validation)).toList) := by
    intro outcome hevident
    refine hs.extend (recorded_clock hs.recorded hnow) hs.aligned hs.idle (List.Subset.refl _) ?_
    intro v hv payload haccepted
    cases hv
    exact hevident payload haccepted
  unfold step
  dsimp only
  split
  · rename_i hsecret
    refine hended _ (fun payload haccepted => ?_)
    unfold Evident
    rw [if_pos hsecret]
    unfold withSecret decodeWith at haccepted
    split at haccepted
    · rename_i found hfound
      cases haccepted
      exact hfound
    · cases haccepted
    · cases haccepted
  · rename_i hsecret
    split
    · exact hended _ (fun payload haccepted => (by cases haccepted))
    · cases hkid : lib.header token with
      | error text => exact hended _ (fun payload haccepted => (by cases haccepted))
      | ok kid =>
        dsimp only
        have hrecorded : Recorded cfg.jwksCacheTtl
            (next lib.construct s.service (.ask kid now)) := recorded_next hs.recorded hnow
        by_cases hneeds : s.service.cache.needsFetch kid now=true
        · have hstep : JwksCache.step lib.construct s.service (.ask kid now)=
              ({s.service with pending := s.service.pending++[⟨kid,now⟩],clock := now},none) := by
            rw [JwksCache.step,if_pos hneeds]
          rw [next,hstep] at hrecorded
          rw [hstep]
          refine hs.extend hrecorded ?_ (fun h => absurd h hsecret) (List.Subset.refl _)
            (fun v hv => by cases hv)
          exact List.rel_append hs.aligned (.cons hkid .nil)
        · have hstep : JwksCache.step lib.construct s.service (.ask kid now)=
              ({s.service with clock := now},
                some ⟨kid,now,now,answerFrom lib.construct s.service.cache.keys kid⟩) := by
            rw [JwksCache.step,if_neg hneeds]
          rw [hstep]
          exact hended _ (fun payload haccepted =>
            evident_asked hs hsecret hnow hkid hneeds haccepted)

/-- The end of a fetch. -/
theorem sound_settle {s : ValidatorRun} {h : List Validation} {index : ℕ}
    {download : Except String Json} {now : ℚ} (hs : Sound lib cfg s h)
    (hnow : s.service.clock≤now) :
    Sound lib cfg (step lib cfg s (.settle index download now)).1
      (h++(step lib cfg s (.settle index download now)).2.toList) := by
  have hrecorded : Recorded cfg.jwksCacheTtl
      (next lib.construct s.service (.settle index download now)) := recorded_next hs.recorded hnow
  unfold next at hrecorded
  unfold step
  dsimp only
  cases hcall : s.service.pending[index]? with
  | none =>
    have htoken := pair_none hs.aligned hcall
    have hstep : JwksCache.step lib.construct s.service (.settle index download now)=
        ({s.service with clock := now},none) := by
      rw [JwksCache.step,hcall]
    rw [hstep] at hrecorded
    rw [hstep,htoken]
    exact hs.extend hrecorded hs.aligned hs.idle (List.Subset.refl _) (fun v hv => by cases hv)
  | some call =>
    obtain ⟨token,htoken,hkid⟩ := pair_at hs.aligned hcall
    have herased := pair_erase hs.aligned index
    have hsecret : ¬present cfg.secret=true := by
      intro h
      rw [hs.idle h] at hcall
      cases hcall
    have hwaits : ∀ {waiting : List PendingKey}, present cfg.secret=true→waiting=[] :=
      fun h => absurd h hsecret
    rw [htoken]
    cases download with
    | error text =>
      have hstep : JwksCache.step lib.construct s.service (.settle index (.error text) now)=
          ({s.service with pending := s.service.pending.eraseIdx index,clock := now},
            some ⟨call.kid,call.tested,now,.fetchFailed text⟩) := by
        rw [JwksCache.step,hcall]
      rw [hstep] at hrecorded
      rw [hstep]
      refine hs.extend hrecorded herased hwaits (List.Subset.refl _)
        (fun v hv payload haccepted => ?_)
      cases hv
      cases haccepted
    | ok document =>
      cases hkeys : documentKeys document with
      | error e =>
        have hstep : JwksCache.step lib.construct s.service (.settle index (.ok document) now)=
            ({s.service with pending := s.service.pending.eraseIdx index,clock := now},
              some ⟨call.kid,call.tested,now,.documentFailed e⟩) := by
          simp only [JwksCache.step,hcall,hkeys]
        rw [hstep] at hrecorded
        rw [hstep]
        refine hs.extend hrecorded herased hwaits (List.Subset.refl _)
          (fun v hv payload haccepted => ?_)
        cases hv
        obtain ⟨key,hkey,-⟩ := conclude_accepted haccepted
        rcases hkey with hkey | ⟨_,hkey,-⟩ <;> cases hkey
      | ok keys =>
        have hstep : JwksCache.step lib.construct s.service (.settle index (.ok document) now)=
            ({s.service with
              cache := {s.service.cache with keys := keys,fetchedAt := now}
              pending := s.service.pending.eraseIdx index
              fetches := s.service.fetches++[⟨document,now⟩]
              clock := now},
              some ⟨call.kid,call.tested,now,answerFrom lib.construct keys call.kid⟩) := by
          simp only [JwksCache.step,hcall,hkeys]
        rw [hstep] at hrecorded
        rw [hstep]
        refine hs.extend hrecorded herased hwaits (List.subset_append_left _ _)
          (fun v hv payload haccepted => ?_)
        cases hv
        have htested := (hs.recorded.tested call (List.mem_of_getElem? hcall)).trans hnow
        unfold Evident
        rw [if_neg hsecret]
        exact ⟨⟨document,now⟩,List.mem_append_right _ (List.mem_singleton_self _),keys,hkeys,
          decoded_of_accepted hkid haccepted,.inr ⟨htested,le_refl now⟩⟩

/-- Everything a validator of a run accepts, on a clock that does not go back
and however its validations overlap, was decoded under its rules with the
configured secret, or with a key that a document fetched in this run listed,
no longer than the lifetime before the validation or during it. This holds
from the first reading on, whether or not the clock has passed the lifetime. -/
theorem accepted_evident (lib : TokenLibrary κ) (cfg : OIDCConfig) (start : ℚ)
    {actions : List ValidatorAction}
    (hclock : Meets (fun s a => (step lib cfg s a).1) Forward (built cfg start) actions) :
    let r := run (step lib cfg) (built cfg start) actions
    ∀ v∈r.2, ∀ payload, v.outcome=.accepted payload→
      Evident lib cfg r.1.service.fetches v payload := by
  intro r
  have hrun := run_meets (J:=Sound lib cfg) (fun s h a hs ha => ?_) (sound_built lib cfg start)
    hclock
  · rw [List.nil_append] at hrun
    exact hrun.evident
  · cases a with
    | present token now => exact sound_present hs ha
    | settle index download now => exact sound_settle hs ha

end Evidence

/-- A token of the test key, decoded by its own text. -/
def plainLibrary : TokenLibrary Json where
  decode := fun token _ _ => .ok (.obj [("sub",.str token)])
  header := fun _ => .ok (some "a")
  construct := plainConstruct

/-- A configuration with a key document. -/
def documentConfig : OIDCConfig := {jwksUrl := some "https://idp.example.com/jwks.json"}

/-- The validation of a token that waits for its key. -/
def fetching : ValidatorRun where
  service := {(built documentConfig 1000).service with pending := [⟨some "a",1000⟩]}
  tokens := ["agent-x"]

theorem accepted_evident_fetched :
    ∃ v payload, v.outcome=.accepted payload ∧
      Evident plainLibrary documentConfig [⟨oneKey,1001⟩] v payload := by
  have hfirst : step plainLibrary documentConfig (built documentConfig 1000)
      (.present "agent-x" 1000)=(fetching,none) := by
    have hneeds : (built documentConfig 1000).service.cache.needsFetch (some "a") 1000=true := by
      decide +kernel
    have hask : JwksCache.step plainLibrary.construct (built documentConfig 1000).service
        (.ask (some "a") 1000)=(fetching.service,none) := by
      rw [JwksCache.step,if_pos hneeds]
      rfl
    have hheader : plainLibrary.header "agent-x"=.ok (some "a") := rfl
    unfold step
    dsimp only
    rw [if_neg (by decide),if_neg (by decide),hheader]
    dsimp only
    rw [hask]
    rfl
  have hclock : Meets (fun s a => (step plainLibrary documentConfig s a).1) Forward
      (built documentConfig 1000) [.present "agent-x" 1000,.settle 0 (.ok oneKey) 1001] := by
    refine ⟨le_refl (1000 : ℚ),?_,trivial⟩
    dsimp only
    rw [hfirst]
    exact (by decide +kernel : (1000 : ℚ)≤1001)
  have hevident := accepted_evident plainLibrary documentConfig 1000 hclock
  simp only [run,hfirst] at hevident
  exact ⟨⟨"agent-x",1000,1001,_⟩,_,rfl,hevident ⟨"agent-x",1000,1001,_⟩ (List.mem_singleton_self _)
    _ rfl⟩

end McpGateway.TokenValidation
