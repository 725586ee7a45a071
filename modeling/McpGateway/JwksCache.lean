import Mathlib
import McpGateway.PyDict
import McpGateway.PyText
import McpGateway.StepRun
import McpGateway.JsonValue

/-!
# The cache of signing keys

Keys of the identity provider are fetched as one document and kept for a
lifetime. Calls overlap: each is cut at its only suspension, the fetch. The
moment of the last fetch starts at zero instead of being absent, so a clock that
has not yet passed the lifetime takes the empty table for a fetched one. Only a
call without a key identifier then answers from it, because an unknown
identifier fetches.
-/

namespace McpGateway.JwksCache

open PyDict PyText StepRun JsonValue

/-- Dictionary keys up to Python's equality, which identifies equal Booleans,
integers and floats. Every parsed NaN is one object, hence one key. -/
inductive Kid where
  /-- `None`. -/
  | null
  /-- A Boolean or number, by its value. -/
  | number (value : PyFloat)
  /-- A string. -/
  | text (value : String)
  deriving DecidableEq

/-- What reading an ill-formed document raises. -/
inductive DocumentError where
  /-- The document has no `get`. -/
  | attributeError
  /-- Something is not iterable, subscriptable or hashable. -/
  | typeError
  deriving DecidableEq

/-- A value as a dictionary key. -/
def Kid.of : Json→Except DocumentError Kid
  | .null => .ok .null
  | .bool b => .ok (.number (.finite (if b then 1 else 0)))
  | .int n => .ok (.number (.finite n))
  | .float .negZero => .ok (.number (.finite 0))
  | .float x => .ok (.number x)
  | .str s => .ok (.text s)
  | .arr _ => .error .typeError
  | .obj _ => .error .typeError

/-- `for k in value`. -/
def elements : Json→Except DocumentError (List Json)
  | .arr items => .ok items
  | .obj fields => .ok (fields.map (fun m => .str m.1))
  | .str text => .ok (text.toList.map (fun c => .str (String.singleton c)))
  | _ => .error .typeError

/-- `k["kid"]: k`, if `"kid" in k`. -/
def keyEntry (k : Json) : Except DocumentError (Option (Kid×Json)) :=
  match k with
  | .obj _ =>
    match k.get? "kid" with
    | none => .ok none
    | some kid => (Kid.of kid).map (fun kid => some (kid,k))
  | .arr items => if .str "kid"∈items then .error .typeError else .ok none
  | .str text => if isIn "kid" text then .error .typeError else .ok none
  | _ => .error .typeError

/-- The keys of a document: `{k["kid"]: k for k in doc.get("keys", []) if "kid" in k}`. -/
def documentKeys (doc : Json) : Except DocumentError (Dict Kid Json) :=
  match doc with
  | .obj _ => do
    let listed ← elements ((doc.get? "keys").getD (.arr []))
    let entries ← listed.mapM keyEntry
    return Dict.ofItems (entries.filterMap id)
  | _ => .error .attributeError

/-- What the library raises on a key. -/
inductive ConstructError where
  /-- `JWKError`. -/
  | jwk (text : String)
  /-- Any other exception. -/
  | other (text : String)

/-- How `get_key` ends; keys are of any type. -/
inductive KeyOutcome (κ : Type) where
  /-- The key of the identifier. -/
  | key (key : κ)
  /-- All keys. -/
  | keys (keys : List κ)
  /-- `OIDCError("unknown kid ...")`. -/
  | unknownKid (kid : String)
  /-- `OIDCError("bad JWK: ...")`. -/
  | badKey (text : String)
  /-- The library raised something else. -/
  | constructFailed (text : String)
  /-- The download failed. -/
  | fetchFailed (text : String)
  /-- The document could not be read. -/
  | documentFailed (error : DocumentError)

/-- `JWKSCache`. -/
structure JWKSCache where
  /-- Lifetime of fetched keys. -/
  ttl : ℚ
  /-- `_keys`. -/
  keys : Dict Kid Json := Dict.empty
  /-- `_fetched_at`. -/
  fetchedAt : ℚ := 0

/-- `_expired`. -/
def JWKSCache.expired (cache : JWKSCache) (now : ℚ) : Bool := decide (cache.ttl<now-cache.fetchedAt)

/-- `if self._expired() or (kid and kid not in self._keys)`. -/
def JWKSCache.needsFetch (cache : JWKSCache) (kid : Option String) (now : ℚ) : Bool :=
  cache.expired now || match kid with
    | none => false
    | some kid => decide (kid≠"") && !cache.keys.contains (.text kid)

/-- `jwk.construct`, for one exception or another. -/
abbrev Construct (κ : Type) := Json→Except ConstructError κ

/-- How a failed construction ends the call. -/
def failed {κ : Type} : ConstructError→KeyOutcome κ
  | .jwk text => .badKey text
  | .other text => .constructFailed text

/-- `get_key` behind the fetch: the key of the identifier, or all keys without one. -/
def answerFrom {κ : Type} (construct : Construct κ) (keys : Dict Kid Json) (kid : Option String) :
    KeyOutcome κ :=
  match kid.filter (fun kid => kid≠"") with
  | some kid =>
    match keys.get? (.text kid) with
    | none => .unknownKid kid
    | some raw =>
      match construct raw with
      | .ok key => .key key
      | .error e => failed e
  | none =>
    match keys.values.mapM construct with
    | .ok keys => .keys keys
    | .error e => failed e

/-- A call that waits for its fetch. -/
structure PendingKey where
  /-- Identifier in the token. -/
  kid : Option String
  /-- Reading of the freshness test. -/
  tested : ℚ

/-- A download that was read and stored. -/
structure JwksFetch where
  /-- What was downloaded. -/
  document : Json
  /-- Reading afterwards. -/
  completed : ℚ

/-- The end of a call. -/
structure KeyAnswer (κ : Type) where
  /-- Identifier in the token. -/
  kid : Option String
  /-- Reading of the freshness test. -/
  tested : ℚ
  /-- Reading at the end. -/
  answered : ℚ
  /-- How it ended. -/
  outcome : KeyOutcome κ

/-- The cache with its calls, and the history it does not keep. -/
structure KeyService where
  /-- The cache. -/
  cache : JWKSCache
  /-- Calls that wait for their fetch. -/
  pending : List PendingKey := []
  /-- Fetches so far. -/
  fetches : List JwksFetch := []
  /-- Latest reading. -/
  clock : ℚ

/-- What happens next. -/
inductive KeyAction where
  /-- A call starts and tests the freshness. -/
  | ask (kid : Option String) (now : ℚ)
  /-- The fetch of a waiting call ends, with a document or with an exception. -/
  | settle (index : ℕ) (download : Except String Json) (now : ℚ)

/-- Its reading of the clock. -/
def KeyAction.now : KeyAction→ℚ
  | .ask _ now => now
  | .settle _ _ now => now

/-- The service before its first call. -/
def fresh (ttl start : ℚ) : KeyService := {cache := {ttl := ttl}, clock := start}

section Steps

variable {κ : Type} (construct : Construct κ)

/-- One action and the call it ends. -/
def step (s : KeyService) : KeyAction→KeyService×Option (KeyAnswer κ)
  | .ask kid now =>
    if s.cache.needsFetch kid now then
      ({s with pending := s.pending++[⟨kid,now⟩], clock := now},none)
    else ({s with clock := now},some ⟨kid,now,now,answerFrom construct s.cache.keys kid⟩)
  | .settle index download now =>
    match s.pending[index]? with
    | none => ({s with clock := now},none)
    | some call =>
      let rest := {s with pending := s.pending.eraseIdx index, clock := now}
      match download with
      | .error text => (rest,some ⟨call.kid,call.tested,now,.fetchFailed text⟩)
      | .ok document =>
        match documentKeys document with
        | .error e => (rest,some ⟨call.kid,call.tested,now,.documentFailed e⟩)
        | .ok keys =>
          ({rest with
            cache := {s.cache with keys := keys, fetchedAt := now}
            fetches := s.fetches++[⟨document,now⟩]},
            some ⟨call.kid,call.tested,now,answerFrom construct keys call.kid⟩)

/-- The state after an action. -/
def next (s : KeyService) (a : KeyAction) : KeyService := (step construct s a).1

/-- The caller learns a key, all keys, or that the identifier is unknown. -/
def Reports : KeyOutcome κ→Prop
  | .key _ => True
  | .keys _ => True
  | .unknownKid _ => True
  | .badKey _ => False
  | .constructFailed _ => False
  | .fetchFailed _ => False
  | .documentFailed _ => False

/-- The answer is that of a fetched document, whose fetch completed no longer
than the lifetime before the freshness test, or during the call. -/
def Grounded (ttl : ℚ) (fetches : List JwksFetch) (answer : KeyAnswer κ) : Prop :=
  ∃ fetch∈fetches, ∃ keys, documentKeys fetch.document=.ok keys ∧
    answer.outcome=answerFrom construct keys answer.kid ∧
    (fetch.completed≤answer.tested ∧ answer.tested≤fetch.completed+ttl ∨
      answer.tested≤fetch.completed ∧ fetch.completed≤answer.answered)

/-- What the action reports is grounded in the fetches so far. -/
def Answered (ttl : ℚ) (s : KeyService) (a : KeyAction) : Prop :=
  ∀ answer, (step construct s a).2=some answer→ Reports answer.outcome→
    Grounded construct ttl (next construct s a).fetches answer

/-- The clock does not go back. -/
def Onward (s : KeyService) (a : KeyAction) : Prop := s.clock≤a.now

/-- A call that starts before the first fetch has a key identifier, or the clock
has passed the lifetime. -/
def Based (ttl : ℚ) (s : KeyService) : KeyAction→Prop
  | .ask kid now => s.fetches=[]→(∃ name, name≠"" ∧ kid=some name) ∨ ttl<now
  | .settle _ _ _ => True

/-- The cache holds the last fetch, and no reading is ahead of the clock. -/
structure Recorded (ttl : ℚ) (s : KeyService) : Prop where
  /-- The lifetime is the configured one. -/
  lifetime : s.cache.ttl=ttl
  /-- Without a fetch, the cache is as it was built. -/
  unfetched : s.fetches=[]→s.cache.keys=Dict.empty ∧ s.cache.fetchedAt=0
  /-- The cached keys are those of a fetch, and its moment is kept. -/
  fetched : s.fetches≠[]→∃ fetch∈s.fetches, documentKeys fetch.document=.ok s.cache.keys ∧
    s.cache.fetchedAt=fetch.completed
  /-- Fetches are over. -/
  completed : ∀ fetch∈s.fetches, fetch.completed≤ s.clock
  /-- Waiting calls have been tested. -/
  tested : ∀ call∈s.pending, call.tested≤ s.clock

/-- The service starts without fetches. -/
theorem recorded_fresh (ttl start : ℚ) : Recorded ttl (fresh ttl start) where
  lifetime := rfl
  unfetched := fun _ => ⟨rfl,rfl⟩
  fetched := fun h => absurd rfl h
  completed := fun _ h => absurd h List.not_mem_nil
  tested := fun _ h => absurd h List.not_mem_nil

/-- A call without an identifier gets no keys from an empty table. -/
theorem answerFrom_empty {kid : Option String} (h : kid.filter (fun kid => kid≠"")=none) :
    answerFrom construct Dict.empty kid=.keys [] := by
  unfold answerFrom
  rw [h]
  rfl

/-- A call fetches exactly when the keys are too old or its identifier is not
among them. -/
theorem needsFetch_iff (cache : JWKSCache) (kid : Option String) (now : ℚ) :
    cache.needsFetch kid now=true ↔ cache.ttl<now-cache.fetchedAt ∨
      ∃ name, name≠"" ∧ kid=some name ∧ cache.keys.get? (.text name)=none := by
  unfold JWKSCache.needsFetch JWKSCache.expired Dict.contains
  cases kid with
  | none => simp
  | some name => simp

/-- Every action reads the clock. -/
@[simp] theorem next_clock (s : KeyService) (a : KeyAction) : (next construct s a).clock=a.now := by
  unfold next step
  cases a with
  | ask kid now =>
    dsimp only
    split <;> rfl
  | settle index download now =>
    dsimp only
    cases s.pending[index]? with
    | none => rfl
    | some call =>
      cases download with
      | error text => rfl
      | ok document =>
        dsimp only
        cases documentKeys document <;> rfl

/-- A freshness test fetches nothing yet. -/
@[simp] theorem fetches_ask (s : KeyService) (kid : Option String) (now : ℚ) :
    (next construct s (.ask kid now)).fetches=s.fetches := by
  unfold next step
  dsimp only
  split <;> rfl

/-- The end of a download is an exception that changes no keys, or the fetch of
the call that waited for it. -/
theorem settle_cases (s : KeyService) (index : ℕ) (download : Except String Json) (now : ℚ) :
    (∃ waiting, next construct s (.settle index download now)=
        {s with pending := waiting, clock := now} ∧ (∀ call∈waiting, call∈s.pending) ∧
      ∀ answer, (step construct s (.settle index download now)).2=some answer→
        ¬Reports answer.outcome) ∨
    ∃ call∈s.pending, ∃ document keys, documentKeys document=.ok keys ∧
      step construct s (.settle index download now)=
        ({s with
          cache := {s.cache with keys := keys, fetchedAt := now}
          pending := s.pending.eraseIdx index
          fetches := s.fetches++[⟨document,now⟩]
          clock := now},
          some ⟨call.kid,call.tested,now,answerFrom construct keys call.kid⟩) := by
  have herased : ∀ call∈s.pending.eraseIdx index, call∈s.pending := fun _ h =>
    List.mem_of_mem_eraseIdx h
  unfold next
  cases hcall : s.pending[index]? with
  | none =>
    refine .inl ⟨s.pending,by rw [step,hcall],fun _ h => h,fun answer h => ?_⟩
    rw [step,hcall] at h
    cases h
  | some call =>
    cases download with
    | error text =>
      refine .inl ⟨_,by rw [step,hcall],herased,fun answer h => ?_⟩
      rw [step,hcall] at h
      cases h
      exact not_false
    | ok document =>
      cases hkeys : documentKeys document with
      | error e =>
        refine .inl ⟨_,by simp only [step,hcall,hkeys],herased,fun answer h => ?_⟩
        simp only [step,hcall,hkeys] at h
        cases h
        exact not_false
      | ok keys =>
        exact .inr ⟨call,List.mem_of_getElem? hcall,document,keys,hkeys,
          by simp only [step,hcall,hkeys]⟩

variable {construct} {ttl : ℚ} {s : KeyService}

/-- An action keeps the record. -/
theorem recorded_next {a : KeyAction} (hs : Recorded ttl s) (hclock : Onward s a) :
    Recorded ttl (next construct s a) := by
  have hcompleted : ∀ fetch∈s.fetches, fetch.completed≤a.now := fun fetch hf =>
    (hs.completed fetch hf).trans hclock
  have htested : ∀ call∈s.pending, call.tested≤a.now := fun call hc =>
    (hs.tested call hc).trans hclock
  cases a with
  | ask kid now =>
    unfold next step
    dsimp only
    split
    · refine ⟨hs.lifetime,hs.unfetched,hs.fetched,hcompleted,fun call hc => ?_⟩
      rcases List.mem_append.mp hc with hc | hc
      · exact htested call hc
      · exact (congrArg PendingKey.tested (List.mem_singleton.mp hc)).le
    · exact ⟨hs.lifetime,hs.unfetched,hs.fetched,hcompleted,htested⟩
  | settle index download now =>
    rcases settle_cases construct s index download now with
      ⟨waiting,hnext,hwaiting,-⟩ | ⟨call,hcall,document,keys,hkeys,hstep⟩
    · rw [hnext]
      exact ⟨hs.lifetime,hs.unfetched,hs.fetched,hcompleted,
        fun call hc => htested call (hwaiting call hc)⟩
    · rw [next,hstep]
      refine ⟨hs.lifetime,fun h => ?_,fun _ => ?_,fun fetch hf => ?_,fun call hc => ?_⟩
      · exact absurd h (List.append_ne_nil_of_right_ne_nil _ (List.cons_ne_nil _ _))
      · exact ⟨_,List.mem_append_right _ List.mem_cons_self,hkeys,rfl⟩
      · rcases List.mem_append.mp hf with hf | hf
        · exact hcompleted fetch hf
        · exact (congrArg JwksFetch.completed (List.mem_singleton.mp hf)).le
      · exact htested call (List.mem_of_mem_eraseIdx hc)

/-- The fetch of a call grounds what it reports. -/
theorem answered_settle {index : ℕ} {download : Except String Json} {now : ℚ}
    (hs : Recorded ttl s) (hclock : Onward s (.settle index download now)) :
    Answered construct ttl s (.settle index download now) := by
  intro answer hanswer hreports
  rcases settle_cases construct s index download now with
    ⟨waiting,-,-,hsilent⟩ | ⟨call,hcall,document,keys,hkeys,hstep⟩
  · exact absurd hreports (hsilent answer hanswer)
  · rw [hstep] at hanswer
    cases hanswer
    rw [next,hstep]
    have htested : call.tested≤now := (hs.tested call hcall).trans hclock
    exact ⟨⟨document,now⟩,List.mem_append_right _ List.mem_cons_self,keys,hkeys,rfl,
      .inr ⟨htested,le_refl now⟩⟩

/-- Without a fetch, nothing that is reported is grounded. -/
theorem not_answered_unfetched {kid : Option String} {now : ℚ} (hnone : s.fetches=[])
    (hkeys : s.cache.keys=Dict.empty) (hneeds : ¬s.cache.needsFetch kid now=true)
    (hunnamed : ¬∃ name, name≠"" ∧ kid=some name) :
    ¬Answered construct ttl s (.ask kid now) := by
  have hkid : kid.filter (fun kid => kid≠"")=none := by
    refine Option.filter_eq_none_iff.mpr fun name hname h => ?_
    exact hunnamed ⟨name,of_decide_eq_true h,hname⟩
  have hstep : step construct s (.ask kid now)=({s with clock := now},
      some ⟨kid,now,now,.keys []⟩) := by
    rw [step,if_neg hneeds,hkeys,answerFrom_empty construct hkid]
  intro h
  obtain ⟨fetch,hmem,-⟩ := h _ (congrArg Prod.snd hstep) trivial
  rw [next,hstep] at hmem
  exact absurd (hnone ▸ hmem) List.not_mem_nil

/-- A call that tests the freshness reports something grounded exactly when a
fetch has completed, or it fetches for one of two reasons. -/
theorem answered_ask_iff {kid : Option String} {now : ℚ} (hs : Recorded ttl s)
    (hclock : Onward s (.ask kid now)) :
    Answered construct ttl s (.ask kid now) ↔ Based ttl s (.ask kid now) := by
  by_cases hneeds : s.cache.needsFetch kid now=true
  · have hstep : (step construct s (.ask kid now)).2=none := by
      rw [step,if_pos hneeds]
    refine iff_of_true (fun answer h => ?_) (fun hnone => ?_)
    · cases hstep.symm.trans h
    · obtain ⟨hkeys,hzero⟩ := hs.unfetched hnone
      rcases (needsFetch_iff _ _ _).mp hneeds with hold | ⟨name,hname,hkid,-⟩
      · rw [hs.lifetime,hzero,sub_zero] at hold
        exact .inr hold
      · exact .inl ⟨name,hname,hkid⟩
  · have hstep : step construct s (.ask kid now)=({s with clock := now},
        some ⟨kid,now,now,answerFrom construct s.cache.keys kid⟩) := by
      rw [step,if_neg hneeds]
    obtain ⟨hyoung,hknown⟩ := not_or.mp (fun h => hneeds ((needsFetch_iff _ _ _).mpr h))
    rw [hs.lifetime,not_lt] at hyoung
    by_cases hnone : s.fetches=[]
    · obtain ⟨hkeys,hzero⟩ := hs.unfetched hnone
      rw [hzero,sub_zero] at hyoung
      have hunnamed : ¬∃ name, name≠"" ∧ kid=some name := by
        rintro ⟨name,hname,hkid⟩
        refine hknown ⟨name,hname,hkid,?_⟩
        rw [hkeys]
        rfl
      exact iff_of_false (not_answered_unfetched hnone hkeys hneeds hunnamed)
        fun h => (h hnone).elim hunnamed (not_lt.mpr hyoung)
    · obtain ⟨fetch,hmem,hdocument,hat⟩ := hs.fetched hnone
      refine iff_of_true (fun answer h _ => ?_) (fun h => absurd h hnone)
      rw [hstep] at h
      cases h
      rw [next,hstep]
      rw [hat] at hyoung
      have hpast : fetch.completed≤now := (hs.completed fetch hmem).trans hclock
      exact ⟨fetch,hmem,s.cache.keys,hdocument,rfl,.inl ⟨hpast,by linarith⟩⟩

/-- Everything that a run on a clock that does not go back reports is grounded
in a fetched document exactly when each call without a key identifier starts
behind the first fetch or at a reading past the lifetime. -/
theorem answers_grounded_iff (construct : Construct κ) (ttl start : ℚ) {actions : List KeyAction}
    (hclock : Meets (next construct) Onward (fresh ttl start) actions) :
    Meets (next construct) (Answered construct ttl) (fresh ttl start) actions ↔
      Meets (next construct) (Based ttl) (fresh ttl start) actions := by
  refine meets_iff_of_meets (fun s a hs ha => recorded_next hs ha) (fun s a hs ha => ?_)
    (recorded_fresh ttl start) hclock
  cases a with
  | ask kid now => exact answered_ask_iff hs ha
  | settle index download now => exact iff_of_true (answered_settle hs ha) trivial

end Steps

/-- A document with one key. -/
def oneKey : Json := .obj [("keys",.arr [.obj [("kid",.str "a"),("kty",.str "RSA")]])]

/-- Keys as they are in the document. -/
def plainConstruct : Construct Json := Except.ok

theorem answers_grounded_after_fetch :
    Meets (next plainConstruct) (Answered plainConstruct 300) (fresh 300 1000)
      [.ask none 1000,.settle 0 (.ok oneKey) 1001,.ask (some "a") 1100,.ask none 1200] := by
  have hstart : next plainConstruct (fresh 300 1000) (.ask none 1000)=
      {fresh 300 1000 with pending := [⟨none,1000⟩]} := by
    have hold : (fresh 300 1000).cache.needsFetch none 1000=true := by decide +kernel
    rw [next,step,if_pos hold]
    rfl
  have hfetched : (next plainConstruct {fresh 300 1000 with pending := [⟨none,1000⟩]}
      (.settle 0 (.ok oneKey) 1001)).fetches=[⟨oneKey,1001⟩] := rfl
  refine (answers_grounded_iff plainConstruct 300 1000 ?_).mpr ?_
  · simp only [Meets,Onward,next_clock,KeyAction.now,fresh]
    norm_num
  · have hlate : (300:ℚ)<1000 := by norm_num
    have hsome : [JwksFetch.mk oneKey 1001]≠[] := List.cons_ne_nil _ _
    rw [Meets,Meets,hstart]
    refine ⟨fun _ => .inr hlate,trivial,fun h => ?_,fun h => ?_,trivial⟩
    · exact absurd (hfetched.symm.trans h) hsome
    · rw [fetches_ask,hfetched] at h
      exact absurd h hsome

/-- How the decoding of a token with one key fails. -/
inductive DecodeError where
  /-- `JWTError`. -/
  | jwt (text : String)
  /-- Any other exception. -/
  | other (text : String)

/-- How the validation of a token with keys ends. -/
inductive TokenOutcome (π : Type) where
  /-- The payload is returned. -/
  | accepted (payload : π)
  /-- `OIDCError`. -/
  | rejected (text : String)
  /-- Any other exception. -/
  | crashed (text : String)

/-- `validate` behind `get_key`: the first key that decodes the token decides. -/
def tryKeys {κ π : Type} (decode : κ→Except DecodeError π) : Option String→List κ→TokenOutcome π
  | last,[] => .rejected ("token validation failed: "++last.getD "None")
  | _,key::keys =>
    match decode key with
    | .ok payload => .accepted payload
    | .error (.jwt text) => tryKeys decode (some text) keys
    | .error (.other text) => .crashed text

theorem unfetched_keys_answered :
    (step plainConstruct (fresh 300 10) (.ask none 10)).2=some ⟨none,10,10,.keys []⟩ ∧
    (∀ decode : Json→Except DecodeError Json,
      tryKeys decode none []=.rejected "token validation failed: None") ∧
    Meets (next plainConstruct) Onward (fresh 300 10) [.ask none 10] ∧
    ¬Meets (next plainConstruct) (Answered plainConstruct 300) (fresh 300 10) [.ask none 10] := by
  have hanswer : (step plainConstruct (fresh 300 10) (.ask none 10)).2=
      some ⟨none,10,10,.keys []⟩ := by
    have hyoung : ¬(fresh 300 10).cache.needsFetch none 10=true := by decide +kernel
    rw [step,if_neg hyoung]
    rfl
  refine ⟨hanswer,fun _ => rfl,⟨le_refl (10:ℚ),trivial⟩,fun h => ?_⟩
  obtain ⟨fetch,hmem,-⟩ := h.1 _ hanswer trivial
  have hyoung : ¬(fresh 300 10).cache.needsFetch none 10=true := by decide +kernel
  rw [next,step,if_neg hyoung] at hmem
  exact absurd hmem List.not_mem_nil

end McpGateway.JwksCache
