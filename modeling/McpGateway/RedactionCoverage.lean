import Mathlib
import McpGateway.PyText
import McpGateway.JsonValue
import McpGateway.GatewaySettings
import McpGateway.RegexMatch
import McpGateway.RegexLanguage
import McpGateway.RegexScan
import McpGateway.PyRuntime
import McpGateway.PiiRedactor
import McpGateway.Guardrails
import McpGateway.GuardrailDecision
import McpGateway.GuardedRedaction
import McpGateway.WalkAgreement
import McpGateway.FallbackPatterns

/-!
# What redaction leaves

The fallback passes run one after the other in policy order. Only the first
email pass can expose a match of another pattern, where an address touches it,
which a later pass of that pattern, or a phone pass anywhere, takes away. Keys
are never redacted.
-/

namespace McpGateway.RedactionCoverage

open PyText JsonValue GatewaySettings RegexMatch RegexLanguage RegexScan PyRuntime PiiRedactor
open Guardrails GuardrailDecision GuardedRedaction WalkAgreement FallbackPatterns

mutual

/-- The object keys of a value, at any depth. -/
def keys : Json→List String
  | .arr items => keysItems items
  | .obj fields => keysFields fields
  | _ => []

/-- Those of list elements. -/
def keysItems : List Json→List String
  | [] => []
  | v::vs => keys v++keysItems vs

/-- Those of members, each with its own. -/
def keysFields : List (String×Json)→List String
  | [] => []
  | (k,v)::vs => k::(keys v++keysFields vs)

end

/-- No fallback pattern of a configured entity matches in the text. -/
def CleanText (rt : Runtime) (entities : List String) (text : String) : Prop :=
  ∀ entity∈entities, ∀ p, fallbackPattern rt entity=some p→
    contains rt.isWord p text.toList=false

/-- Nor in any string of the value, keys included. -/
structure Clean (rt : Runtime) (entities : List String) (v : Json) : Prop where
  /-- List elements, object values and the value itself. -/
  strings : ∀ s∈iterStrings v, CleanText rt entities s
  /-- Object keys. -/
  keys : ∀ k∈keys v, CleanText rt entities k

/-- The entities with bounded patterns. -/
def boundedNames : List String := ["CREDIT_CARD","US_SSN","IP_ADDRESS"]

/-- Entities before the first email entity. -/
def beforeEmail (entities : List String) : List String :=
  entities.takeWhile (fun e => decide (e≠"EMAIL_ADDRESS"))

/-- Entities from the first email entity on. -/
def fromEmail (entities : List String) : List String :=
  entities.dropWhile (fun e => decide (e≠"EMAIL_ADDRESS"))

/-- What an email pass exposes of the entity is taken away. -/
def Covered (entities : List String) (entity : String) : Prop :=
  "EMAIL_ADDRESS"∉entities ∨ entity∈fromEmail entities ∨
    entity≠"IP_ADDRESS" ∧ "PHONE_NUMBER"∈entities

/-- That of every configured entity with a bounded pattern. -/
def Covering (entities : List String) : Prop :=
  ∀ entity∈boundedNames, entity∈entities→ Covered entities entity

/-- The passes of a policy. -/
def passes (rt : Runtime) (entities : List String) (text : List Char) : List Char :=
  entities.foldl (fun t entity => passText rt entity t) text

/-- In the text that the first email pass is given, no address touches a number
of a configured entity that is not covered. -/
def Separated (rt : Runtime) (entities : List String) (text : List Char) : Prop :=
  ∀ entity∈boundedNames, entity∈entities→¬Covered entities entity→
    ∀ p, fallbackPattern rt entity=some p→¬Touching rt p (passes rt (beforeEmail entities) text)

/-- That of every string of the value that is not empty, once the analyzer is
through. -/
def SeparatedStrings (rt : Runtime) (r : Redactor) (v : Json) : Prop :=
  ∀ s∈iterStrings v, s≠""→Separated rt r.policy.entities (r.analyzerPass rt s).1.toList

/-- No fallback pass comes behind the email passes. -/
def EmailLast (rt : Runtime) (entities : List String) : Prop :=
  ∀ entity∈fromEmail entities, entity≠"EMAIL_ADDRESS"→fallbackPattern rt entity=none

section passes

variable {rt : Runtime}

/-- The first pass before the others. -/
theorem passes_cons (entity : String) (rest : List String) (text : List Char) :
    passes rt (entity::rest) text=passes rt rest (passText rt entity text) := rfl

/-- Passes of one list after those of another. -/
theorem passes_append (first second : List String) (text : List Char) :
    passes rt (first++second) text=passes rt second (passes rt first text) := List.foldl_append

/-- Passes over a text that none of them matches do nothing. -/
theorem passes_idle {entities : List String} {text : List Char}
    (h : ∀ entity∈entities, ∀ p, fallbackPattern rt entity=some p→
      contains rt.isWord p text=false) : passes rt entities text=text := by
  induction entities with
  | nil => rfl
  | cons entity rest ih =>
    obtain ⟨hhead,htail⟩ := List.forall_mem_cons.mp h
    rw [passes_cons]
    cases hp : fallbackPattern rt entity with
    | none =>
      have hsame : passText rt entity text=text := by rw [passText,hp]
      rw [hsame]
      exact ih htail
    | some p =>
      rw [pass_idle hp (hhead p hp)]
      exact ih htail

/-- Passes expose no match, unless an email pass is among them and the pattern
is bounded. -/
theorem passes_keep (ht : PythonTables rt) (entities : List String) {other : String} {f : Regex}
    (hf : fallbackPattern rt other=some f) (hsafe : Bounded rt f→"EMAIL_ADDRESS"∉entities)
    {text : List Char} (hclean : contains rt.isWord f text=false) :
    contains rt.isWord f (passes rt entities text)=false := by
  induction entities generalizing text with
  | nil => exact hclean
  | cons entity rest ih =>
    have hrest : Bounded rt f→"EMAIL_ADDRESS"∉rest := fun hb =>
      List.not_mem_of_not_mem_cons (hsafe hb)
    rw [passes_cons]
    refine ih hrest ?_
    cases he : fallbackPattern rt entity with
    | none =>
      rw [passText,he]
      exact hclean
    | some e =>
      refine pass_keeps ht he hf (fun hb hname => ?_) hclean
      exact absurd (hname ▸ List.mem_cons_self) (hsafe hb)

/-- Without email addresses no pass exposes anything. -/
theorem passes_keep_clean (ht : PythonTables rt) (entities : List String) {other : String}
    {f : Regex} (hf : fallbackPattern rt other=some f) {text : List Char}
    (hemail : contains rt.isWord emailAddress text=false)
    (hclean : contains rt.isWord f text=false) :
    contains rt.isWord f (passes rt entities text)=false := by
  induction entities generalizing text with
  | nil => exact hclean
  | cons entity rest ih =>
    by_cases hname : entity="EMAIL_ADDRESS"
    · have hidle : passText rt entity text=text := by
        rw [hname]
        exact pass_idle rfl hemail
      rw [passes_cons,hidle]
      exact ih hemail hclean
    · have hsafe : ∀ {g : Regex}, Bounded rt g→"EMAIL_ADDRESS"∉[entity] := fun _ h =>
        hname (List.mem_singleton.mp h).symm
      have hemail' := passes_keep ht [entity] fallback_email hsafe hemail
      have hclean' := passes_keep ht [entity] hf hsafe hclean
      exact ih hemail' hclean'

/-- A pass of a pattern without boundaries among others leaves none of its
matches. -/
theorem passes_clean_unbounded (ht : PythonTables rt) {entities : List String} {entity : String}
    (he : entity∈entities) {p : Regex} (hp : fallbackPattern rt entity=some p)
    (hfree : ¬Bounded rt p) (text : List Char) :
    contains rt.isWord p (passes rt entities text)=false := by
  obtain ⟨before,after,rfl⟩ := List.append_of_mem he
  rw [passes_append,passes_cons]
  exact passes_keep ht _ hp (fun hb => absurd hb hfree) (pass_own ht hp _)

/-- The entities with bounded patterns have such. -/
theorem bounded_of_name {entity : String} (h : entity∈boundedNames) {p : Regex}
    (hp : fallbackPattern rt entity=some p) : Bounded rt p := by
  rcases fallback_cases hp with ⟨rfl,-⟩ | ⟨rfl,-⟩ | ⟨-,rfl⟩ | ⟨-,rfl⟩ | ⟨-,rfl⟩
  · exact absurd h (by decide)
  · exact absurd h (by decide)
  · exact .inl rfl
  · exact .inr (.inl rfl)
  · exact .inr (.inr rfl)

/-- The email pattern and the phone pattern have no boundaries. -/
theorem not_bounded {p : Regex} (hp : hasBoundary p=false) : ¬Bounded rt p := by
  have hbounded : Bounded rt p→hasBoundary p=true := by
    rintro (rfl | rfl | rfl) <;> rfl
  intro hb
  exact absurd ((hbounded hb).symm.trans hp) (Bool.noConfusion)

/-- A configured email entity stands behind the entities before it. -/
theorem fromEmail_split {entities : List String} (h : "EMAIL_ADDRESS"∈entities) :
    ∃ after, entities=beforeEmail entities++"EMAIL_ADDRESS"::after ∧
      "EMAIL_ADDRESS"∉beforeEmail entities ∧ fromEmail entities="EMAIL_ADDRESS"::after := by
  have hsplit : beforeEmail entities++fromEmail entities=entities :=
    List.takeWhile_append_dropWhile
  have hbefore : "EMAIL_ADDRESS"∉beforeEmail entities := by
    intro hmem
    have hkept := List.mem_takeWhile_imp hmem
    exact of_decide_eq_true hkept rfl
  cases hfrom : fromEmail entities with
  | nil =>
    have hall := List.dropWhile_eq_nil_iff.mp hfrom _ h
    exact absurd rfl (of_decide_eq_true hall)
  | cons first rest =>
    have hhead := List.head?_dropWhile_not (fun e => decide (e≠"EMAIL_ADDRESS")) entities
    rw [fromEmail] at hfrom
    rw [hfrom] at hhead
    have hstop : decide (first≠"EMAIL_ADDRESS")=false := hhead
    have hfirst : first="EMAIL_ADDRESS" := not_not.mp (of_decide_eq_false hstop)
    rw [fromEmail,hfrom,hfirst] at hsplit
    exact ⟨rest,hsplit.symm,hbefore,by rw [hfirst]⟩

/-- The configured entities from the first email entity on. -/
theorem mem_fromEmail {entities : List String} {entity : String} (hname : entity≠"EMAIL_ADDRESS")
    (h : entity∈fromEmail entities) :
    ∃ before between after, entities=before++"EMAIL_ADDRESS"::(between++entity::after) := by
  have hemail : "EMAIL_ADDRESS"∈entities := by
    by_contra hnone
    have hnil : fromEmail entities=[] := by
      refine List.dropWhile_eq_nil_iff.mpr fun e he => decide_eq_true ?_
      rintro rfl
      exact hnone he
    rw [hnil] at h
    exact absurd h List.not_mem_nil
  obtain ⟨rest,hsplit,-,hfrom⟩ := fromEmail_split hemail
  rw [hfrom] at h
  rcases List.mem_cons.mp h with hsame | h
  · exact absurd hsame hname
  · obtain ⟨between,after,rfl⟩ := List.append_of_mem h
    exact ⟨beforeEmail entities,between,after,hsplit⟩

/-- Passes leave no match of a covered entity. -/
theorem passes_clean_covered (ht : PythonTables rt) {entities : List String} {entity : String}
    (hlisted : entity∈boundedNames) (he : entity∈entities) (hc : Covered entities entity)
    {p : Regex} (hp : fallbackPattern rt entity=some p) (text : List Char) :
    contains rt.isWord p (passes rt entities text)=false := by
  have hname : entity≠"EMAIL_ADDRESS" := by
    rintro rfl
    exact absurd hlisted (by decide)
  rcases hc with hnone | hlater | ⟨hip,hphone⟩
  · obtain ⟨before,after,rfl⟩ := List.append_of_mem he
    rw [passes_append,passes_cons]
    refine passes_keep ht _ hp (fun _ h => ?_) (pass_own ht hp _)
    exact hnone (List.mem_append_right _ (List.mem_cons_of_mem _ h))
  · obtain ⟨before,between,after,rfl⟩ := mem_fromEmail hname hlater
    have hfree : Bounded rt emailAddress→"EMAIL_ADDRESS"∉between++[entity] :=
      fun hb => absurd hb (not_bounded rfl)
    have hemail := passes_keep ht (between++[entity]) fallback_email hfree
      (pass_own ht fallback_email (passes rt before text))
    have hown := pass_own ht hp (passes rt between
      (passText rt "EMAIL_ADDRESS" (passes rt before text)))
    rw [passes_append] at hemail
    rw [passes_append,passes_cons,passes_append,passes_cons]
    exact passes_keep_clean ht after hp hemail hown
  · have hclean := passes_clean_unbounded ht hphone (p:=phoneNumber rt) rfl (not_bounded rfl) text
    refine clean_of_phone ht ?_ hclean
    rcases fallback_cases hp with ⟨rfl,-⟩ | ⟨rfl,-⟩ | ⟨-,rfl⟩ | ⟨-,rfl⟩ | ⟨rfl,-⟩
    · exact absurd rfl hname
    · exact absurd hlisted (by decide)
    · exact .inl rfl
    · exact .inr rfl
    · exact absurd rfl hip

/-- Nor of an entity whose numbers touch no address. -/
theorem passes_clean_apart (ht : PythonTables rt) {entities : List String} {entity : String}
    (he : entity∈entities) (hc : ¬Covered entities entity) {p : Regex}
    (hp : fallbackPattern rt entity=some p) {text : List Char}
    (hapart : ¬Touching rt p (passes rt (beforeEmail entities) text)) :
    contains rt.isWord p (passes rt entities text)=false := by
  have hemail : "EMAIL_ADDRESS"∈entities := not_not.mp fun hno => hc (.inl hno)
  have hlater : entity∉fromEmail entities := fun hyes => hc (.inr (.inl hyes))
  obtain ⟨after,hsplit,hbefore,hfrom⟩ := fromEmail_split hemail
  rw [hfrom] at hlater
  rw [hsplit] at he
  have hfirst : entity∈beforeEmail entities := (List.mem_append.mp he).resolve_right hlater
  have hclean : contains rt.isWord p (passes rt (beforeEmail entities) text)=false := by
    obtain ⟨earlier,between,hin⟩ := List.append_of_mem hfirst
    rw [hin] at hbefore ⊢
    rw [passes_append,passes_cons]
    refine passes_keep ht _ hp (fun _ h => ?_) (pass_own ht hp _)
    exact hbefore (List.mem_append_right _ (List.mem_cons_of_mem _ h))
  have hkept := pass_keeps ht fallback_email hp (fun _ _ => hapart) hclean
  have hwhole : passes rt entities text=passes rt after
      (passText rt "EMAIL_ADDRESS" (passes rt (beforeEmail entities) text)) := by
    rw [←passes_cons,←passes_append,←hsplit]
  rw [hwhole]
  exact passes_keep_clean ht after hp (pass_own ht fallback_email _) hkept

/-- Passes over a separated text leave no match of a configured entity. -/
theorem passes_clean (ht : PythonTables rt) {entities : List String} {text : List Char}
    (hs : Separated rt entities text) {entity : String} (he : entity∈entities) {p : Regex}
    (hp : fallbackPattern rt entity=some p) :
    contains rt.isWord p (passes rt entities text)=false := by
  have hbounded : entity∈boundedNames→
      contains rt.isWord p (passes rt entities text)=false := by
    intro hlisted
    by_cases hc : Covered entities entity
    · exact passes_clean_covered ht hlisted he hc hp text
    · exact passes_clean_apart ht he hc hp (hs entity hlisted he hc p hp)
  rcases fallback_cases hp with ⟨-,rfl⟩ | ⟨-,rfl⟩ | ⟨rfl,rfl⟩ | ⟨rfl,rfl⟩ | ⟨rfl,rfl⟩
  · exact passes_clean_unbounded ht he hp (not_bounded rfl) text
  · exact passes_clean_unbounded ht he hp (not_bounded rfl) text
  · exact hbounded (by decide)
  · exact hbounded (by decide)
  · exact hbounded (by decide)

/-- The passes up to the first email pass are all when no other comes behind. -/
theorem passes_emailLast (ht : PythonTables rt) {entities : List String}
    (hlast : EmailLast rt entities) (hemail : "EMAIL_ADDRESS"∈entities) (text : List Char) :
    passes rt entities text=
      passText rt "EMAIL_ADDRESS" (passes rt (beforeEmail entities) text) := by
  obtain ⟨after,hsplit,-,hfrom⟩ := fromEmail_split hemail
  have hwhole : passes rt entities text=passes rt after
      (passText rt "EMAIL_ADDRESS" (passes rt (beforeEmail entities) text)) := by
    rw [←passes_cons,←passes_append,←hsplit]
  rw [hwhole]
  refine passes_idle fun other hother p hp => ?_
  have hmem : other∈fromEmail entities := hfrom ▸ List.mem_cons_of_mem _ hother
  by_cases hname : other="EMAIL_ADDRESS"
  · subst hname
    rw [fallback_email] at hp
    cases hp
    exact pass_own ht fallback_email _
  · rw [hlast other hmem hname] at hp
    cases hp

/-- When no other pass comes behind the email passes, they leave a clean text
exactly of a separated one. -/
theorem passes_clean_iff (ht : PythonTables rt) {entities : List String}
    (hlast : EmailLast rt entities) (text : List Char) :
    (∀ entity∈entities, ∀ p, fallbackPattern rt entity=some p→
      contains rt.isWord p (passes rt entities text)=false) ↔ Separated rt entities text := by
  refine ⟨fun hclean entity hlisted he hc p hp htouch => ?_,fun hs entity he p hp =>
    passes_clean ht hs he hp⟩
  have hemail : "EMAIL_ADDRESS"∈entities := not_not.mp fun hno => hc (.inl hno)
  have hfound := (touching_iff ht (bounded_of_name hlisted hp) _).mp htouch
  have hnone := hclean entity he p hp
  rw [passes_emailLast ht hlast hemail,hfound] at hnone
  cases hnone

/-- With covering entities every text is separated. -/
theorem Covering.separated {entities : List String} (h : Covering entities) (text : List Char) :
    Separated rt entities text := fun entity hlisted he hc => absurd (h entity hlisted he) hc

/-- The default template formats to the inserted text. -/
theorem replace_default {r : Redactor}
    (hd : r.policy.replacement="<REDACTED:\x7bentity\x7d>") (entity : String) :
    r.replace rt entity=.ok ("<REDACTED:"++entity++">") := by
  have htemplate : "<REDACTED:\x7bentity\x7d>".toList=['<','R','E','D','A','C','T','E','D',':',
    '\x7b','e','n','t','i','t','y','\x7d','>'] := rfl
  have hformat : formatTemplate rt entity "<REDACTED:\x7bentity\x7d>".toList=
      .ok ("<REDACTED:"++entity++">").toList := by
    rw [htemplate]
    simp [formatTemplate,Except.map]
  rw [Redactor.replace,hd,hformat]
  exact congrArg Except.ok String.ofList_toList

/-- The pattern pass of the default template makes the passes. -/
theorem patternPass_passes {r : Redactor}
    (hd : r.policy.replacement="<REDACTED:\x7bentity\x7d>") (entities : List String)
    (acc : String×Bool) : ∃ out flag, r.patternPass rt entities acc=.ok (out,flag) ∧
      out.toList=passes rt entities acc.1.toList := by
  induction entities generalizing acc with
  | nil => exact ⟨acc.1,acc.2,rfl,rfl⟩
  | cons entity rest ih =>
    rw [Redactor.patternPass,passes_cons,passText]
    cases hp : fallbackPattern rt entity with
    | none => exact ih acc
    | some p =>
      have hliteral : '\\' ∉("<REDACTED:"++entity++">").toList := mask_literal (fallback_name hp)
      have hsubn : subnText rt p ("<REDACTED:"++entity++">") acc.1=
          .ok (String.ofList (subn rt.isWord p (fun _ => mask entity) acc.1.toList).1,
            (subn rt.isWord p (fun _ => mask entity) acc.1.toList).2) := by
        rw [subnText]
        exact if_neg hliteral
      rw [replace_default hd]
      dsimp only
      rw [hsubn]
      dsimp only
      split
      · rename_i hzero
        have hsame : (subn rt.isWord p (fun _ => mask entity) acc.1.toList).1=acc.1.toList :=
          substitute_zero hzero
        rw [hsame]
        exact ih acc
      · obtain ⟨out,flag,hpass,hout⟩ := ih
          (String.ofList (subn rt.isWord p (fun _ => mask entity) acc.1.toList).1,true)
        rw [String.toList_ofList] at hout
        exact ⟨out,flag,hpass,hout⟩

/-- Nothing matches in the empty text. -/
theorem clean_empty (entities : List String) : CleanText rt entities "" := by
  intro entity _ p hp
  have hboth := fallback_consumes hp
  refine (found_false_iff none _).mpr fun front rest hsplit => ?_
  obtain ⟨-,rfl⟩ := List.append_eq_nil_iff.mp hsplit.symm
  refine (matchAt_none_iff hboth.1 _).mpr fun s t hrest hm => ?_
  exact ne_nil_of_consumes hboth.2 hm (List.append_eq_nil_iff.mp hrest.symm).1

/-- The text that redaction makes of a string. -/
def redactedText (rt : Runtime) (r : Redactor) (text : String) : String :=
  if text="" then ""
  else String.ofList (passes rt r.policy.entities (r.analyzerPass rt text).1.toList)

/-- With the default template a string is redacted to that text. -/
theorem redactString_text {r : Redactor} (hd : r.policy.replacement="<REDACTED:\x7bentity\x7d>")
    (he : r.policy.enabled=true) (text : String) :
    ∃ flag, r.redactString rt text=.ok (redactedText rt r text,flag) := by
  unfold Redactor.redactString redactedText
  by_cases hempty : text=""
  · rw [if_pos (.inl hempty),if_pos hempty,hempty]
    exact ⟨false,rfl⟩
  · rw [if_neg (by rw [he]; simp [hempty]),if_neg hempty]
    obtain ⟨out,flag,hpass,hout⟩ := patternPass_passes hd r.policy.entities
      (r.analyzerPass rt text)
    rw [hpass,←hout,String.ofList_toList]
    exact ⟨flag,rfl⟩

/-- That text is clean when the string is separated. -/
theorem redactedText_clean (ht : PythonTables rt) {r : Redactor} {text : String}
    (hs : text≠""→Separated rt r.policy.entities (r.analyzerPass rt text).1.toList) :
    CleanText rt r.policy.entities (redactedText rt r text) := by
  unfold redactedText
  split
  · exact clean_empty _
  · rename_i hne
    intro entity he p hp
    rw [String.toList_ofList]
    exact passes_clean ht (hs hne) he hp

/-- And only then, when no other pass comes behind the email passes. -/
theorem redactedText_clean_iff (ht : PythonTables rt) {r : Redactor}
    (hlast : EmailLast rt r.policy.entities) (text : String) :
    CleanText rt r.policy.entities (redactedText rt r text) ↔
      (text≠""→Separated rt r.policy.entities (r.analyzerPass rt text).1.toList) := by
  refine ⟨fun hclean hne => (passes_clean_iff ht hlast _).mp fun entity he p hp => ?_,
    redactedText_clean ht⟩
  have hnone := hclean entity he p hp
  rwa [redactedText,if_neg hne,String.toList_ofList] at hnone

end passes

/-- Keys belong to the outline of a value. -/
theorem keys_outline (v : Json) : keys (outline v)=keys v := by
  induction v using Json.induction with
  | null => rfl
  | bool b => rfl
  | int n => rfl
  | float x => rfl
  | str s => rfl
  | arr items ih =>
    rw [outline,keys,keys]
    induction items with
    | nil => rfl
    | cons v vs ihs =>
      obtain ⟨hhead,htail⟩ := List.forall_mem_cons.mp ih
      rw [outlineItems,keysItems,keysItems,hhead,ihs htail]
  | obj fields ih =>
    rw [outline,keys,keys]
    induction fields with
    | nil => rfl
    | cons m ms ihs =>
      obtain ⟨hhead,htail⟩ := List.forall_mem_cons.mp ih
      rw [outlineFields,keysFields,keysFields,hhead,ihs htail]

section exposure

/-- ASCII characters. -/
def Ascii (x : Char) : Prop := x.toNat<128

/-- A number that an email address may touch. -/
def number (entity : String) : String :=
  if entity="CREDIT_CARD" then "1234567890123"
  else if entity="US_SSN" then "123-45-6789"
  else "1.1.1.1"

/-- An email address that touches it. -/
def touching (entity : String) : List Char := ("a@b.co"++number entity).toList

/-- Its replacement, which does not. -/
def exposed (entity : String) : List Char := mask "EMAIL_ADDRESS"++(number entity).toList

/-- Whether the pattern of an entity matches in an ASCII text. -/
def asciiContains (entity : String) (text : List Char) : Bool :=
  match fallbackPattern asciiRuntime entity with
  | none => false
  | some p => contains asciiRuntime.isWord p text

variable {rt : Runtime}

/-- On ASCII characters a pattern is that of the ASCII tables. -/
theorem fallback_alike (ht : PythonTables rt) {entity : String} {p : Regex}
    (hp : fallbackPattern rt entity=some p) :
    ∃ p', fallbackPattern asciiRuntime entity=some p' ∧ proper p=true ∧ proper p'=true ∧
      Alike Ascii p p' := by
  have hdigit : ∀ x, Ascii x→ rt.isDecimal x=asciiRuntime.isDecimal x := ht.ascii_decimal
  have hclass : ∀ extra : List Char, ∀ x, Ascii x→
      (rt.isDecimal x || decide (x∈extra))=(asciiRuntime.isDecimal x || decide (x∈extra)) :=
    fun extra x hx => by rw [hdigit x hx]
  have hsame : ∀ accepts : Char→Bool, ∀ x, Ascii x→accepts x=accepts x := fun _ _ _ => rfl
  have hoctet : Alike Ascii (.rep 1 (some 3) true (.one rt.isDecimal))
      (.rep 1 (some 3) true (.one asciiRuntime.isDecimal)) := ⟨rfl,rfl,rfl,hdigit⟩
  have hphone : Alike Ascii (phoneNumber rt) (phoneNumber asciiRuntime) :=
    ⟨⟨rfl,rfl,rfl,hsame _⟩,hdigit,⟨rfl,rfl,rfl,hclass _⟩,hdigit⟩
  have hcard : Alike Ascii (creditCard rt) (creditCard asciiRuntime) :=
    ⟨trivial,⟨rfl,rfl,rfl,hdigit,rfl,rfl,rfl,hsame _⟩,trivial⟩
  have hssn : Alike Ascii (usSsn rt) (usSsn asciiRuntime) :=
    ⟨trivial,⟨rfl,rfl,rfl,hdigit⟩,hsame _,⟨rfl,rfl,rfl,hdigit⟩,hsame _,⟨rfl,rfl,rfl,hdigit⟩,
      trivial⟩
  have hip : Alike Ascii (ipAddress rt) (ipAddress asciiRuntime) :=
    ⟨trivial,⟨rfl,rfl,rfl,hoctet,hsame _⟩,hoctet,trivial⟩
  rcases fallback_cases hp with ⟨rfl,rfl⟩ | ⟨rfl,rfl⟩ | ⟨rfl,rfl⟩ | ⟨rfl,rfl⟩ | ⟨rfl,rfl⟩
  · exact ⟨emailAddress,rfl,rfl,rfl,.refl _⟩
  · exact ⟨phoneNumber asciiRuntime,rfl,rfl,rfl,hphone⟩
  · exact ⟨creditCard asciiRuntime,rfl,rfl,rfl,hcard⟩
  · exact ⟨usSsn asciiRuntime,rfl,rfl,rfl,hssn⟩
  · exact ⟨ipAddress asciiRuntime,rfl,rfl,rfl,hip⟩

/-- ASCII texts do not show the tables. -/
theorem contains_ascii (ht : PythonTables rt) {entity : String} {p : Regex}
    (hp : fallbackPattern rt entity=some p) {text : List Char} (htext : ∀ x∈text, Ascii x) :
    contains rt.isWord p text=asciiContains entity text := by
  obtain ⟨p',hp',hproper,hproper',halike⟩ := fallback_alike ht hp
  have hword : ∀ x, Ascii x→ rt.isWord x=asciiRuntime.isWord x := ht.ascii_word
  rw [asciiContains,hp']
  exact contains_alike hword hproper hproper' halike htext

/-- Both texts are ASCII. -/
theorem exposed_ascii {entity : String} (h : entity∈boundedNames) :
    (∀ x∈touching entity, Ascii x) ∧ ∀ x∈exposed entity, Ascii x := by
  have hall : boundedNames.all (fun n => (touching n).all (fun x => decide (x.toNat<128)) &&
      (exposed n).all (fun x => decide (x.toNat<128)))=true := by decide +kernel
  have hboth := List.all_eq_true.mp hall entity h
  rw [Bool.and_eq_true,List.all_eq_true,List.all_eq_true] at hboth
  simp only [decide_eq_true_eq] at hboth
  exact hboth

/-- Only the email pattern and, for a card or social security number, the
phone pattern match while the number touches the address. -/
theorem touching_clear {entity other : String} (h : entity∈boundedNames)
    (hother : other∈fallbackNames) (hemail : other≠"EMAIL_ADDRESS")
    (hphone : other="PHONE_NUMBER"→entity="IP_ADDRESS") :
    asciiContains other (touching entity)=false := by
  have hall : ∀ n∈boundedNames, ∀ m∈fallbackNames, m≠"EMAIL_ADDRESS"→
      (m="PHONE_NUMBER"→n="IP_ADDRESS")→asciiContains m (touching n)=false := by decide +kernel
  exact hall entity h other hother hemail hphone

/-- Nor does any but its own, and for a card or social security number the
phone pattern, once it is set apart. -/
theorem exposed_clear {entity other : String} (h : entity∈boundedNames)
    (hother : other∈fallbackNames) (hne : other≠entity)
    (hphone : other="PHONE_NUMBER"→entity="IP_ADDRESS") :
    asciiContains other (exposed entity)=false := by
  have hall : ∀ n∈boundedNames, ∀ m∈fallbackNames, m≠n→(m="PHONE_NUMBER"→n="IP_ADDRESS")→
      asciiContains m (exposed n)=false := by decide +kernel
  exact hall entity h other hother hne hphone

/-- Its own then matches. -/
theorem exposed_found {entity : String} (h : entity∈boundedNames) :
    asciiContains entity (exposed entity)=true := by
  have hall : ∀ n∈boundedNames, asciiContains n (exposed n)=true := by decide +kernel
  exact hall entity h

/-- The email pass sets the number apart. -/
theorem touching_pass {entity : String} (h : entity∈boundedNames) :
    passText rt "EMAIL_ADDRESS" (touching entity)=exposed entity := by
  have hall : ∀ n∈boundedNames,
      (subn asciiRuntime.isWord emailAddress (fun _ => mask "EMAIL_ADDRESS") (touching n)).1=
        exposed n := by decide +kernel
  have hfree : subn rt.isWord emailAddress (fun _ => mask "EMAIL_ADDRESS") (touching entity)=
      subn asciiRuntime.isWord emailAddress (fun _ => mask "EMAIL_ADDRESS") (touching entity) :=
    substitute_free rfl _ _ _
  rw [←hall entity h,←hfree]
  rfl

/-- An entity that is not covered is found after the passes over an address
that touches its number. -/
theorem passes_expose (ht : PythonTables rt) {entities : List String} {entity : String}
    (h : entity∈boundedNames) (hc : ¬Covered entities entity) :
    passes rt entities (touching entity)=exposed entity := by
  obtain ⟨hascii,hascii'⟩ := exposed_ascii h
  have hemail : "EMAIL_ADDRESS"∈entities := not_not.mp fun hno => hc (.inl hno)
  have hlater : entity∉fromEmail entities := fun hyes => hc (.inr (.inl hyes))
  have hphone : ∀ other∈entities, other="PHONE_NUMBER"→entity="IP_ADDRESS" := by
    rintro other hmem rfl
    by_contra hip
    exact hc (.inr (.inr ⟨hip,hmem⟩))
  obtain ⟨after,hsplit,hbefore,hfrom⟩ := fromEmail_split hemail
  rw [hfrom] at hlater
  rw [hsplit] at hphone
  have hfirst : passes rt (beforeEmail entities) (touching entity)=touching entity := by
    refine passes_idle fun other hother p hp => ?_
    rw [contains_ascii ht hp hascii]
    refine touching_clear h (fallback_name hp) ?_
      (hphone other (List.mem_append_left _ hother))
    rintro rfl
    exact hbefore hother
  have hlast : passes rt after (exposed entity)=exposed entity := by
    refine passes_idle fun other hother p hp => ?_
    have hmem : other∈"EMAIL_ADDRESS"::after := List.mem_cons_of_mem _ hother
    rw [contains_ascii ht hp hascii']
    refine exposed_clear h (fallback_name hp) ?_
      (hphone other (List.mem_append_right _ hmem))
    rintro rfl
    exact hlater hmem
  rw [hsplit,passes_append,passes_cons,hfirst,touching_pass h,hlast]

end exposure

section redact

variable {rt : Runtime} {r : Redactor} {direction : Direction}

/-- Redaction changes the strings of a value and nothing else. -/
theorem redact_texts (hd : r.policy.replacement="<REDACTED:\x7bentity\x7d>")
    (hr : redacts r.policy direction=true) (v : Json) :
    ∃ w flag, r.redact rt direction v=.ok (w,flag) ∧ keys w=keys v ∧
      iterStrings w=(iterStrings v).map (redactedText rt r) := by
  have henabled : r.policy.enabled=true := (Bool.and_eq_true_iff.mp hr).1
  have hstring : ∀ s, ∃ flag, r.redactString rt s=.ok (redactedText rt r s,flag) :=
    redactString_text hd henabled
  have hsucceeds : ∀ s∈iterStrings v, ∃ p, r.redactString rt s=.ok p := by
    intro s _
    obtain ⟨flag,hout⟩ := hstring s
    exact ⟨_,hout⟩
  obtain ⟨ps,hps⟩ := mapM_succeeds_iff.mpr hsucceeds
  have htexts : ps.map Prod.fst=(iterStrings v).map (redactedText rt r) := by
    refine (List.forall₂_eq_eq_eq ▸ List.forall₂_map_left_iff.mpr
      (List.forall₂_map_right_iff.mpr ((mapM_forall₂ hps).flip.imp fun p s hp => ?_)))
    obtain ⟨flag,hout⟩ := hstring s
    rw [hout] at hp
    cases hp
    rfl
  have hagrees := agrees (f:=r.redactString rt) v
  unfold Agrees at hagrees
  rw [hps] at hagrees
  obtain ⟨w,hw,hstrings,hshape⟩ := hagrees
  refine ⟨w,ps.any Prod.snd,?_,?_,hstrings.trans htexts⟩
  · rw [Redactor.redact,if_pos hr]
    exact hw
  · rw [←keys_outline w,hshape,keys_outline]

/-- A redacted value is clean exactly when the texts made of its strings and
its keys are. -/
theorem redact_clean_iff (hd : r.policy.replacement="<REDACTED:\x7bentity\x7d>")
    (hr : redacts r.policy direction=true) (v : Json) :
    ∃ w flag, r.redact rt direction v=.ok (w,flag) ∧ (Clean rt r.policy.entities w ↔
      (∀ s∈iterStrings v, CleanText rt r.policy.entities (redactedText rt r s)) ∧
        ∀ k∈keys v, CleanText rt r.policy.entities k) := by
  obtain ⟨w,flag,hw,hkeys,hstrings⟩ := redact_texts hd hr v
  refine ⟨w,flag,hw,fun h => ⟨fun s hs => ?_,hkeys ▸ h.keys⟩,fun h => ⟨?_,hkeys ▸ h.2⟩⟩
  · exact h.strings _ (hstrings ▸ List.mem_map_of_mem hs)
  · rw [hstrings]
    exact List.forall_mem_map.mpr h.1

/-- Without an analyzer, an entity that is not covered is left in a string. -/
theorem redact_exposes (ht : PythonTables rt)
    (hd : r.policy.replacement="<REDACTED:\x7bentity\x7d>")
    (hr : redacts r.policy direction=true) (ha : r.analyzer=none)
    (hc : ¬Covering r.policy.entities) :
    ∃ text out flag, r.redact rt direction (.str text)=.ok (.str out,flag) ∧
      ¬Clean rt r.policy.entities (.str out) := by
  have henabled : r.policy.enabled=true := (Bool.and_eq_true_iff.mp hr).1
  simp only [Covering,not_forall] at hc
  obtain ⟨entity,hbounded,hentity,hcovered⟩ := hc
  have hpass : r.analyzerPass rt ("a@b.co"++number entity)=("a@b.co"++number entity,false) := by
    unfold Redactor.analyzerPass
    rw [ha]
  obtain ⟨out,flag,hpatterns,hout⟩ := patternPass_passes hd r.policy.entities
    ("a@b.co"++number entity,false)
  have hexposed : out.toList=exposed entity := hout.trans (passes_expose ht hbounded hcovered)
  have hne : ¬("a@b.co"++number entity="" ∨ r.policy.enabled=false) := by
    rintro (hempty | hoff)
    · have hnil : ("a@b.co"++number entity).toList=[] := congrArg String.toList hempty
      rw [String.toList_append] at hnil
      exact absurd (List.append_eq_nil_iff.mp hnil).1 (by decide)
    · rw [henabled] at hoff
      cases hoff
  have hstring : r.redactString rt ("a@b.co"++number entity)=.ok (out,flag) := by
    rw [Redactor.redactString,if_neg hne,hpass,hpatterns]
  refine ⟨"a@b.co"++number entity,out,flag,?_,fun hclean => ?_⟩
  · rw [Redactor.redact,if_pos hr,walk,hstring]
    rfl
  · have hpattern : ∃ p, fallbackPattern rt entity=some p := by
      simp only [boundedNames,List.mem_cons,List.not_mem_nil,or_false] at hbounded
      rcases hbounded with rfl | rfl | rfl <;> exact ⟨_,rfl⟩
    obtain ⟨p,hp⟩ := hpattern
    have hnone := hclean.strings out (List.mem_singleton_self out) entity hentity p hp
    rw [hexposed,contains_ascii ht hp (exposed_ascii hbounded).2,exposed_found hbounded] at hnone
    cases hnone

/-- With the default template and a direction that is redacted, separated
strings come out clean and object keys as they are: the redacted value is clean
exactly when its keys are. Without an analyzer every string comes out clean
exactly when the configured entities cover. When no other pass comes behind the
email passes, a value comes out clean exactly when its strings are separated and
its keys clean. -/
theorem redaction_complete_iff (ht : PythonTables rt)
    (hd : r.policy.replacement="<REDACTED:\x7bentity\x7d>")
    (hr : redacts r.policy direction=true) :
    (∀ v, SeparatedStrings rt r v→∃ w flag, r.redact rt direction v=.ok (w,flag) ∧
      (Clean rt r.policy.entities w ↔ ∀ k∈keys v, CleanText rt r.policy.entities k)) ∧
    (r.analyzer=none→((∀ text, ∃ w flag, r.redact rt direction (.str text)=.ok (w,flag) ∧
      Clean rt r.policy.entities w) ↔ Covering r.policy.entities)) ∧
    (EmailLast rt r.policy.entities→∀ v, ∃ w flag, r.redact rt direction v=.ok (w,flag) ∧
      (Clean rt r.policy.entities w ↔
        SeparatedStrings rt r v ∧ ∀ k∈keys v, CleanText rt r.policy.entities k)) := by
  have hseparated : ∀ v, SeparatedStrings rt r v→∃ w flag, r.redact rt direction v=.ok (w,flag) ∧
      (Clean rt r.policy.entities w ↔ ∀ k∈keys v, CleanText rt r.policy.entities k) := by
    intro v hs
    obtain ⟨w,flag,hw,hclean⟩ := @redact_clean_iff rt _ _ hd hr v
    exact ⟨w,flag,hw,hclean.trans
      (and_iff_right fun s hmem => redactedText_clean ht (hs s hmem))⟩
  refine ⟨hseparated,fun ha => ⟨fun h => ?_,fun hc text => ?_⟩,fun hlast v => ?_⟩
  · by_contra hc
    obtain ⟨text,out,flag,hout,hexposed⟩ := redact_exposes ht hd hr ha hc
    obtain ⟨w,flag',hw,hclean⟩ := h text
    rw [hout] at hw
    cases hw
    exact hexposed hclean
  · obtain ⟨w,flag,hw,hclean⟩ := hseparated (.str text) (fun s _ _ => hc.separated _)
    exact ⟨w,flag,hw,hclean.mpr fun k hk => absurd hk List.not_mem_nil⟩
  · obtain ⟨w,flag,hw,hclean⟩ := @redact_clean_iff rt _ _ hd hr v
    refine ⟨w,flag,hw,hclean.trans (and_congr_left fun _ => ?_)⟩
    exact forall₂_congr fun s _ => redactedText_clean_iff ht hlast s

end redact

example : Covering ({} : RedactionPolicy).entities := by
  unfold Covering Covered
  decide

/-- The ASCII tables are as usual. -/
theorem asciiTables : PythonTables asciiRuntime where
  decimal_word := by
    intro x hx
    have hdigit : asciiDigit x=true := hx
    change (asciiLetter x || asciiDigit x || decide (x = '_'))=true
    rw [hdigit,Bool.or_true,Bool.true_or]
  ascii_decimal := fun _ _ => rfl
  ascii_word := fun _ _ => rfl

/-- With the ASCII tables the passes themselves show whether a text is separated. -/
theorem separated_ascii {entities : List String}
    (hlast : EmailLast asciiRuntime entities) {text : List Char}
    (h : ∀ entity∈entities, asciiContains entity (passes asciiRuntime entities text)=false) :
    Separated asciiRuntime entities text := by
  refine (passes_clean_iff asciiTables hlast text).mp fun entity he p hp => ?_
  have hnone := h entity he
  rwa [asciiContains,hp] at hnone

/-- No pass comes behind an email pass at the end. -/
theorem emailLast_pair {rt : Runtime} {entity : String} (h : entity≠"EMAIL_ADDRESS") :
    EmailLast rt [entity,"EMAIL_ADDRESS"] := by
  intro other ho hname
  have hfrom : fromEmail [entity,"EMAIL_ADDRESS"]=["EMAIL_ADDRESS"] := by
    simp [fromEmail,h]
  rw [hfrom] at ho
  exact absurd (List.mem_singleton.mp ho) hname

/-- Numbers next to addresses that are part of them, bounded or next to a part
that an earlier pass replaces. -/
def nearAddresses : List (String×String) :=
  [("CREDIT_CARD","1234567890123 a@b.co"),("US_SSN","123-45-6789a@b.co"),
    ("IP_ADDRESS","1.1.1.1@b.co2.2.2.2")]

example : ∀ pair∈nearAddresses,
    Separated asciiRuntime [pair.1,"EMAIL_ADDRESS"] pair.2.toList := by
  have hall : ∀ pair∈nearAddresses, pair.1≠"EMAIL_ADDRESS" ∧
      ∀ entity∈[pair.1,"EMAIL_ADDRESS"], asciiContains entity
        (passes asciiRuntime [pair.1,"EMAIL_ADDRESS"] pair.2.toList)=false := by
    decide +kernel
  intro pair hpair
  exact separated_ascii (emailLast_pair (hall pair hpair).1) (hall pair hpair).2

/-- A note with a number in front of an address. -/
def noted : Json := .obj [("note",.arr [.str "123-45-6789a@b.co"])]

/-- The number is part of the address. -/
theorem separated_noted :
    SeparatedStrings asciiRuntime ⟨{entities := ["US_SSN","EMAIL_ADDRESS"]},none⟩ noted := by
  intro s hs _
  cases List.mem_singleton.mp hs
  exact separated_ascii (emailLast_pair (by decide)) (by decide +kernel)

theorem redaction_complete_default :
    ((∀ text, ∃ w flag,
        (⟨{},none⟩ : Redactor).redact asciiRuntime .request (.str text)=.ok (w,flag) ∧
          Clean asciiRuntime ({} : RedactionPolicy).entities w) ↔
      Covering ({} : RedactionPolicy).entities) ∧
    ∃ w flag, (⟨{entities := ["US_SSN","EMAIL_ADDRESS"]},none⟩ : Redactor).redact asciiRuntime
        .response noted=.ok (w,flag) ∧
      (Clean asciiRuntime ["US_SSN","EMAIL_ADDRESS"] w ↔
        ∀ k∈keys noted, CleanText asciiRuntime ["US_SSN","EMAIL_ADDRESS"] k) := by
  refine ⟨?_,?_⟩
  · have hall := @redaction_complete_iff _ ⟨{},none⟩ .request asciiTables rfl rfl
    exact hall.2.1 rfl
  · have hall := @redaction_complete_iff _ ⟨{entities := ["US_SSN","EMAIL_ADDRESS"]},none⟩ .response
      asciiTables rfl rfl
    exact hall.1 noted separated_noted

theorem detectable_left :
    (let r : Redactor := ⟨{},none⟩
      let v : Json := .obj [("a@b.co",.int 1)]
      r.redact asciiRuntime .response v=.ok (v,false) ∧
        ¬Clean asciiRuntime r.policy.entities v) ∧
      (let r : Redactor := ⟨{entities := ["US_SSN","EMAIL_ADDRESS"]},none⟩
        let w : Json := .str "<REDACTED:EMAIL_ADDRESS>123-45-6789"
        r.redact asciiRuntime .response (.str "a@b.co123-45-6789")=.ok (w,true) ∧
          ¬Clean asciiRuntime r.policy.entities w) := by
  have hkey : contains asciiRuntime.isWord emailAddress "a@b.co".toList=true := by decide +kernel
  have hnumber : contains asciiRuntime.isWord (usSsn asciiRuntime)
      "<REDACTED:EMAIL_ADDRESS>123-45-6789".toList=true := by decide +kernel
  refine ⟨⟨rfl,fun h => ?_⟩,?_,fun h => ?_⟩
  · have hnone := h.keys "a@b.co" List.mem_cons_self "EMAIL_ADDRESS" (by decide) emailAddress rfl
    rw [hkey] at hnone
    cases hnone
  · decide +kernel
  · have hnone := h.strings _ (List.mem_singleton_self _) "US_SSN" (by decide)
      (usSsn asciiRuntime) rfl
    rw [hnumber] at hnone
    cases hnone

end McpGateway.RedactionCoverage
