import Mathlib
import McpGateway.PyText
import McpGateway.JsonValue
import McpGateway.GatewaySettings
import McpGateway.RegexMatch
import McpGateway.PyRuntime

/-!
# Redaction of personal data

Every string of a JSON tree passes first through the optional analyzer and
then through the fallback patterns of the configured entities; keys and
other leaves stay. A replacement template that cannot be formatted raises in
the pattern pass and merely ends the analyzer pass.
-/

namespace McpGateway.PiiRedactor

open PyText JsonValue GatewaySettings RegexMatch PyRuntime

/-- Side of a call that is redacted. -/
inductive Direction where
  /-- Arguments on their way to the upstream. -/
  | request
  /-- Results on their way to the caller. -/
  | response
  deriving DecidableEq

/-- A redactor with the analyzer it could load. -/
structure Redactor where
  /-- Its policy. -/
  policy : RedactionPolicy
  /-- `_analyzer`. -/
  analyzer : Option Analyzer

/-- The constructor loads the analyzer only for an enabled policy. -/
def Redactor.new (rt : Runtime) (policy : RedactionPolicy) : Redactor :=
  ⟨policy,if policy.enabled=true then rt.analyzer else none⟩

/-- One given character. -/
def char (c : Char) : Regex := .one (fun x => decide (x=c))

/-- One character of a list or a class. -/
def oneOf (extra : List Char) (accepts : Char→Bool) : Regex :=
  .one (fun x => accepts x || decide (x∈extra))

/-- `[A-Za-z0-9._%+-]+@[A-Za-z0-9.-]+\.[A-Za-z]{2,}`. -/
def emailAddress : Regex :=
  let alnum := fun c => asciiLetter c || asciiDigit c
  .seq (.rep 1 none true (oneOf ['.','_','%','+','-'] alnum))
    (.seq (char '@') (.seq (.rep 1 none true (oneOf ['.','-'] alnum))
      (.seq (char '.') (.rep 2 none true (.one asciiLetter)))))

/-- `\+?\d[\d \-().]{7,}\d`. -/
def phoneNumber (rt : Runtime) : Regex :=
  .seq (.rep 0 (some 1) true (char '+')) (.seq (.one rt.isDecimal)
    (.seq (.rep 7 none true (oneOf [' ','-','(',')','.'] rt.isDecimal)) (.one rt.isDecimal)))

/-- `\b(?:\d[ -]*?){13,16}\b`. -/
def creditCard (rt : Runtime) : Regex :=
  .seq .boundary (.seq (.rep 13 (some 16) true
    (.seq (.one rt.isDecimal) (.rep 0 none false (oneOf [' ','-'] (fun _ => false))))) .boundary)

/-- `\b\d{3}-\d{2}-\d{4}\b`. -/
def usSsn (rt : Runtime) : Regex :=
  let digits := fun n => Regex.rep n (some n) true (.one rt.isDecimal)
  .seq .boundary (.seq (digits 3) (.seq (char '-') (.seq (digits 2) (.seq (char '-')
    (.seq (digits 4) .boundary)))))

/-- `\b(?:\d{1,3}\.){3}\d{1,3}\b`. -/
def ipAddress (rt : Runtime) : Regex :=
  let octet := Regex.rep 1 (some 3) true (.one rt.isDecimal)
  .seq .boundary (.seq (.rep 3 (some 3) true (.seq octet (char '.'))) (.seq octet .boundary))

/-- `_FALLBACK_PATTERNS.get(entity)`. -/
def fallbackPattern (rt : Runtime) (entity : String) : Option Regex :=
  if entity="EMAIL_ADDRESS" then some emailAddress
  else if entity="PHONE_NUMBER" then some (phoneNumber rt)
  else if entity="CREDIT_CARD" then some (creditCard rt)
  else if entity="US_SSN" then some (usSsn rt)
  else if entity="IP_ADDRESS" then some (ipAddress rt)
  else none

/-- `template.format(entity=entity)`, or the text of its exception. -/
def formatTemplate (rt : Runtime) (entity : String) : List Char→Except String (List Char)
  | [] => .ok []
  | '\x7b' :: '\x7b' :: rest => (formatTemplate rt entity rest).map ('\x7b' :: ·)
  | '\x7d' :: '\x7d' :: rest => (formatTemplate rt entity rest).map ('\x7d' :: ·)
  | '\x7b' :: 'e' :: 'n' :: 't' :: 'i' :: 't' :: 'y' :: '\x7d' :: rest =>
    (formatTemplate rt entity rest).map (entity.toList++·)
  | c::rest =>
    if c = '\x7b' ∨ c = '\x7d' then
      (rt.formatRest (String.ofList (c::rest)) entity).map String.toList
    else (formatTemplate rt entity rest).map (c::·)

/-- `_replace`. -/
def Redactor.replace (rt : Runtime) (r : Redactor) (entity : String) : Except String String :=
  (formatTemplate rt entity r.policy.replacement.toList).map String.ofList

/-- `pattern.subn(repl, text)`. A backslash makes the replacement a template. -/
def subnText (rt : Runtime) (pattern : Regex) (repl text : String) :
    Except String (String×ℕ) :=
  let substituted := fun replace : List Char→List Char =>
    let result := subn rt.isWord pattern replace text.toList
    (String.ofList result.1,result.2)
  if '\\' ∈repl.toList then
    (rt.expandTemplate repl).map (fun expand =>
      substituted (fun found => (expand (String.ofList found)).toList))
  else .ok (substituted (fun _ => repl.toList))

/-- Replacement of the analyzer's spans in the given order. The first template
that cannot be formatted ends the pass with the text reached so far. -/
def Redactor.replaceSpans (rt : Runtime) (r : Redactor) :
    List AnalyzerResult→String×Bool→String×Bool
  | [],acc => acc
  | found::rest,acc =>
    match r.replace rt found.entityType with
    | .error _ => acc
    | .ok inserted => r.replaceSpans rt rest
        (takeChars acc.1 found.start++inserted++dropChars acc.1 found.stop,true)

/-- The analyzer pass: spans from the right, failures swallowed. -/
def Redactor.analyzerPass (rt : Runtime) (r : Redactor) (text : String) : String×Bool :=
  match r.analyzer with
  | none => (text,false)
  | some analyze =>
    match analyze text r.policy.entities r.policy.scoreThreshold with
    | .error _ => (text,false)
    | .ok results =>
      r.replaceSpans rt (results.insertionSort (fun a b => b.start≤a.start)) (text,false)

/-- The pattern pass over the entities in policy order. -/
def Redactor.patternPass (rt : Runtime) (r : Redactor) :
    List String→String×Bool→Except String (String×Bool)
  | [],acc => .ok acc
  | entity::rest,acc =>
    match fallbackPattern rt entity with
    | none => r.patternPass rt rest acc
    | some pattern =>
      match r.replace rt entity with
      | .error text => .error text
      | .ok repl =>
        match subnText rt pattern repl acc.1 with
        | .error text => .error text
        | .ok (newText,n) =>
          r.patternPass rt rest (if n=0 then acc else (newText,true))

/-- `_redact_string`. -/
def Redactor.redactString (rt : Runtime) (r : Redactor) (text : String) :
    Except String (String×Bool) :=
  if text="" ∨ r.policy.enabled=false then .ok (text,false)
  else r.patternPass rt r.policy.entities (r.analyzerPass rt text)

section Walk

variable (redactString : String→Except String (String×Bool))

mutual

/-- `_walk` with any redaction of strings. -/
def walk : Json→Except String (Json×Bool)
  | .str text => (redactString text).map (fun p => (.str p.1,p.2))
  | .arr items => (walkItems items).map (fun p => (.arr p.1,p.2))
  | .obj fields => (walkFields fields).map (fun p => (.obj p.1,p.2))
  | v => .ok (v,false)

/-- The list elements in order. -/
def walkItems : List Json→Except String (List Json×Bool)
  | [] => .ok ([],false)
  | v::vs =>
    match walk v with
    | .error text => .error text
    | .ok head => (walkItems vs).map (fun tail => (head.1::tail.1,head.2 || tail.2))

/-- The object members in order, keys untouched. -/
def walkFields : List (String×Json)→Except String (List (String×Json)×Bool)
  | [] => .ok ([],false)
  | (k,v)::vs =>
    match walk v with
    | .error text => .error text
    | .ok head => (walkFields vs).map (fun tail => ((k,head.1)::tail.1,head.2 || tail.2))

end

end Walk

/-- Whether the policy redacts a direction. -/
def redacts (policy : RedactionPolicy) (direction : Direction) : Bool :=
  policy.enabled && match direction with
    | .request => policy.redactRequests
    | .response => policy.redactResponses

/-- `redact`. -/
def Redactor.redact (rt : Runtime) (r : Redactor) (direction : Direction) (v : Json) :
    Except String (Json×Bool) :=
  if redacts r.policy direction=true then walk (r.redactString rt) v else .ok (v,false)

/-- A span pass that reports no change made none. -/
theorem replaceSpans_unchanged (rt : Runtime) (r : Redactor) (found : List AnalyzerResult)
    (acc : String×Bool) (h : (r.replaceSpans rt found acc).2=false) :
    r.replaceSpans rt found acc=acc := by
  have htrue : ∀ (found : List AnalyzerResult) (text : String),
      (r.replaceSpans rt found (text,true)).2=true := by
    intro found
    induction found with
    | nil => exact fun _ => rfl
    | cons head rest ih =>
      intro text
      unfold Redactor.replaceSpans
      split
      · rfl
      · exact ih _
  cases found with
  | nil => rfl
  | cons head rest =>
    unfold Redactor.replaceSpans at h ⊢
    cases hr : r.replace rt head.entityType with
    | error text => rfl
    | ok inserted =>
      rw [hr] at h
      dsimp only at h
      rw [htrue] at h
      cases h

/-- An analyzer pass that reports no change made none. -/
theorem analyzerPass_unchanged (rt : Runtime) (r : Redactor) (text : String)
    (h : (r.analyzerPass rt text).2=false) : r.analyzerPass rt text=(text,false) := by
  unfold Redactor.analyzerPass at h ⊢
  cases ha : r.analyzer with
  | none => rfl
  | some analyze =>
    rw [ha] at h
    dsimp only at h ⊢
    cases hr : analyze text r.policy.entities r.policy.scoreThreshold with
    | error e => rfl
    | ok results =>
      rw [hr] at h
      exact replaceSpans_unchanged rt r _ _ h

/-- A pattern pass that reports no change made none. -/
theorem patternPass_unchanged {rt : Runtime} {r : Redactor} {entities : List String}
    {acc : String×Bool} {out : String}
    (h : r.patternPass rt entities acc=.ok (out,false)) : acc=(out,false) := by
  induction entities generalizing acc with
  | nil =>
    unfold Redactor.patternPass at h
    exact Except.ok.inj h
  | cons entity rest ih =>
    unfold Redactor.patternPass at h
    split at h
    · exact ih h
    · split at h
      · cases h
      · split at h
        · cases h
        · rename_i newText n _
          have hacc := ih h
          split at hacc
          · exact hacc
          · cases hacc

/-- A string that is reported unchanged is unchanged. -/
theorem redactString_unchanged {rt : Runtime} {r : Redactor} {text out : String}
    (h : r.redactString rt text=.ok (out,false)) : out=text := by
  unfold Redactor.redactString at h
  split at h
  · injection h with h
    injection h with hout
    exact hout.symm
  · have hacc := patternPass_unchanged h
    have hpass := analyzerPass_unchanged rt r text (by rw [hacc])
    rw [hpass] at hacc
    injection hacc with htext
    exact htext.symm

/-- Two lists related element by element, with the disjunction of the flags. -/
inductive Collected {α : Type} (R : α→α→Bool→Prop) : List α→List α→Bool→Prop where
  /-- Nothing is collected from nothing. -/
  | nil : Collected R [] [] false
  /-- One element and those behind it. -/
  | cons {a b : α} {as bs : List α} {c d : Bool} (head : R a b c) (tail : Collected R as bs d) :
    Collected R (a::as) (b::bs) (c || d)

/-- Elements that stay without a flag form a list that does. -/
theorem Collected.eq_of_false {α : Type} {R : α→α→Bool→Prop} {as bs : List α} {c : Bool}
    (h : Collected R as bs c) (hr : ∀ a∈as, ∀ b, R a b false→b=a) (hc : c=false) : bs=as := by
  induction h with
  | nil => rfl
  | cons head _ ih =>
    obtain ⟨rfl,rfl⟩ := Bool.or_eq_false_iff.mp hc
    have hhead := hr _ List.mem_cons_self _ head
    have htail := ih (fun a ha => hr a (List.mem_cons_of_mem _ ha)) rfl
    rw [hhead,htail]

/-- Whether a value has neither text nor parts. -/
def isLeaf : Json→Bool
  | .str _ => false
  | .arr _ => false
  | .obj _ => false
  | _ => true

/-- What a walk does at the root of a value. -/
inductive WalkStep (f : String→Except String (String×Bool)) : Json→Json→Bool→Prop where
  /-- A value without strings stays. -/
  | leaf (v : Json) (h : isLeaf v=true) : WalkStep f v v false
  /-- A string is redacted. -/
  | str {s t : String} {c : Bool} (h : f s=.ok (t,c)) : WalkStep f (.str s) (.str t) c
  /-- List elements are walked in order. -/
  | arr {items ws : List Json} {c : Bool}
      (h : Collected (fun v w c => walk f v=.ok (w,c)) items ws c) :
      WalkStep f (.arr items) (.arr ws) c
  /-- Members are walked in order under their keys. -/
  | obj {fields ws : List (String×Json)} {c : Bool}
      (h : Collected (fun m n c => n.1=m.1 ∧ walk f m.2=.ok (n.2,c)) fields ws c) :
      WalkStep f (.obj fields) (.obj ws) c

section WalkSteps

variable {f : String→Except String (String×Bool)}

/-- Walked list elements are collected. -/
theorem walkItems_collected {items ws : List Json} {c : Bool}
    (h : walkItems f items=.ok (ws,c)) :
    Collected (fun v w c => walk f v=.ok (w,c)) items ws c := by
  induction items generalizing ws c with
  | nil =>
    cases h
    exact .nil
  | cons v vs ih =>
    rw [walkItems] at h
    cases hv : walk f v with
    | error e => rw [hv] at h; cases h
    | ok head =>
      rw [hv] at h
      cases ht : walkItems f vs with
      | error e => rw [ht] at h; cases h
      | ok tail =>
        rw [ht] at h
        cases h
        exact .cons hv (ih ht)

/-- So are walked members. -/
theorem walkFields_collected {fields ws : List (String×Json)} {c : Bool}
    (h : walkFields f fields=.ok (ws,c)) :
    Collected (fun m n c => n.1=m.1 ∧ walk f m.2=.ok (n.2,c)) fields ws c := by
  induction fields generalizing ws c with
  | nil =>
    cases h
    exact .nil
  | cons m ms ih =>
    obtain ⟨k,v⟩ := m
    rw [walkFields] at h
    cases hv : walk f v with
    | error e => rw [hv] at h; cases h
    | ok head =>
      rw [hv] at h
      cases ht : walkFields f ms with
      | error e => rw [ht] at h; cases h
      | ok tail =>
        rw [ht] at h
        cases h
        exact .cons ⟨rfl,hv⟩ (ih ht)

/-- A successful walk takes one of these steps. -/
theorem walk_step {v w : Json} {c : Bool} (h : walk f v=.ok (w,c)) : WalkStep f v w c := by
  have hleaf : ∀ v : Json, isLeaf v=true→
      (Except.ok (v,false) : Except String (Json×Bool))=.ok (w,c)→WalkStep f v w c := by
    intro v hl hv
    obtain ⟨rfl,rfl⟩ := Prod.mk.inj (Except.ok.inj hv)
    exact .leaf v hl
  cases v with
  | null => exact hleaf _ rfl h
  | bool b => exact hleaf _ rfl h
  | int n => exact hleaf _ rfl h
  | float x => exact hleaf _ rfl h
  | str s =>
    rw [walk] at h
    cases hs : f s with
    | error e => rw [hs] at h; cases h
    | ok p =>
      rw [hs] at h
      cases h
      exact .str hs
  | arr items =>
    rw [walk] at h
    cases hi : walkItems f items with
    | error e => rw [hi] at h; cases h
    | ok p =>
      rw [hi] at h
      cases h
      exact .arr (walkItems_collected hi)
  | obj fields =>
    rw [walk] at h
    cases hi : walkFields f fields with
    | error e => rw [hi] at h; cases h
    | ok p =>
      rw [hi] at h
      cases h
      exact .obj (walkFields_collected hi)

end WalkSteps

/-- A walk over a redaction that reports its changes reports its own. -/
theorem walk_unchanged {f : String→Except String (String×Bool)}
    (hf : ∀ s t, f s=.ok (t,false)→t=s) (v : Json) :
    ∀ w, walk f v=.ok (w,false)→w=v := by
  induction v using Json.induction with
  | null => exact fun w h => (Prod.mk.inj (Except.ok.inj h)).1.symm
  | bool b => exact fun w h => (Prod.mk.inj (Except.ok.inj h)).1.symm
  | int n => exact fun w h => (Prod.mk.inj (Except.ok.inj h)).1.symm
  | float x => exact fun w h => (Prod.mk.inj (Except.ok.inj h)).1.symm
  | str s =>
    intro w h
    cases walk_step h with
    | leaf _ hl => cases hl
    | str hs => rw [hf s _ hs]
  | arr items ih =>
    intro w h
    cases walk_step h with
    | leaf _ hl => cases hl
    | arr hc => rw [hc.eq_of_false ih rfl]
  | obj fields ih =>
    intro w h
    cases walk_step h with
    | leaf _ hl => cases hl
    | obj hc =>
      have hmember : ∀ m∈fields, ∀ n : String×Json,
          n.1=m.1 ∧ walk f m.2=.ok (n.2,false)→n=m :=
        fun m hm n hn => Prod.ext hn.1 (ih m hm n.2 hn.2)
      rw [hc.eq_of_false hmember rfl]

/-- Redaction that reports no change returns its input. -/
theorem redact_unchanged {rt : Runtime} {r : Redactor} {direction : Direction} {v w : Json}
    (h : r.redact rt direction v=.ok (w,false)) : w=v := by
  unfold Redactor.redact at h
  split at h
  · exact walk_unchanged (fun _ _ hs => redactString_unchanged hs) v w h
  · exact (Prod.mk.inj (Except.ok.inj h)).1.symm

end McpGateway.PiiRedactor
