import Mathlib
import McpGateway.PyText
import McpGateway.PyDict
import McpGateway.JsonValue
import McpGateway.GatewaySettings
import McpGateway.PyRuntime

/-!
# Guardrail rules

Rules are tried in policy order, and the first forbidden substring, pattern
or bound raises. Strings are collected at any depth of the arguments, bounds
are read at the top level only.
-/

namespace McpGateway.Guardrails

open PyText PyDict JsonValue GatewaySettings PyRuntime

/-- A blocked call. -/
structure GuardrailViolation where
  /-- Name of the rule. -/
  rule : String
  /-- What matched. -/
  detail : String
  deriving DecidableEq

/-- Text of a guardrail exception. -/
def GuardrailViolation.message (v : GuardrailViolation) : String :=
  "guardrail '"++v.rule++"' violated: "++v.detail

/-- A rule with its compiled patterns and lowered substrings. -/
structure CompiledRule where
  /-- The declarative rule. -/
  rule : SafetyRule
  /-- Pattern texts with their searches. -/
  regexes : List (String×(String→Bool))
  /-- Lowered forbidden substrings. -/
  forbiddenLower : List String

/-- A filter with the compiled rules of its policy. -/
structure SafetyFilter where
  /-- Its policy. -/
  policy : GuardrailsPolicy
  /-- `_compiled`. -/
  compiled : List CompiledRule

/-- Compilation of a rule, or the text of its pattern error. -/
def compileRule (rt : Runtime) (rule : SafetyRule) : Except String CompiledRule :=
  (rule.forbiddenRegex.mapM (fun p => (rt.compile p).map (fun search => (p,search)))).map
    (fun regexes => ⟨rule,regexes,rule.forbiddenSubstrings.map rt.lower⟩)

/-- The constructor raises for the first pattern that does not compile. -/
def SafetyFilter.new (rt : Runtime) (policy : GuardrailsPolicy) : Except String SafetyFilter :=
  (policy.rules.mapM (compileRule rt)).map (SafetyFilter.mk policy)

mutual

/-- `_iter_strings`. -/
def iterStrings : Json→List String
  | .str text => [text]
  | .arr items => iterItems items
  | .obj fields => iterFields fields
  | _ => []

/-- Strings of list elements. -/
def iterItems : List Json→List String
  | [] => []
  | v::vs => iterStrings v++iterItems vs

/-- Strings of member values. -/
def iterFields : List (String×Json)→List String
  | [] => []
  | (_,v)::vs => iterStrings v++iterFields vs

end

/-- A loop whose body may raise. -/
def raiseFirst {α ε : Type*} (body : α→Except ε Unit) : List α→Except ε Unit
  | [] => .ok ()
  | a::as =>
    match body a with
    | .error e => .error e
    | .ok _ => raiseFirst body as

/-- Forbidden substrings, then forbidden patterns, of one string. -/
def checkString (rt : Runtime) (c : CompiledRule) (s : String) :
    Except GuardrailViolation Unit :=
  match c.forbiddenLower.find? (fun bad => isIn bad (rt.lower s)) with
  | some bad => .error ⟨c.rule.name,"forbidden substring '"++bad++"' in argument"⟩
  | none =>
    match c.regexes.find? (fun p => p.2 s) with
    | some p => .error ⟨c.rule.name,"forbidden pattern '"++p.1++"' matched"⟩
    | none => .ok ()

/-- Printed form of a number. -/
def numberText (rt : Runtime) : Json→String
  | .int n => toString n
  | .float .nan => "nan"
  | .float (.inf true) => "-inf"
  | .float (.inf false) => "inf"
  | .float .negZero => "-0.0"
  | .float (.finite q) => rt.reprFloat q
  | _ => ""

/-- One numeric range against the top-level argument of its name. -/
def checkRange (rt : Runtime) (c : CompiledRule) (args : Json)
    (range : String×Dict String PyFloat) : Except GuardrailViolation Unit :=
  match args.get? range.1 with
  | none => .ok ()
  | some val =>
    match val.number? with
    | none => .ok ()
    | some x =>
      match (range.2.get? "min").filter (fun lo => x.lt lo) with
      | some lo => .error ⟨c.rule.name,range.1++"="++numberText rt val++" below min "++
          numberText rt (.float lo)⟩
      | none =>
        match (range.2.get? "max").filter (fun hi => hi.lt x) with
        | some hi => .error ⟨c.rule.name,range.1++"="++numberText rt val++" above max "++
            numberText rt (.float hi)⟩
        | none => .ok ()

/-- `_check_rule`. -/
def checkRule (rt : Runtime) (tool : String) (args : Json) (c : CompiledRule) :
    Except GuardrailViolation Unit :=
  if c.rule.tool≠"*" ∧ c.rule.tool≠tool then .ok ()
  else
    match raiseFirst (checkString rt c) (iterStrings args) with
    | .error v => .error v
    | .ok _ => raiseFirst (checkRange rt c args) c.rule.numericRanges.items

/-- `check`. -/
def SafetyFilter.check (rt : Runtime) (f : SafetyFilter) (tool : String) (args : Json) :
    Except GuardrailViolation Unit :=
  if f.policy.enabled=false then .ok ()
  else raiseFirst (checkRule rt tool args) f.compiled

/-- A loop completes when no iteration raises. -/
theorem raiseFirst_ok_iff {α ε : Type*} (body : α→Except ε Unit) (as : List α) :
    raiseFirst body as=.ok () ↔ ∀ a∈as, body a=.ok () := by
  induction as with
  | nil => simp [raiseFirst]
  | cons a as ih =>
    rw [raiseFirst,List.forall_mem_cons,←ih]
    cases body a with
    | error e => simp
    | ok u => simp

/-- What a loop raises, some iteration raised. -/
theorem raiseFirst_error {α ε : Type*} {body : α→Except ε Unit} {as : List α} {e : ε}
    (h : raiseFirst body as=.error e) : ∃ a∈as, body a=.error e := by
  induction as with
  | nil => cases h
  | cons a as ih =>
    rw [raiseFirst] at h
    cases hb : body a with
    | error e' =>
      rw [hb] at h
      cases h
      exact ⟨a,List.mem_cons_self,hb⟩
    | ok u =>
      rw [hb] at h
      obtain ⟨a',hm,ha'⟩ := ih h
      exact ⟨a',List.mem_cons_of_mem _ hm,ha'⟩

/-- A filter is silent when every applying rule finds no forbidden string and
no number out of bounds. -/
theorem check_ok_iff (rt : Runtime) (f : SafetyFilter) (tool : String) (args : Json) :
    f.check rt tool args=.ok () ↔ f.policy.enabled=false ∨
      ∀ c∈f.compiled, c.rule.tool="*" ∨ c.rule.tool=tool→
        (∀ s∈iterStrings args, checkString rt c s=.ok ()) ∧
          ∀ range∈c.rule.numericRanges.items, checkRange rt c args range=.ok () := by
  unfold SafetyFilter.check
  cases he : f.policy.enabled with
  | false => exact ⟨fun _ => Or.inl rfl,fun _ => rfl⟩
  | true =>
    rw [if_neg (fun h : true=false => Bool.noConfusion h),raiseFirst_ok_iff]
    simp only [Bool.true_eq_false,false_or]
    refine forall₂_congr fun c _ => ?_
    unfold checkRule
    by_cases hc : c.rule.tool≠"*" ∧ c.rule.tool≠tool
    · rw [if_pos hc]
      refine ⟨fun _ h => ?_,fun _ => rfl⟩
      rcases h with h | h
      · exact absurd h hc.1
      · exact absurd h hc.2
    · rw [if_neg hc]
      have happly : c.rule.tool="*" ∨ c.rule.tool=tool := by
        by_contra h
        exact hc ⟨fun hs => h (Or.inl hs),fun ht => h (Or.inr ht)⟩
      rw [←raiseFirst_ok_iff,←raiseFirst_ok_iff]
      cases hs : raiseFirst (checkString rt c) (iterStrings args) with
      | error v => exact ⟨fun h => (by cases h),fun h => (by cases (h happly).1)⟩
      | ok u => exact ⟨fun h _ => ⟨rfl,h⟩,fun h => (h happly).2⟩

end McpGateway.Guardrails
