import Mathlib
import McpGateway.PyText
import McpGateway.PyDict
import McpGateway.JsonValue
import McpGateway.GatewaySettings
import McpGateway.PyRuntime
import McpGateway.Guardrails

/-!
# What a guardrail policy forbids

A policy forbids the calls that some applying rule forbids: a substring or a
pattern in a string at any depth of the arguments, or a top-level number out
of its bounds. The filter built from the policy blocks exactly these calls and
names the first such rule, so the order of the rules decides the name only.
-/

namespace McpGateway.GuardrailDecision

open PyText PyDict JsonValue GatewaySettings PyRuntime Guardrails

/-- A string occurs as a value at some depth; keys do not count. -/
inductive HasString : Json→String→Prop where
  /-- The value itself. -/
  | str (s : String) : HasString (.str s) s
  /-- A value in a list. -/
  | item {items : List Json} {v : Json} {s : String} (hv : v∈items) (h : HasString v s) :
    HasString (.arr items) s
  /-- A value in an object. -/
  | member {fields : List (String×Json)} {m : String×Json} {s : String} (hm : m∈fields)
      (h : HasString m.2 s) : HasString (.obj fields) s

/-- The rule is for every tool or for this one. -/
def Applies (rule : SafetyRule) (tool : String) : Prop := rule.tool="*" ∨ rule.tool=tool

/-- A forbidden substring occurs in a text up to case, or a forbidden pattern
is found in it. -/
def ForbiddenText (rt : Runtime) (rule : SafetyRule) (s : String) : Prop :=
  (∃ bad∈rule.forbiddenSubstrings, isIn (rt.lower bad) (rt.lower s)=true) ∨
    ∃ pattern∈rule.forbiddenRegex, ∃ search, rt.compile pattern=.ok search ∧ search s=true

/-- A number is below the lower or above the upper bound there is. -/
def Outside (bounds : Dict String PyFloat) (x : PyFloat) : Prop :=
  (∃ lo, bounds.get? "min"=some lo ∧ x.lt lo=true) ∨
    ∃ hi, bounds.get? "max"=some hi ∧ hi.lt x=true

/-- A top-level argument is a number outside the bounds of its name. -/
def OutOfRange (args : Json) (range : String×Dict String PyFloat) : Prop :=
  ∃ val x, args.get? range.1=some val ∧ val.number?=some x ∧ Outside range.2 x

/-- The rule forbids the call. -/
def Forbids (rt : Runtime) (tool : String) (args : Json) (rule : SafetyRule) : Prop :=
  Applies rule tool ∧ ((∃ s, HasString args s ∧ ForbiddenText rt rule s) ∨
    ∃ range∈rule.numericRanges.items, OutOfRange args range)

/-- The filter raises. -/
def Blocks (rt : Runtime) (f : SafetyFilter) (tool : String) (args : Json) : Prop :=
  ∃ v, f.check rt tool args=.error v

/-- Strings of a list are those of its elements. -/
theorem mem_iterItems {items : List Json} {s : String} :
    s∈iterItems items ↔ ∃ v∈items, s∈iterStrings v := by
  induction items with
  | nil => simp [iterItems]
  | cons v vs ih => rw [iterItems,List.mem_append,ih,List.exists_mem_cons_iff]

/-- Strings of an object are those of its values. -/
theorem mem_iterFields {fields : List (String×Json)} {s : String} :
    s∈iterFields fields ↔ ∃ m∈fields, s∈iterStrings m.2 := by
  induction fields with
  | nil => simp [iterFields]
  | cons m ms ih =>
    obtain ⟨k,v⟩ := m
    rw [iterFields,List.mem_append,ih,List.exists_mem_cons_iff]

/-- The collected strings are the values at any depth. -/
theorem mem_iterStrings (v : Json) : ∀ s, s∈iterStrings v ↔ HasString v s := by
  have hleaf : ∀ w : Json, iterStrings w=[]→(∀ s, ¬HasString w s)→
      ∀ s, s∈iterStrings w ↔ HasString w s := by
    intro w hnil hnone s
    rw [hnil]
    exact ⟨fun h => absurd h List.not_mem_nil,fun h => absurd h (hnone s)⟩
  induction v using Json.induction with
  | null => exact hleaf _ rfl (fun s h => (by cases h))
  | bool b => exact hleaf _ rfl (fun s h => (by cases h))
  | int n => exact hleaf _ rfl (fun s h => (by cases h))
  | float x => exact hleaf _ rfl (fun s h => (by cases h))
  | str text =>
    intro s
    rw [iterStrings,List.mem_singleton]
    constructor
    · rintro rfl
      exact .str s
    · intro h
      cases h
      rfl
  | arr items ih =>
    intro s
    rw [iterStrings,mem_iterItems]
    constructor
    · rintro ⟨v,hv,hs⟩
      exact .item hv ((ih v hv s).mp hs)
    · intro h
      cases h with
      | item hv hs => exact ⟨_,hv,(ih _ hv s).mpr hs⟩
  | obj fields ih =>
    intro s
    rw [iterStrings,mem_iterFields]
    constructor
    · rintro ⟨m,hm,hs⟩
      exact .member hm ((ih m hm s).mp hs)
    · intro h
      cases h with
      | member hm hs => exact ⟨_,hm,(ih _ hm s).mpr hs⟩

/-- A loop over images raises at the first element whose image raises. -/
theorem raiseFirst_first {α β ε : Type*} {R : α→β→Prop} {body : β→Except ε Unit} {as : List α}
    {bs : List β} (h : List.Forall₂ R as bs) {e : ε} (he : raiseFirst body bs=.error e) :
    ∃ before a after, as=before++a::after ∧ (∀ x∈before, ∃ y, R x y ∧ body y=.ok ()) ∧
      ∃ b, R a b ∧ body b=.error e := by
  induction h with
  | nil => cases he
  | @cons a b as bs hab hrest ih =>
    rw [raiseFirst] at he
    cases hb : body b with
    | error e' =>
      rw [hb] at he
      cases he
      exact ⟨[],a,as,rfl,fun _ hx => absurd hx List.not_mem_nil,b,hab,hb⟩
    | ok u =>
      rw [hb] at he
      obtain ⟨before,x,after,rfl,hbefore,hx⟩ := ih he
      exact ⟨a::before,x,after,rfl,List.forall_mem_cons.mpr ⟨⟨b,hab,hb⟩,hbefore⟩,hx⟩

/-- A loop raises when some iteration does. -/
theorem raiseFirst_raises_iff {α ε : Type*} {body : α→Except ε Unit} {as : List α} :
    (∃ e, raiseFirst body as=.error e) ↔ ∃ a∈as, ∃ e, body a=.error e := by
  constructor
  · rintro ⟨e,h⟩
    obtain ⟨a,ha,he⟩ := raiseFirst_error h
    exact ⟨a,ha,e,he⟩
  · rintro ⟨a,ha,e,he⟩
    cases h : raiseFirst body as with
    | error e' => exact ⟨e',rfl⟩
    | ok u =>
      rw [(raiseFirst_ok_iff body as).mp h a ha] at he
      cases he

/-- A traversal that succeeds pairs each element with its result. -/
theorem mapM_forall₂ {α β ε : Type*} {f : α→Except ε β} {as : List α} {bs : List β}
    (h : as.mapM f=.ok bs) : List.Forall₂ (fun a b => f a=.ok b) as bs := by
  induction as generalizing bs with
  | nil =>
    cases h
    exact .nil
  | cons a as ih =>
    rw [List.mapM_cons] at h
    cases ha : f a with
    | error e => rw [ha] at h; cases h
    | ok b =>
      rw [ha] at h
      cases hr : as.mapM f with
      | error e => rw [hr] at h; cases h
      | ok rest =>
        rw [hr] at h
        cases h
        exact .cons ha (ih hr)

/-- A traversal succeeds when every element does. -/
theorem mapM_succeeds_iff {α β ε : Type*} {f : α→Except ε β} {as : List α} :
    (∃ bs, as.mapM f=.ok bs) ↔ ∀ a∈as, ∃ b, f a=.ok b := by
  induction as with
  | nil => exact ⟨fun _ _ h => absurd h List.not_mem_nil,fun _ => ⟨[],rfl⟩⟩
  | cons a as ih =>
    rw [List.forall_mem_cons,←ih,List.mapM_cons]
    cases ha : f a with
    | error e => exact ⟨fun ⟨_,h⟩ => (by cases h),fun ⟨⟨_,h⟩,_⟩ => (by cases h)⟩
    | ok b =>
      cases hr : as.mapM f with
      | error e => exact ⟨fun ⟨_,h⟩ => (by cases h),fun ⟨_,⟨_,h⟩⟩ => (by cases h)⟩
      | ok rest => exact ⟨fun _ => ⟨⟨b,rfl⟩,⟨rest,rfl⟩⟩,fun _ => ⟨b::rest,rfl⟩⟩

/-- A compiled rule keeps its rule, lowers the substrings and carries the
search of each pattern. -/
theorem compileRule_ok {rt : Runtime} {rule : SafetyRule} {c : CompiledRule}
    (h : compileRule rt rule=.ok c) :
    c.rule=rule ∧ c.forbiddenLower=rule.forbiddenSubstrings.map rt.lower ∧
    List.Forall₂ (fun p entry => (rt.compile p).map (fun search => (p,search))=.ok entry)
      rule.forbiddenRegex c.regexes := by
  unfold compileRule at h
  cases hm : rule.forbiddenRegex.mapM
      (fun p => (rt.compile p).map (fun search => (p,search))) with
  | error e => rw [hm] at h; cases h
  | ok regexes =>
    rw [hm] at h
    cases h
    exact ⟨rfl,rfl,mapM_forall₂ hm⟩

/-- A filter has the compiled rules of its policy, in order. -/
theorem new_ok {rt : Runtime} {policy : GuardrailsPolicy} {f : SafetyFilter}
    (h : SafetyFilter.new rt policy=.ok f) : f.policy=policy ∧
    List.Forall₂ (fun rule c => compileRule rt rule=.ok c) policy.rules f.compiled := by
  unfold SafetyFilter.new at h
  cases hm : policy.rules.mapM (compileRule rt) with
  | error e => rw [hm] at h; cases h
  | ok compiled =>
    rw [hm] at h
    cases h
    exact ⟨rfl,mapM_forall₂ hm⟩

/-- A filter can be built when each rule compiles. -/
theorem new_succeeds_iff (rt : Runtime) (policy : GuardrailsPolicy) :
    (∃ f, SafetyFilter.new rt policy=.ok f) ↔
      ∀ rule∈policy.rules, ∃ c, compileRule rt rule=.ok c := by
  rw [←mapM_succeeds_iff]
  unfold SafetyFilter.new
  cases policy.rules.mapM (compileRule rt) with
  | error e => exact ⟨fun ⟨_,h⟩ => (by cases h),fun ⟨_,h⟩ => (by cases h)⟩
  | ok compiled => exact ⟨fun _ => ⟨compiled,rfl⟩,fun _ => ⟨⟨policy,compiled⟩,rfl⟩⟩

section Rules

variable {rt : Runtime} {rule : SafetyRule} {c : CompiledRule} (hc : compileRule rt rule=.ok c)

include hc

/-- A compiled pattern is found in a text when the rule's pattern is. -/
theorem regex_found_iff (s : String) : (∃ entry∈c.regexes, entry.2 s=true) ↔
    ∃ pattern∈rule.forbiddenRegex, ∃ search, rt.compile pattern=.ok search ∧
      search s=true := by
  obtain ⟨-,-,hregexes⟩ := compileRule_ok hc
  generalize rule.forbiddenRegex=patterns at hregexes ⊢
  generalize c.regexes=regexes at hregexes ⊢
  induction hregexes with
  | nil => simp
  | @cons p entry ps entries hp hrest ih =>
    rw [List.exists_mem_cons_iff,List.exists_mem_cons_iff,ih]
    refine or_congr ?_ Iff.rfl
    cases hs : rt.compile p with
    | error e => rw [hs] at hp; cases hp
    | ok search =>
      rw [hs] at hp
      cases hp
      exact ⟨fun h => ⟨search,rfl,h⟩,fun ⟨_,h,hf⟩ => Except.ok.inj h ▸ hf⟩

/-- A string raises when it has forbidden text. -/
theorem checkString_raises_iff (s : String) :
    (∃ v, checkString rt c s=.error v) ↔ ForbiddenText rt rule s := by
  obtain ⟨-,hlower,-⟩ := compileRule_ok hc
  have hsub : (∃ bad∈c.forbiddenLower, isIn bad (rt.lower s)=true) ↔
      ∃ bad∈rule.forbiddenSubstrings, isIn (rt.lower bad) (rt.lower s)=true := by
    rw [hlower]
    simp only [List.mem_map,exists_exists_and_eq_and]
  rw [ForbiddenText,←hsub,←regex_found_iff hc,checkString]
  cases hbad : c.forbiddenLower.find? (fun bad => isIn bad (rt.lower s)) with
  | some bad =>
    have hfound := List.find?_some hbad
    exact ⟨fun _ => Or.inl ⟨bad,List.mem_of_find?_eq_some hbad,hfound⟩,fun _ => ⟨_,rfl⟩⟩
  | none =>
    have hnobad := List.find?_eq_none.mp hbad
    cases hpat : c.regexes.find? (fun p => p.2 s) with
    | some p =>
      have hfound := List.find?_some hpat
      exact ⟨fun _ => Or.inr ⟨p,List.mem_of_find?_eq_some hpat,hfound⟩,fun _ => ⟨_,rfl⟩⟩
    | none =>
      have hnopat := List.find?_eq_none.mp hpat
      refine ⟨fun ⟨_,h⟩ => (by cases h),?_⟩
      rintro (⟨bad,hm,hb⟩ | ⟨p,hm,hp⟩)
      · exact absurd hb (hnobad bad hm)
      · exact absurd hp (hnopat p hm)

end Rules

/-- An optional bound raises when it is there and violated. -/
theorem filter_bound (bound : Option PyFloat) (violated : PyFloat→Bool) :
    (∃ b, bound.filter violated=some b) ↔ ∃ b, bound=some b ∧ violated b=true := by
  simp only [Option.filter_eq_some_iff]

/-- A range raises when its argument is a number outside the bounds. -/
theorem checkRange_raises_iff (rt : Runtime) (c : CompiledRule) (args : Json)
    (range : String×Dict String PyFloat) :
    (∃ v, checkRange rt c args range=.error v) ↔ OutOfRange args range := by
  unfold checkRange OutOfRange
  cases hval : args.get? range.1 with
  | none => exact ⟨fun ⟨_,h⟩ => (by cases h),fun ⟨_,_,h,_⟩ => (by cases h)⟩
  | some val =>
    cases hx : val.number? with
    | none =>
      refine ⟨fun ⟨_,h⟩ => (by simp [hx] at h),?_⟩
      rintro ⟨_,x,hv,hn,-⟩
      cases hv
      rw [hx] at hn
      cases hn
    | some x =>
      have hin : (∃ w y, some val=some w ∧ w.number?=some y ∧ Outside range.2 y) ↔
          Outside range.2 x := by
        constructor
        · rintro ⟨_,y,hv,hn,hout⟩
          cases hv
          rw [hx] at hn
          cases hn
          exact hout
        · exact fun hout => ⟨val,x,rfl,hx,hout⟩
      rw [hin,Outside,←filter_bound _ (fun lo => x.lt lo),←filter_bound _ (fun hi => hi.lt x)]
      simp only [hx]
      cases (range.2.get? "min").filter (fun lo => x.lt lo) with
      | some lo => exact ⟨fun _ => Or.inl ⟨lo,rfl⟩,fun _ => ⟨_,rfl⟩⟩
      | none =>
        cases (range.2.get? "max").filter (fun hi => hi.lt x) with
        | some hi => exact ⟨fun _ => Or.inr ⟨hi,rfl⟩,fun _ => ⟨_,rfl⟩⟩
        | none => simp

/-- A string that raises names its rule. -/
theorem checkString_names {rt : Runtime} {c : CompiledRule} {s : String} {v : GuardrailViolation}
    (h : checkString rt c s=.error v) : v.rule=c.rule.name := by
  unfold checkString at h
  split at h
  · cases h
    rfl
  · split at h
    · cases h
      rfl
    · cases h

/-- So does a range. -/
theorem checkRange_names {rt : Runtime} {c : CompiledRule} {args : Json}
    {range : String×Dict String PyFloat} {v : GuardrailViolation}
    (h : checkRange rt c args range=.error v) : v.rule=c.rule.name := by
  unfold checkRange at h
  split at h
  · cases h
  · split at h
    · cases h
    · split at h
      · cases h
        rfl
      · split at h
        · cases h
          rfl
        · cases h

/-- A rule is skipped, or its strings are tried before its ranges. -/
theorem checkRule_error_iff {rt : Runtime} {tool : String} {args : Json} {c : CompiledRule}
    {v : GuardrailViolation} : checkRule rt tool args c=.error v ↔ Applies c.rule tool ∧
      (raiseFirst (checkString rt c) (iterStrings args)=.error v ∨
        raiseFirst (checkString rt c) (iterStrings args)=.ok () ∧
          raiseFirst (checkRange rt c args) c.rule.numericRanges.items=.error v) := by
  have happlies : Applies c.rule tool ↔ ¬(c.rule.tool≠"*" ∧ c.rule.tool≠tool) := by
    rw [Applies,not_and_or,not_not,not_not]
  unfold checkRule
  rw [happlies]
  by_cases hskip : c.rule.tool≠"*" ∧ c.rule.tool≠tool
  · rw [if_pos hskip]
    exact ⟨fun h => (by cases h),fun h => absurd hskip h.1⟩
  · rw [if_neg hskip,and_iff_right hskip]
    cases raiseFirst (checkString rt c) (iterStrings args) with
    | error e => exact ⟨Or.inl,fun h => h.resolve_right fun hn => (by cases hn.1)⟩
    | ok u => exact ⟨fun h => Or.inr ⟨rfl,h⟩,fun h => (h.resolve_left fun hn => (by cases hn)).2⟩

/-- A compiled rule raises when its rule forbids the call. -/
theorem checkRule_raises_iff {rt : Runtime} {rule : SafetyRule} {c : CompiledRule}
    (hc : compileRule rt rule=.ok c) (tool : String) (args : Json) :
    (∃ v, checkRule rt tool args c=.error v) ↔ Forbids rt tool args rule := by
  have hrule := (compileRule_ok hc).1
  have hstrings : (∃ v, raiseFirst (checkString rt c) (iterStrings args)=.error v) ↔
      ∃ s, HasString args s ∧ ForbiddenText rt rule s := by
    simp only [raiseFirst_raises_iff,checkString_raises_iff hc,mem_iterStrings]
  have hranges : (∃ v, raiseFirst (checkRange rt c args) c.rule.numericRanges.items=.error v) ↔
      ∃ range∈rule.numericRanges.items, OutOfRange args range := by
    simp only [raiseFirst_raises_iff,checkRange_raises_iff,hrule]
  simp only [checkRule_error_iff,Forbids,←hstrings,←hranges,hrule]
  constructor
  · rintro ⟨v,happlies,hs | ⟨-,hr⟩⟩
    · exact ⟨happlies,Or.inl ⟨v,hs⟩⟩
    · exact ⟨happlies,Or.inr ⟨v,hrule ▸ hr⟩⟩
  · rintro ⟨happlies,⟨v,hs⟩ | ⟨v,hr⟩⟩
    · exact ⟨v,happlies,Or.inl hs⟩
    · cases hfirst : raiseFirst (checkString rt c) (iterStrings args) with
      | error e => exact ⟨e,happlies,Or.inl rfl⟩
      | ok u => exact ⟨v,happlies,Or.inr ⟨rfl,hrule ▸ hr⟩⟩

/-- A compiled rule that raises names itself. -/
theorem checkRule_names {rt : Runtime} {c : CompiledRule} {tool : String} {args : Json}
    {v : GuardrailViolation} (h : checkRule rt tool args c=.error v) : v.rule=c.rule.name := by
  obtain ⟨-,hs | ⟨-,hr⟩⟩ := checkRule_error_iff.mp h
  · obtain ⟨s,-,hv⟩ := raiseFirst_error hs
    exact checkString_names hv
  · obtain ⟨range,-,hv⟩ := raiseFirst_error hr
    exact checkRange_names hv

section Policies

variable {rt : Runtime} {policy : GuardrailsPolicy} {f : SafetyFilter}
  (hf : SafetyFilter.new rt policy=.ok f) (he : policy.enabled=true)

include hf he

/-- An enabled filter runs its compiled rules. -/
theorem check_enabled (tool : String) (args : Json) :
    f.check rt tool args=raiseFirst (checkRule rt tool args) f.compiled := by
  obtain ⟨hpolicy,-⟩ := new_ok hf
  rw [SafetyFilter.check,if_neg (by rw [hpolicy,he]; exact Bool.noConfusion)]

/-- The filter raises when some rule of its policy forbids the call. -/
theorem blocks_iff (tool : String) (args : Json) :
    Blocks rt f tool args ↔ ∃ rule∈policy.rules, Forbids rt tool args rule := by
  obtain ⟨-,hrules⟩ := new_ok hf
  rw [Blocks,check_enabled hf he]
  rw [raiseFirst_raises_iff]
  generalize policy.rules=rules at hrules
  generalize f.compiled=compiled at hrules
  induction hrules with
  | nil => simp
  | cons hc hrest ih =>
    rw [List.exists_mem_cons_iff,List.exists_mem_cons_iff,ih,checkRule_raises_iff hc]

/-- The exception names the first rule in policy order that forbids the
call. -/
theorem first_named {tool : String} {args : Json} {v : GuardrailViolation}
    (hv : f.check rt tool args=.error v) : ∃ before rule after, policy.rules=before++rule::after ∧
      (∀ r∈before, ¬Forbids rt tool args r) ∧ Forbids rt tool args rule ∧ v.rule=rule.name := by
  obtain ⟨-,hrules⟩ := new_ok hf
  rw [check_enabled hf he] at hv
  obtain ⟨before,rule,after,hsplit,hbefore,c,hc,hraise⟩ := raiseFirst_first hrules hv
  refine ⟨before,rule,after,hsplit,fun r hr hforbids => ?_,?_,?_⟩
  · obtain ⟨d,hd,hsilent⟩ := hbefore r hr
    obtain ⟨w,hw⟩ := (checkRule_raises_iff hd tool args).mpr hforbids
    rw [hsilent] at hw
    cases hw
  · exact (checkRule_raises_iff hc tool args).mp ⟨v,hraise⟩
  · rw [checkRule_names hraise,(compileRule_ok hc).1]

/-- The enabled filter of a policy blocks exactly the calls that a rule of it
forbids and names the first such rule. A policy with the same rules in another
order has a filter that blocks the same calls, and one with further rules
blocks these at least. -/
theorem check_decides (tool : String) (args : Json) :
    (Blocks rt f tool args ↔ ∃ rule∈policy.rules, Forbids rt tool args rule) ∧
    (∀ v, f.check rt tool args=.error v→
      ∃ before rule after, policy.rules=before++rule::after ∧
        (∀ r∈before, ¬Forbids rt tool args r) ∧ Forbids rt tool args rule ∧ v.rule=rule.name) ∧
    (∀ policy' : GuardrailsPolicy, policy'.enabled=true→policy'.rules.Perm policy.rules→
      ∃ f', SafetyFilter.new rt policy'=.ok f' ∧
        (Blocks rt f' tool args ↔ Blocks rt f tool args)) ∧
    (∀ policy' f', policy'.enabled=true→(∀ rule∈policy.rules, rule∈policy'.rules)→
      SafetyFilter.new rt policy'=.ok f'→Blocks rt f tool args→Blocks rt f' tool args) := by
  refine ⟨blocks_iff hf he tool args,fun v hv => first_named hf he hv,?_,?_⟩
  · intro policy' he' hperm
    have hcompiles := (new_succeeds_iff rt policy).mp ⟨f,hf⟩
    obtain ⟨f',hf'⟩ := (new_succeeds_iff rt policy').mpr
      fun rule hrule => hcompiles rule (hperm.mem_iff.mp hrule)
    refine ⟨f',hf',?_⟩
    rw [blocks_iff hf' he',blocks_iff hf he]
    exact exists_congr fun rule => and_congr_left' hperm.mem_iff
  · intro policy' f' he' hsub hf' hblocks
    rw [blocks_iff hf he] at hblocks
    rw [blocks_iff hf' he']
    obtain ⟨rule,hrule,hforbids⟩ := hblocks
    exact ⟨rule,hsub rule hrule,hforbids⟩

end Policies

/-- A rule against dropping tables. -/
def noDrop : SafetyRule :=
  {name := "no-drop",tool := "execute_sql",forbiddenSubstrings := ["DROP TABLE"]}

theorem check_decides_drop :
    Blocks asciiRuntime ⟨{rules := [noDrop]},[⟨noDrop,[],["drop table"]⟩]⟩ "execute_sql"
      (.obj [("queries",.arr [.null,.str "Drop table users"])]) := by
  have hfilter : SafetyFilter.new asciiRuntime {rules := [noDrop]}=
      .ok ⟨{rules := [noDrop]},[⟨noDrop,[],["drop table"]⟩]⟩ := by rfl
  refine (check_decides hfilter rfl _ _).1.mpr ⟨noDrop,List.mem_cons_self,Or.inr rfl,Or.inl ?_⟩
  refine ⟨"Drop table users",?_,Or.inl ⟨"DROP TABLE",List.mem_cons_self,by decide +kernel⟩⟩
  exact .member List.mem_cons_self (.item (List.mem_cons_of_mem _ List.mem_cons_self) (.str _))

end McpGateway.GuardrailDecision
