import Mathlib
import McpGateway.JsonValue
import McpGateway.PyRuntime
import McpGateway.SchemaValidation
import McpGateway.ErrorPaths

/-!
# Validation against malformed schemas

The validator guards its construction, which does not look at the schema. The
violations are found lazily while they are sorted, outside the guard, so a
schema that the library cannot interpret for the arguments at hand crashes the
validation.
-/

namespace McpGateway.MalformedSchemas

open JsonValue PyRuntime SchemaValidation ErrorPaths

/-- The validation returns or raises `SchemaValidationError`. -/
def Guarded (outcome : Except SchemaFailure Unit) : Prop :=
  outcome=.ok () ∨ ∃ error, outcome=.error (.invalid error)

/-- Violations that are found point into the validated arguments. -/
def PathsPoint (rt : Runtime) (schema arguments : Json) : Prop :=
  ∀ issues, rt.iterErrors schema arguments=.ok issues→∀ e∈issues, PointsInto arguments e.path

/-- The library gets through the violations of the arguments. -/
def Interpreted (rt : Runtime) (schema arguments : Json) : Prop :=
  ∃ issues, rt.iterErrors schema arguments=.ok issues

variable {rt : Runtime} {v : ToolSchemaValidator} {arguments : Json}

/-- A schema that is skipped crashes nothing. -/
theorem guarded_skipped {inputSchema : Option Json} (toolName : String)
    (h : v.enabled=false ∨ inputSchema.filter Json.truthy=none) :
    Guarded (v.validate rt toolName arguments inputSchema) := by
  unfold ToolSchemaValidator.validate
  by_cases he : v.enabled=false
  · rw [if_pos he]
    exact .inl rfl
  · rw [if_neg he,h.resolve_left he]
    dsimp only
    split
    · exact .inr ⟨_,rfl⟩
    · exact .inl rfl

/-- A schema that is read crashes the validation exactly when the library
raises while it finds the violations. -/
theorem guarded_read_iff {schema : Json} (toolName : String) (he : v.enabled=true)
    (ht : schema.truthy=true) (hp : PathsPoint rt schema arguments) :
    Guarded (v.validate rt toolName arguments (some schema)) ↔
      Interpreted rt schema arguments := by
  have hfilter : (some schema).filter Json.truthy=some schema := by
    rw [Option.filter_some,if_pos ht]
  unfold ToolSchemaValidator.validate
  rw [if_neg (by rw [he]; exact Bool.noConfusion),hfilter]
  dsimp only
  cases hi : rt.iterErrors schema arguments with
  | error text =>
    constructor
    · rintro (h | ⟨error,h⟩) <;> cases h
    · rintro ⟨issues,h⟩
      cases hi.symm.trans h
  | ok issues =>
    have hc : ∀ a∈[]++issues, ∀ b∈[]++issues, Comparable a.path b.path := fun a ha b hb =>
      comparable_of_points (hp issues hi a ha) (hp issues hi b hb)
    obtain ⟨out,hout,-⟩ := sortIssues_sorted hc List.Pairwise.nil
    refine iff_of_true ?_ ⟨issues,hi⟩
    dsimp only
    rw [hout]
    cases out with
    | nil => exact .inl rfl
    | cons issue rest => exact .inr ⟨_,rfl⟩

/-- The validation returns or raises `SchemaValidationError` exactly when it is
disabled, the schema is missing or empty, or the library gets through the
violations without an exception. -/
theorem guarded_iff (rt : Runtime) (v : ToolSchemaValidator) (toolName : String)
    (arguments : Json) (inputSchema : Option Json)
    (hp : ∀ schema, inputSchema=some schema→PathsPoint rt schema arguments) :
    Guarded (v.validate rt toolName arguments inputSchema) ↔
      ∀ schema, v.enabled=true→inputSchema=some schema→schema.truthy=true→
        Interpreted rt schema arguments := by
  by_cases hskip : v.enabled=false ∨ inputSchema.filter Json.truthy=none
  · refine iff_of_true (guarded_skipped toolName hskip) fun schema he hs ht => ?_
    rcases hskip with hoff | hnone
    · cases he.symm.trans hoff
    · rw [hs,Option.filter_some,if_pos ht] at hnone
      cases hnone
  · obtain ⟨hon,hread⟩ := not_or.mp hskip
    have he : v.enabled=true := Bool.eq_true_of_not_eq_false hon
    obtain ⟨schema,hs⟩ := Option.ne_none_iff_exists'.mp hread
    obtain ⟨hschema,ht⟩ := Option.filter_eq_some_iff.mp hs
    rw [hschema,guarded_read_iff toolName he ht (hp schema hschema)]
    constructor
    · intro h other _ hsame _
      rw [←Option.some.inj hsame]
      exact h
    · exact fun h => h schema he rfl ht

/-- A schema that requires a member. -/
def requiredSchema : Json := .obj [("required",.arr [.str "query"])]

/-- The library finds that the empty object lacks the member. -/
def requiringRuntime : Runtime := {asciiRuntime with
  iterErrors := fun schema arguments =>
    if schema=requiredSchema ∧ arguments=.obj [] then
      .ok [⟨[],"'query' is a required property"⟩]
    else .ok []}

theorem guarded_required :
    Guarded (({} : ToolSchemaValidator).validate requiringRuntime "search" (.obj [])
      (some requiredSchema)) := by
  have hp : ∀ schema, some requiredSchema=some schema→
      PathsPoint requiringRuntime schema (.obj []) := by
    intro schema hs issues hi e he
    cases hs
    cases hi
    rw [List.mem_singleton.mp he]
    exact ⟨_,rfl⟩
  refine (guarded_iff requiringRuntime {} "search" (.obj []) (some requiredSchema) hp).mpr ?_
  intro schema _ hs _
  cases hs
  exact ⟨_,rfl⟩

/-- A schema with a type that does not exist. -/
def unknownTypeSchema : Json := .obj [("type",.str "foo")]

/-- The library raises `UnknownType` when it comes to the type. -/
def unknownTypeRuntime : Runtime := {asciiRuntime with
  iterErrors := fun schema _ =>
    if schema=unknownTypeSchema then .error "Unknown type 'foo' for validator with schema"
    else .ok []}

theorem unknown_type_crashes :
    ({} : ToolSchemaValidator).validate unknownTypeRuntime "search" (.obj [])
      (some unknownTypeSchema)=
        .error (.crashed "Unknown type 'foo' for validator with schema") ∧
    ¬Guarded (({} : ToolSchemaValidator).validate unknownTypeRuntime "search" (.obj [])
      (some unknownTypeSchema)) := by
  refine ⟨rfl,?_⟩
  rintro (h | ⟨error,h⟩) <;> cases h

end McpGateway.MalformedSchemas
