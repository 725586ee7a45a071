import Mathlib
import McpGateway.JsonValue
import McpGateway.PyRuntime

/-!
# Validation of arguments against an advertised schema

A missing or empty schema accepts everything unless the validator is strict.
The violations of the library are sorted by path with Python's list
comparison, which raises when it meets a name and an index at one position.
-/

namespace McpGateway.SchemaValidation

open JsonValue PyRuntime

/-- Rejected arguments with their field errors. -/
structure SchemaValidationError where
  /-- Exception text. -/
  message : String
  /-- Pairs of a field path and its error. -/
  fieldErrors : List (String×String)

/-- How a validation fails. -/
inductive SchemaFailure where
  /-- `SchemaValidationError`. -/
  | invalid (error : SchemaValidationError)
  /-- Any other exception, from the library or from the sort. -/
  | crashed (text : String)

/-- The validator of one orchestrator. -/
structure ToolSchemaValidator where
  /-- Whether arguments are validated. -/
  enabled : Bool := true
  /-- Whether a tool without a schema is refused. -/
  strictOnMissingSchema : Bool := false

/-- `a < b` on two path elements that differ. -/
def partLt : PathPart→PathPart→Except String Bool
  | .key a,.key b => .ok (decide (a<b))
  | .index a,.index b => .ok (decide (a<b))
  | .key _,.index _ => .error "'<' not supported between instances of 'str' and 'int'"
  | .index _,.key _ => .error "'<' not supported between instances of 'int' and 'str'"

/-- `a < b` on two paths: the first difference decides, then the length. -/
def pathLt : List PathPart→List PathPart→Except String Bool
  | _,[] => .ok false
  | [],_::_ => .ok true
  | a::as,b::bs => if a=b then pathLt as bs else partLt a b

/-- Insertion behind every issue that is not greater. -/
def insertIssue (issue : SchemaIssue) : List SchemaIssue→Except String (List SchemaIssue)
  | [] => .ok [issue]
  | head::rest =>
    match pathLt issue.path head.path with
    | .error text => .error text
    | .ok true => .ok (issue::head::rest)
    | .ok false => (insertIssue issue rest).map (head::·)

/-- `sorted(errors, key=lambda e: list(e.path))`, stable. -/
def sortIssues : List SchemaIssue→List SchemaIssue→Except String (List SchemaIssue)
  | acc,[] => .ok acc
  | acc,issue::rest =>
    match insertIssue issue acc with
    | .error text => .error text
    | .ok acc => sortIssues acc rest

/-- `str` of a path element. -/
def PathPart.text : PathPart→String
  | .key name => name
  | .index position => toString position

/-- `".".join(path) or "$"`. -/
def fieldName (path : List PathPart) : String :=
  let joined := ".".intercalate (path.map PathPart.text)
  if joined="" then "$" else joined

/-- `validate`. -/
def ToolSchemaValidator.validate (rt : Runtime) (v : ToolSchemaValidator) (toolName : String)
    (arguments : Json) (inputSchema : Option Json) : Except SchemaFailure Unit :=
  if v.enabled=false then .ok ()
  else
    match inputSchema.filter Json.truthy with
    | none =>
      if v.strictOnMissingSchema=true then
        .error (.invalid
          ⟨"tool '"++toolName++"' has no inputSchema and strict validation is enabled",
            [("$","missing inputSchema")]⟩)
      else .ok ()
    | some schema =>
      match rt.iterErrors schema arguments with
      | .error text => .error (.crashed text)
      | .ok issues =>
        match sortIssues [] issues with
        | .error text => .error (.crashed text)
        | .ok [] => .ok ()
        | .ok (issue::rest) =>
          let fieldErrors := (issue::rest).map (fun e => (fieldName e.path,e.message))
          .error (.invalid
            ⟨"tool '"++toolName++"' argument validation failed ("++
              toString fieldErrors.length++" error(s))",fieldErrors⟩)

end McpGateway.SchemaValidation
