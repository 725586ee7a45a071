import Mathlib
import McpGateway.JsonValue

/-!
# Library functions the gateway calls

Unicode tables, user-supplied patterns, unusual format fields, number
printing, SHA-256, the JSON Schema validator and the text analyzer are
parameters: every result holds for all of them. The reference instance covers
ASCII text, policies without patterns and argument-free calls, and has no
analyzer.
-/

namespace McpGateway.PyRuntime

open JsonValue

/-- One detected span of a text analyzer. -/
structure AnalyzerResult where
  /-- Detected entity kind. -/
  entityType : String
  /-- First character of the span. -/
  start : ℕ
  /-- First character after the span. -/
  stop : ℕ

/-- `analyze` with text, entities and score threshold: spans or an exception. -/
abbrev Analyzer := String→List String→ℚ→Except String (List AnalyzerResult)

/-- One step of a path into an argument value. -/
inductive PathPart where
  /-- A member name. -/
  | key (name : String)
  /-- A list index. -/
  | index (position : ℕ)
  deriving DecidableEq

/-- One violation found by a schema validator. -/
structure SchemaIssue where
  /-- Location of the violating value. -/
  path : List PathPart
  /-- Description. -/
  message : String

/-- The library functions of one process. -/
structure Runtime where
  /-- `str.lower`. -/
  lower : String→String
  /-- The decimal digits that `\d` matches. -/
  isDecimal : Char→Bool
  /-- The word characters of `\w` and `\b`. -/
  isWord : Char→Bool
  /-- `re.compile(p, re.IGNORECASE)` with the truth of its `search`. -/
  compile : String→Except String (String→Bool)
  /-- `str.format` of a template that starts with anything but text, an
  escaped brace or the plain field `entity`, given the entity. -/
  formatRest : String→String→Except String String
  /-- A replacement template with backslashes, applied to a whole match. -/
  expandTemplate : String→Except String (String→String)
  /-- `repr` of a finite float. -/
  reprFloat : ℚ→String
  /-- A finite float is printed as a number. -/
  reprFloat_numeral : ∀ q, Json.Numeral (reprFloat q).toList
  /-- `str` of a list or object. -/
  strValue : Json→String
  /-- Hexadecimal SHA-256 digest of the UTF-8 encoding. -/
  sha256 : String→String
  /-- A digest has 64 digits. -/
  sha256_length : ∀ text, (sha256 text).length=64
  /-- `Draft7Validator(schema).iter_errors(instance)`, or its exception. -/
  iterErrors : Json→Json→Except String (List SchemaIssue)
  /-- The analyzer engine, when its package can be loaded. -/
  analyzer : Option Analyzer

/-- ASCII decimal digits. -/
def asciiDigit (c : Char) : Bool := decide (48≤c.toNat) && decide (c.toNat≤57)

/-- ASCII letters. -/
def asciiLetter (c : Char) : Bool :=
  (decide (65≤c.toNat) && decide (c.toNat≤90)) || (decide (97≤c.toNat) && decide (c.toNat≤122))

/-- Tables for ASCII text; the digest is that of the empty object's text. -/
def asciiRuntime : Runtime where
  lower := fun text => String.ofList (text.toList.map Char.toLower)
  isDecimal := asciiDigit
  isWord := fun c => asciiLetter c || asciiDigit c || decide (c = '_')
  compile := fun _ => .error "no patterns"
  formatRest := fun _ _ => .error "no such field"
  expandTemplate := fun _ => .error "bad escape"
  reprFloat := fun _ => "0.0"
  reprFloat_numeral := fun _ => (by decide)
  strValue := fun _ => ""
  sha256 := fun _ => "44136fa355b3678a1146ad16f7e8649e94fb4fc21fe77e8310c060f61caaff8a"
  sha256_length := fun _ => rfl
  iterErrors := fun _ _ => .ok []
  analyzer := none

end McpGateway.PyRuntime
