import Mathlib

/-!
# Python text operations on code point strings

`str` values are finite sequences of code points, so every operation reads
the character list of a Lean string. Only slicing, the starting test, the
substring test and one-character partition occur; each has its exact
algebraic specification here and is opaque to later modules.
-/

namespace McpGateway.PyText

/-- `text.startswith(start)`. -/
def startswith (text start : String) : Bool := start.toList.isPrefixOf text.toList

/-- `text[n:]`, clamped like a Python slice. -/
def dropChars (text : String) (n : ℕ) : String := String.ofList (text.toList.drop n)

/-- `text[:n]`, clamped like a Python slice. -/
def takeChars (text : String) (n : ℕ) : String := String.ofList (text.toList.take n)

/-- `part in text`. -/
def isIn (part text : String) : Bool := decide (part.toList<:+:text.toList)

/-- `text.partition(sep)` without its separator, absent when `sep not in text`. -/
def partitionAt (sep : Char) (text : String) : Option (String×String) :=
  if sep∈text.toList then
    some (String.ofList (text.toList.takeWhile (· ≠ sep)),
      String.ofList ((text.toList.dropWhile (· ≠ sep)).drop 1))
  else none

/-- `value or default` on an optional text: both `None` and `""` are false. -/
def orText (value : Option String) (default : String) : String :=
  match value with
  | some text => if text="" then default else text
  | none => default

/-- Python truth of an optional text. -/
def present (value : Option String) : Bool := decide (orText value ""≠"")

/-- The starting test succeeds exactly on an appended remainder. -/
theorem startswith_iff {text start : String} :
    startswith text start=true ↔ ∃ rest, text=start++rest := by
  rw [startswith,List.isPrefixOf_iff_prefix]
  constructor
  · rintro ⟨rest,h⟩
    refine ⟨String.ofList rest,String.toList_inj.mp ?_⟩
    rw [String.toList_append,String.toList_ofList,h]
  · rintro ⟨rest,rfl⟩
    exact ⟨rest.toList,String.toList_append.symm⟩

/-- Every appended text starts with its first part. -/
@[simp] theorem startswith_append (start rest : String) :
    startswith (start++rest) start=true := startswith_iff.mpr ⟨rest,rfl⟩

/-- Slicing off a known first part returns the appended remainder. -/
@[simp] theorem dropChars_append (start rest : String) :
    dropChars (start++rest) start.length=rest := by
  rw [dropChars,String.toList_append,←String.length_toList,List.drop_left,String.ofList_toList]

end McpGateway.PyText
