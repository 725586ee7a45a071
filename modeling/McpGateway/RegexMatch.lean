import Mathlib

/-!
# Prioritized matching of regular expressions

A backtracking matcher as the list of its successes: every way to match from
a cursor, in the order in which a backtracking engine finds them, so the
first one is the match. The fragment has character classes, word boundaries,
sequences and counted greedy or lazy repetition of expressions that consume.
Substitution scans from the left and replaces each non-empty match.
-/

namespace McpGateway.RegexMatch

/-- Expressions of the fragment. -/
inductive Regex where
  /-- One character of a class. -/
  | one (accepts : Char→Bool)
  /-- A position between a word and a non-word character. -/
  | boundary
  /-- One expression after the other. -/
  | seq (first second : Regex)
  /-- Repetition between two counts, the upper one optional. -/
  | rep (least : ℕ) (most : Option ℕ) (greedy : Bool) (body : Regex)

/-- A position in a text. -/
structure Cursor where
  /-- Character before the position, absent at the start. -/
  before : Option Char
  /-- Characters from the position on. -/
  rest : List Char
  deriving DecidableEq

/-- Exactly `n` iterations. -/
def exactly (next : Cursor→List Cursor) : ℕ→Cursor→List Cursor
  | 0,c => [c]
  | n+1,c => (next c).flatMap (exactly next n)

/-- At most `n` further iterations, more or fewer of them first. -/
def upTo (next : Cursor→List Cursor) (greedy : Bool) : ℕ→Cursor→List Cursor
  | 0,c => [c]
  | n+1,c =>
    let more := (next c).flatMap (upTo next greedy n)
    if greedy=true then more++[c] else c::more

section Matching

variable (isWord : Char→Bool)

/-- Whether an optional neighbour is a word character. -/
def wordAt (c : Option Char) : Bool := c.elim false isWord

/-- All cursors at which a match from the given cursor can end, in order of
priority. Without an upper count a repetition consumes at most the text. -/
def ends : Regex→Cursor→List Cursor
  | .one accepts,c =>
    match c.rest with
    | [] => []
    | x::xs => if accepts x=true then [⟨some x,xs⟩] else []
  | .boundary,c =>
    if wordAt isWord c.before=wordAt isWord c.rest.head? then [] else [c]
  | .seq first second,c => (ends first c).flatMap (ends second)
  | .rep least most greedy body,c =>
    (exactly (ends body) least c).flatMap (fun d =>
      upTo (ends body) greedy ((most.map (· -least)).getD d.rest.length) d)

/-- The match at a cursor, when there is one. -/
def matchAt (r : Regex) (c : Cursor) : Option Cursor := (ends isWord r c).head?

/-- Replacement of every non-empty match, scanning from the left with enough
fuel for every character, and the number of replacements. -/
def substitute (r : Regex) (replace : List Char→List Char) : ℕ→Cursor→List Char×ℕ
  | 0,c => (c.rest,0)
  | fuel+1,c =>
    match c.rest with
    | [] => ([],0)
    | x::xs =>
      match matchAt isWord r c with
      | some d =>
        if d.rest.length<c.rest.length then
          let later := substitute r replace fuel d
          (replace (c.rest.take (c.rest.length-d.rest.length))++later.1,later.2+1)
        else
          let later := substitute r replace fuel ⟨some x,xs⟩
          (x::later.1,later.2)
      | none =>
        let later := substitute r replace fuel ⟨some x,xs⟩
        (x::later.1,later.2)

/-- `pattern.subn`: replaced text and number of replacements. -/
def subn (r : Regex) (replace : List Char→List Char) (text : List Char) : List Char×ℕ :=
  substitute isWord r replace text.length ⟨none,text⟩

end Matching

end McpGateway.RegexMatch
