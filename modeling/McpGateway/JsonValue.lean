import Mathlib

/-!
# JSON values and their sorted-key rendering

Requests, tool results and schemas are JSON trees nested to any depth.
Numbers keep the distinction Python makes between integers and floats.
Rendering follows the documented default of a JSON encoder with sorted keys:
fixed separators, ASCII output and escaped control characters.
-/

namespace McpGateway.JsonValue

/-- A floating point number, exact except for the values without one. -/
inductive PyFloat where
  /-- Not a number; every comparison with it fails. -/
  | nan
  /-- Signed infinity. -/
  | inf (negative : Bool)
  /-- Negative zero, equal to zero and printed differently. -/
  | negZero
  /-- Any other float, by its exact value. -/
  | finite (value : ℚ)
  deriving DecidableEq

/-- Python's `<` on numbers, false as soon as one side is not a number. -/
def PyFloat.lt : PyFloat→PyFloat→Bool
  | .nan,_ => false
  | _,.nan => false
  | .inf true,.inf true => false
  | .inf true,_ => true
  | _,.inf true => false
  | .inf false,_ => false
  | _,.inf false => true
  | .negZero,.negZero => false
  | .negZero,.finite y => decide (0<y)
  | .finite x,.negZero => decide (x<0)
  | .finite x,.finite y => decide (x<y)

/-- A JSON tree. Objects keep their member order. -/
inductive Json where
  /-- `null`, Python's `None`. -/
  | null
  /-- A Boolean. -/
  | bool (value : Bool)
  /-- An integer. -/
  | int (value : ℤ)
  /-- A float. -/
  | float (value : PyFloat)
  /-- A string. -/
  | str (value : String)
  /-- A list. -/
  | arr (items : List Json)
  /-- An object with its members in insertion order. -/
  | obj (fields : List (String×Json))

namespace Json

/-- Induction over a tree through its list elements and object members. -/
@[elab_as_elim]
theorem induction {motive : Json→Prop} (null : motive .null) (bool : ∀ b, motive (.bool b))
    (int : ∀ n, motive (.int n)) (float : ∀ x, motive (.float x)) (str : ∀ s, motive (.str s))
    (arr : ∀ items, (∀ v∈items, motive v)→motive (.arr items))
    (obj : ∀ fields : List (String×Json), (∀ m∈fields, motive m.2)→motive (.obj fields)) :
    ∀ v, motive v
  | .null => null
  | .bool b => bool b
  | .int n => int n
  | .float x => float x
  | .str s => str s
  | .arr items => arr items fun v _ => induction null bool int float str arr obj v
  | .obj fields => obj fields fun m _ => induction null bool int float str arr obj m.2
termination_by v => sizeOf v
decreasing_by
  · have := List.sizeOf_lt_of_mem ‹v∈items›
    simp only [Json.arr.sizeOf_spec]
    omega
  · have hm := List.sizeOf_lt_of_mem ‹m∈fields›
    have hp : sizeOf m=1+sizeOf m.1+sizeOf m.2 := by cases m; rfl
    simp only [Json.obj.sizeOf_spec]
    omega

mutual

/-- Structural equality test. -/
def beq : Json→Json→Bool
  | .null,.null => true
  | .bool a,.bool b => a==b
  | .int a,.int b => a==b
  | .float a,.float b => decide (a=b)
  | .str a,.str b => a==b
  | .arr a,.arr b => beqItems a b
  | .obj a,.obj b => beqFields a b
  | _,_ => false

/-- Element-wise equality test. -/
def beqItems : List Json→List Json→Bool
  | [],[] => true
  | a::as,b::bs => beq a b && beqItems as bs
  | _,_ => false

/-- Member-wise equality test, order included. -/
def beqFields : List (String×Json)→List (String×Json)→Bool
  | [],[] => true
  | (k,a)::as,(l,b)::bs => (k==l) && beq a b && beqFields as bs
  | _,_ => false

end

/-- The equality test decides equality. -/
theorem beq_iff (a : Json) : ∀ b, beq a b=true ↔ a=b := by
  induction a using induction with
  | null => intro b; cases b <;> simp [beq]
  | bool x => intro b; cases b <;> simp [beq]
  | int x => intro b; cases b <;> simp [beq]
  | float x => intro b; cases b <;> simp [beq]
  | str x => intro b; cases b <;> simp [beq]
  | arr items ih =>
    have hitems : ∀ bs, beqItems items bs=true ↔ items=bs := by
      induction items with
      | nil => intro bs; cases bs <;> simp [beqItems]
      | cons v vs ihv =>
        intro bs
        cases bs with
        | nil => simp [beqItems]
        | cons w ws =>
          rw [beqItems,Bool.and_eq_true,ih v (by simp),
            ihv (fun u hu => ih u (List.mem_cons_of_mem _ hu)),List.cons.injEq]
    intro b
    cases b <;> simp [beq,hitems]
  | obj fields ih =>
    have hfields : ∀ bs, beqFields fields bs=true ↔ fields=bs := by
      induction fields with
      | nil => intro bs; cases bs <;> simp [beqFields]
      | cons m ms ihm =>
        obtain ⟨k,v⟩ := m
        intro bs
        cases bs with
        | nil => simp [beqFields]
        | cons w ws =>
          obtain ⟨l,w⟩ := w
          rw [beqFields,Bool.and_eq_true,Bool.and_eq_true,ih (k,v) (by simp),
            ihm (fun u hu => ih u (List.mem_cons_of_mem _ hu)),List.cons.injEq,Prod.mk.injEq,
            beq_iff_eq]
    intro b
    cases b <;> simp [beq,hfields]

instance : DecidableEq Json := fun a b => decidable_of_iff (beq a b=true) (beq_iff a b)

/-- `v.get(key)` of an object; absent on every other value. -/
def get? (v : Json) (key : String) : Option Json :=
  match v with
  | .obj fields => (fields.find? (fun m => m.1==key)).map Prod.snd
  | _ => none

/-- The value as a number; Booleans are excluded. -/
def number? : Json→Option PyFloat
  | .int n => some (.finite n)
  | .float x => some x
  | _ => none

/-- Python truth of a value as in `if not value`. -/
def truthy : Json→Bool
  | .null => false
  | .bool b => b
  | .int n => decide (n≠0)
  | .float x => decide (x≠.negZero ∧ x≠.finite 0)
  | .str s => decide (s≠"")
  | .arr items => decide (items.length≠0)
  | .obj fields => decide (fields.length≠0)

/-- One hexadecimal digit. -/
def hexDigit (n : ℕ) : Char := if n<10 then Char.ofNat (48+n) else Char.ofNat (87+n)

/-- A `\uXXXX` escape of one 16 bit unit. -/
def unicodeEscape (n : ℕ) : List Char :=
  ['\\','u',hexDigit (n/4096%16),hexDigit (n/256%16),hexDigit (n/16%16),hexDigit (n%16)]

/-- ASCII rendering of one character inside a string. -/
def escapeChar (c : Char) : List Char :=
  if c = '"' then ['\\','"']
  else if c = '\\' then ['\\','\\']
  else if c = '\n' then ['\\','n']
  else if c = '\r' then ['\\','r']
  else if c = '\t' then ['\\','t']
  else if c.toNat=12 then ['\\','f']
  else if c.toNat=8 then ['\\','b']
  else if 32≤c.toNat ∧ c.toNat≤126 then [c]
  else if c.toNat<65536 then unicodeEscape c.toNat
  else unicodeEscape (55296+(c.toNat-65536)/1024)++unicodeEscape (56320+(c.toNat-65536)%1024)

/-- A quoted string. -/
def renderString (s : String) : List Char := '"'::s.toList.flatMap escapeChar++['"']

/-- Rendered parts separated by a comma and a blank. -/
def commaJoin : List (List Char)→List Char
  | [] => []
  | [part] => part
  | part::rest => part++[',',' ']++commaJoin rest

/-- A digit, a sign, a point or an exponent mark. -/
def numeric (c : Char) : Bool := c.isDigit || decide (c∈['+','-','.','e'])

/-- A printed number has some characters, all of them numeric. -/
def Numeral (text : List Char) : Prop := text≠[] ∧ text.all numeric=true

instance (text : List Char) : Decidable (Numeral text) :=
  inferInstanceAs (Decidable (text≠[] ∧ text.all numeric=true))

/-- Rendering of a float; finite values are printed by the given function. -/
def renderFloat (repr : ℚ→String) : PyFloat→List Char
  | .nan => "NaN".toList
  | .inf true => "-Infinity".toList
  | .inf false => "Infinity".toList
  | .negZero => "-0.0".toList
  | .finite q => (repr q).toList

mutual

/-- Characters of `json.dumps(value, sort_keys=True)`. -/
def render (repr : ℚ→String) : Json→List Char
  | .null => "null".toList
  | .bool true => "true".toList
  | .bool false => "false".toList
  | .int n => (toString n).toList
  | .float x => renderFloat repr x
  | .str s => renderString s
  | .arr items => '['::commaJoin (renderItems repr items)++[']']
  | .obj fields =>
    '\x7b'::commaJoin (((renderFields repr fields).insertionSort (fun a b => a.1≤b.1)).map
      (fun m => renderString m.1++[':',' ']++m.2))++['\x7d']

/-- Rendered list elements in order. -/
def renderItems (repr : ℚ→String) : List Json→List (List Char)
  | [] => []
  | v::vs => render repr v::renderItems repr vs

/-- Rendered member values under their keys, before sorting. -/
def renderFields (repr : ℚ→String) : List (String×Json)→List (String×List Char)
  | [] => []
  | (k,v)::vs => (k,render repr v)::renderFields repr vs

end

/-- `json.dumps(value, sort_keys=True)`. -/
def dumps (repr : ℚ→String) (v : Json) : String := String.ofList (v.render repr)

end Json

example : (Json.obj [("b",.arr [.int (-2),.null]),("a",.str "x\n\"")]).dumps (fun _ => "")=
    "\x7b\"a\": \"x\\n\\\"\", \"b\": [-2, null]\x7d" := by decide

end McpGateway.JsonValue
