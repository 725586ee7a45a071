import Mathlib
import McpGateway.JsonValue

/-!
# Unambiguity of rendered JSON

Rendering first spells a value, which writes out its leaves and sorts its
members, and then prints the spelling. A printed string can be read back, and
a printed spelling ends where its delimiter begins, so equal texts are
printings of equal spellings.
-/

namespace McpGateway.JsonEncoding

open JsonValue

/-- A value with printed leaves and members sorted by key. -/
inductive Spelled where
  /-- A keyword or a number. -/
  | word (text : List Char)
  /-- A string. -/
  | str (value : String)
  /-- A list. -/
  | arr (items : List Spelled)
  /-- An object. -/
  | obj (fields : List (String×Spelled))

namespace Spelled

/-- Induction over a spelling through its items and members. -/
@[elab_as_elim]
theorem induction {motive : Spelled→Prop} (word : ∀ text, motive (.word text))
    (str : ∀ s, motive (.str s))
    (arr : ∀ items, (∀ v∈items, motive v)→motive (.arr items))
    (obj : ∀ fields : List (String×Spelled), (∀ m∈fields, motive m.2)→motive (.obj fields)) :
    ∀ v, motive v
  | .word text => word text
  | .str s => str s
  | .arr items => arr items fun v _ => induction word str arr obj v
  | .obj fields => obj fields fun m _ => induction word str arr obj m.2
termination_by v => sizeOf v
decreasing_by
  · have := List.sizeOf_lt_of_mem ‹v∈items›
    simp only [Spelled.arr.sizeOf_spec]
    omega
  · have hm := List.sizeOf_lt_of_mem ‹m∈fields›
    have hp : sizeOf m=1+sizeOf m.1+sizeOf m.2 := by cases m; rfl
    simp only [Spelled.obj.sizeOf_spec]
    omega

mutual

/-- Characters of a spelling. -/
def print : Spelled→List Char
  | .word text => text
  | .str s => Json.renderString s
  | .arr items => '['::Json.commaJoin (printItems items)++[']']
  | .obj fields => '\x7b'::Json.commaJoin (printFields fields)++['\x7d']

/-- Printed items in order. -/
def printItems : List Spelled→List (List Char)
  | [] => []
  | v::vs => print v::printItems vs

/-- Printed members in order. -/
def printFields : List (String×Spelled)→List (List Char)
  | [] => []
  | (k,v)::vs => (Json.renderString k++[':',' ']++print v)::printFields vs

end

/-- A printed member. -/
def printField (m : String×Spelled) : List Char := Json.renderString m.1++[':',' ']++print m.2

/-- Items are printed one by one. -/
theorem printItems_map (items : List Spelled) : printItems items=items.map print := by
  induction items with
  | nil => rfl
  | cons v vs ih => rw [printItems,ih,List.map_cons]

/-- So are members. -/
theorem printFields_map (fields : List (String×Spelled)) :
    printFields fields=fields.map printField := by
  induction fields with
  | nil => rfl
  | cons m ms ih =>
    obtain ⟨k,v⟩ := m
    rw [printFields,ih,List.map_cons]
    rfl

end Spelled

mutual

/-- The spelling of a value. -/
def spell (repr : ℚ→String) : Json→Spelled
  | .null => .word "null".toList
  | .bool true => .word "true".toList
  | .bool false => .word "false".toList
  | .int n => .word (toString n).toList
  | .float x => .word (Json.renderFloat repr x)
  | .str s => .str s
  | .arr items => .arr (spellItems repr items)
  | .obj fields => .obj ((spellFields repr fields).insertionSort (fun a b => a.1≤b.1))

/-- Spelled items in order. -/
def spellItems (repr : ℚ→String) : List Json→List Spelled
  | [] => []
  | v::vs => spell repr v::spellItems repr vs

/-- Spelled members, before sorting. -/
def spellFields (repr : ℚ→String) : List (String×Json)→List (String×Spelled)
  | [] => []
  | (k,v)::vs => (k,spell repr v)::spellFields repr vs

end

/-- Spelled items, one for each element. -/
theorem spellItems_map {repr : ℚ→String} (items : List Json) :
    spellItems repr items=items.map (spell repr) := by
  induction items with
  | nil => rfl
  | cons v vs ih => rw [spellItems,ih,List.map_cons]

/-- Spelled members in the order of the members. -/
theorem spellFields_map {repr : ℚ→String} (fields : List (String×Json)) :
    spellFields repr fields=fields.map (fun m => (m.1,spell repr m.2)) := by
  induction fields with
  | nil => rfl
  | cons m ms ih =>
    obtain ⟨k,v⟩ := m
    rw [spellFields,ih,List.map_cons]

/-- Rendering prints the spelling. -/
theorem render_eq_print (repr : ℚ→String) (v : Json) : v.render repr=(spell repr v).print := by
  induction v using Json.induction with
  | null => rfl
  | bool b => cases b <;> rfl
  | int n => rfl
  | float x => rfl
  | str s => rfl
  | arr items ih =>
    have hitems : Json.renderItems repr items=Spelled.printItems (spellItems repr items) := by
      induction items with
      | nil => rfl
      | cons v vs ihv =>
        have hhead := ih v List.mem_cons_self
        have htail := ihv (fun u hu => ih u (List.mem_cons_of_mem _ hu))
        rw [Json.renderItems,spellItems,Spelled.printItems,hhead,htail]
    rw [Json.render,spell,Spelled.print,hitems]
  | obj fields ih =>
    have hfields : Json.renderFields repr fields=
        (spellFields repr fields).map (fun m => (m.1,m.2.print)) := by
      induction fields with
      | nil => rfl
      | cons m ms ihm =>
        obtain ⟨k,v⟩ := m
        have hhead := ih (k,v) List.mem_cons_self
        have htail := ihm (fun u hu => ih u (List.mem_cons_of_mem _ hu))
        rw [Json.renderFields,spellFields,List.map_cons,hhead,htail]
    have hsort := List.map_insertionSort (r:=fun a b : String×Spelled => a.1≤b.1)
      (s:=fun a b : String×List Char => a.1≤b.1) (f:=fun m => (m.1,m.2.print))
      (spellFields repr fields) (fun a _ b _ => Iff.rfl)
    rw [Json.render,spell,Spelled.print,Spelled.printFields_map,hfields,←hsort,List.map_map]
    rfl

/-- Value of a hexadecimal digit as it is printed. -/
def hexValue (c : Char) : ℕ := if c.toNat<58 then c.toNat-48 else c.toNat-87

/-- Value of four digits. -/
def hexUnit (a b c d : Char) : ℕ :=
  hexValue a*4096+hexValue b*256+hexValue c*16+hexValue d

/-- The first character of a printed string's inside, with what follows it;
nothing at a closing quote. -/
def readChar : List Char→Option (Char×List Char)
  | '\\' :: 'u' :: a::b::c::d::rest =>
    let unit := hexUnit a b c d
    if 55296≤unit ∧ unit<56320 then
      match rest with
      | '\\' :: 'u' :: e::f::g::h::rest' =>
        some (Char.ofNat (65536+(unit-55296)*1024+(hexUnit e f g h-56320)),rest')
      | _ => none
    else some (Char.ofNat unit,rest)
  | '\\' :: 'n' :: rest => some ('\n',rest)
  | '\\' :: 'r' :: rest => some ('\r',rest)
  | '\\' :: 't' :: rest => some ('\t',rest)
  | '\\' :: 'f' :: rest => some (Char.ofNat 12,rest)
  | '\\' :: 'b' :: rest => some (Char.ofNat 8,rest)
  | '\\' :: c::rest => some (c,rest)
  | '"' :: _ => none
  | c::rest => some (c,rest)
  | [] => none

/-- A printed digit has its value. -/
theorem hexValue_hexDigit {n : ℕ} (h : n<16) : hexValue (Json.hexDigit n)=n := by
  interval_cases n <;> rfl

/-- Four printed digits of a unit have its value. -/
theorem hexUnit_digits {n : ℕ} (h : n<65536) :
    hexUnit (Json.hexDigit (n/4096%16)) (Json.hexDigit (n/256%16)) (Json.hexDigit (n/16%16))
      (Json.hexDigit (n%16))=n := by
  have hdigit : ∀ m : ℕ, hexValue (Json.hexDigit (m%16))=m%16 :=
    fun m => hexValue_hexDigit (Nat.mod_lt m (by omega))
  unfold hexUnit
  rw [hdigit,hdigit,hdigit,hdigit]
  omega

/-- A unit that is no high surrogate is read back as its character. -/
theorem readChar_unit {n : ℕ} (h : n<65536) (hs : ¬(55296≤n ∧ n<56320)) (rest : List Char) :
    readChar (Json.unicodeEscape n++rest)=some (Char.ofNat n,rest) := by
  unfold Json.unicodeEscape
  simp only [List.cons_append,List.nil_append,readChar]
  rw [hexUnit_digits h,if_neg hs]

/-- A surrogate pair is read back as one character. -/
theorem readChar_pair {n : ℕ} (h : n<1048576) (rest : List Char) :
    readChar (Json.unicodeEscape (55296+n/1024)++Json.unicodeEscape (56320+n%1024)++rest)=
      some (Char.ofNat (65536+n),rest) := by
  have hhigh : n/1024<1024 := by omega
  have hlow : n%1024<1024 := Nat.mod_lt n (by omega)
  unfold Json.unicodeEscape
  simp only [List.cons_append,List.nil_append,readChar]
  rw [hexUnit_digits (by omega),hexUnit_digits (by omega),if_pos (by omega)]
  have hvalue : 65536+(55296+n/1024-55296)*1024+(56320+n%1024-56320)=65536+n := by omega
  rw [hvalue]

/-- A character that needs no escape is read as it is. -/
theorem readChar_plain {c : Char} (hquote : c≠ '"') (hslash : c≠ '\\') (rest : List Char) :
    readChar (c::rest)=some (c,rest) := by
  unfold readChar
  split
  all_goals first
    | rename_i h; exact absurd (List.cons.inj h).1 hslash
    | skip
  · rename_i h
    exact absurd (List.cons.inj h).1 hquote
  · rename_i h
    cases h
    rfl
  · rename_i h
    cases h

/-- The code point of a character is no surrogate and below the last plane. -/
theorem toNat_valid (c : Char) :
    c.toNat<55296 ∨ (57343<c.toNat ∧ c.toNat<1114112) := c.valid

/-- A printed character is read back. -/
theorem readChar_escapeChar (c : Char) (rest : List Char) :
    readChar (Json.escapeChar c++rest)=some (c,rest) := by
  have hback : Char.ofNat c.toNat=c := Char.ofNat_toNat c
  have hvalid := toNat_valid c
  unfold Json.escapeChar
  split_ifs with hquote hslash hn hr ht hf hb hplain hunit
  · rw [hquote]
    rfl
  · rw [hslash]
    rfl
  · rw [hn]
    rfl
  · rw [hr]
    rfl
  · rw [ht]
    rfl
  · rw [←hback,hf]
    rfl
  · rw [←hback,hb]
    rfl
  · exact readChar_plain hquote hslash rest
  · rw [readChar_unit hunit (by omega),hback]
  · rw [readChar_pair (by omega)]
    have hsum : 65536+(c.toNat-65536)=c.toNat := by omega
    rw [hsum,hback]

/-- Printed strings before any texts are equal only for equal strings. -/
theorem escape_inj {s t : List Char} {x y : List Char}
    (h : s.flatMap Json.escapeChar++ '"' :: x=t.flatMap Json.escapeChar++ '"' :: y) :
    s=t ∧ x=y := by
  induction s generalizing t with
  | nil =>
    cases t with
    | nil => exact ⟨rfl,(List.cons.inj h).2⟩
    | cons d t =>
      have hread := congrArg readChar h
      rw [List.flatMap_cons,List.append_assoc,readChar_escapeChar] at hread
      cases hread
  | cons c s ih =>
    cases t with
    | nil =>
      have hread := congrArg readChar h
      rw [List.flatMap_cons,List.append_assoc,readChar_escapeChar] at hread
      cases hread
    | cons d t =>
      have hread := congrArg readChar h
      rw [List.flatMap_cons,List.flatMap_cons,List.append_assoc,List.append_assoc,
        readChar_escapeChar,readChar_escapeChar] at hread
      obtain ⟨hchar,hrest⟩ := Prod.mk.inj (Option.some.inj hread)
      obtain ⟨htail,hafter⟩ := ih hrest
      exact ⟨by rw [hchar,htail],hafter⟩

/-- A quoted string ends where it is closed. -/
theorem renderString_inj {s t : String} {x y : List Char}
    (h : Json.renderString s++x=Json.renderString t++y) : s=t ∧ x=y := by
  unfold Json.renderString at h
  simp only [List.cons_append,List.append_assoc,List.nil_append,List.cons.injEq,true_and] at h
  obtain ⟨hchars,hafter⟩ := escape_inj h
  exact ⟨String.toList_inj.mp hchars,hafter⟩

/-- The characters that delimit or begin anything but a keyword or number. -/
def reserved : List Char := [',',']','\x7d','"','[','\x7b']

/-- What can follow a value: nothing, or a text that begins with a delimiter. -/
def Ends (x : List Char) : Prop := ∀ c∈x.head?, c∈[',',']','\x7d']

/-- Whether a character can be part of a keyword or number. -/
def plain (c : Char) : Bool := decide (c∉reserved)

/-- A keyword or number has some characters, none of them reserved. -/
def Word (text : List Char) : Prop := text≠[] ∧ text.all plain=true

instance (text : List Char) : Decidable (Word text) :=
  inferInstanceAs (Decidable (text≠[] ∧ text.all plain=true))

/-- Delimiters are reserved. -/
theorem Ends.reserved {x : List Char} (h : Ends x) : ∀ c∈x.head?, c∈JsonEncoding.reserved := by
  intro c hc
  have hd := h c hc
  simp only [List.mem_cons,List.not_mem_nil,or_false] at hd
  rcases hd with rfl | rfl | rfl <;> decide

/-- A word is the part of a text before the first reserved character. -/
theorem word_takeWhile {text x : List Char} (ht : Word text) (hx : Ends x) :
    (text++x).takeWhile plain=text := by
  have hafter : x.takeWhile plain=[] := by
    cases x with
    | nil => rfl
    | cons c rest =>
      have hc := hx.reserved c rfl
      rw [List.takeWhile_cons_of_neg (by simp [plain,hc])]
  rw [List.takeWhile_append_of_pos (List.all_eq_true.mp ht.2),hafter,List.append_nil]

/-- A word ends where its delimiter begins. -/
theorem word_inj {text text' x y : List Char} (ht : Word text) (ht' : Word text') (hx : Ends x)
    (hy : Ends y) (h : text++x=text'++y) : text=text' ∧ x=y := by
  have htext : text=text' := by
    rw [←word_takeWhile ht hx,h,word_takeWhile ht' hy]
  rw [htext] at h
  exact ⟨htext,List.append_cancel_left h⟩

section Joined

variable {β : Type} (p : β→List Char)

/-- Parts behind a first one. -/
def follow (parts : List β) : List Char := parts.flatMap (fun b => ',':: ' '::p b)

/-- Joined parts are the first one and those behind it. -/
theorem commaJoin_map (b : β) (bs : List β) :
    Json.commaJoin ((b::bs).map p)=p b++follow p bs := by
  induction bs generalizing b with
  | nil => simp [Json.commaJoin,follow]
  | cons b' bs ih =>
    rw [List.map_cons,List.map_cons,Json.commaJoin,←List.map_cons,ih b']
    · simp [follow]
    · simp

variable {p}

/-- Parts behind a first one are followed by a delimiter. -/
theorem follow_ends {close : Char} (hclose : close∈[']','\x7d']) (parts : List β)
    (x : List Char) : Ends (follow p parts++close::x) := by
  intro c hc
  cases parts with
  | nil =>
    cases hc
    exact List.mem_cons_of_mem _ hclose
  | cons b bs =>
    cases hc
    exact List.mem_cons_self

/-- Parts that end at their delimiters are found again behind a first one. -/
theorem follow_inj {close : Char} (hclose : close∈[']','\x7d']) {as bs : List β}
    {x y : List Char}
    (hself : ∀ a∈as, ∀ b∈bs, ∀ x y, Ends x→Ends y→p a++x=p b++y→a=b ∧ x=y)
    (h : follow p as++close::x=follow p bs++close::y) : as=bs ∧ x=y := by
  have hcomma : close≠ ',' := by
    simp only [List.mem_cons,List.not_mem_nil,or_false] at hclose
    rcases hclose with rfl | rfl <;> decide
  induction as generalizing bs with
  | nil =>
    cases bs with
    | nil => exact ⟨rfl,(List.cons.inj h).2⟩
    | cons b bs => exact absurd (List.cons.inj h).1 hcomma
  | cons a as ih =>
    cases bs with
    | nil => exact absurd (List.cons.inj h).1.symm hcomma
    | cons b bs =>
      simp only [follow,List.flatMap_cons,List.cons_append,List.append_assoc,List.cons.injEq,
        true_and] at h
      obtain ⟨hab,hrest⟩ := hself a List.mem_cons_self b List.mem_cons_self _ _
        (follow_ends hclose as x) (follow_ends hclose bs y) h
      obtain ⟨htail,hafter⟩ := ih (fun a' ha b' hb =>
        hself a' (List.mem_cons_of_mem _ ha) b' (List.mem_cons_of_mem _ hb)) hrest
      exact ⟨by rw [hab,htail],hafter⟩

/-- So are joined parts, when no part begins with the closing character. -/
theorem join_inj {close : Char} (hclose : close∈[']','\x7d']) {as bs : List β} {x y : List Char}
    (hself : ∀ a∈as, ∀ b∈bs, ∀ x y, Ends x→Ends y→p a++x=p b++y→a=b ∧ x=y)
    (hstart : ∀ b, b∈as ∨ b∈bs→∃ c rest, p b=c::rest ∧ c≠close)
    (h : Json.commaJoin (as.map p)++close::x=Json.commaJoin (bs.map p)++close::y) :
    as=bs ∧ x=y := by
  cases as with
  | nil =>
    cases bs with
    | nil => exact ⟨rfl,(List.cons.inj h).2⟩
    | cons b bs =>
      obtain ⟨c,rest,hb,hc⟩ := hstart b (Or.inr List.mem_cons_self)
      rw [commaJoin_map,hb] at h
      exact absurd (List.cons.inj h).1.symm hc
  | cons a as =>
    cases bs with
    | nil =>
      obtain ⟨c,rest,ha,hc⟩ := hstart a (Or.inl List.mem_cons_self)
      rw [commaJoin_map,ha] at h
      exact absurd (List.cons.inj h).1 hc
    | cons b bs =>
      rw [commaJoin_map,commaJoin_map,List.append_assoc,List.append_assoc] at h
      obtain ⟨hab,hrest⟩ := hself a List.mem_cons_self b List.mem_cons_self _ _
        (follow_ends hclose as x) (follow_ends hclose bs y) h
      obtain ⟨htail,hafter⟩ := follow_inj hclose (fun a' ha b' hb =>
        hself a' (List.mem_cons_of_mem _ ha) b' (List.mem_cons_of_mem _ hb)) hrest
      exact ⟨by rw [hab,htail],hafter⟩

end Joined

/-- A spelling whose leaves are words. -/
inductive Clean : Spelled→Prop where
  /-- A keyword or number. -/
  | word (text : List Char) (h : Word text) : Clean (.word text)
  /-- A string. -/
  | str (s : String) : Clean (.str s)
  /-- A list of clean spellings. -/
  | arr (items : List Spelled) (h : ∀ v∈items, Clean v) : Clean (.arr items)
  /-- An object with clean members. -/
  | obj (fields : List (String×Spelled)) (h : ∀ m∈fields, Clean m.2) : Clean (.obj fields)

/-- The character that a spelling of a kind begins with. -/
def Begins : Spelled→Char→Prop
  | .word _,c => c∉reserved
  | .str _,c => c = '"'
  | .arr _,c => c = '['
  | .obj _,c => c = '\x7b'

/-- Clean spellings begin like their kind. -/
theorem print_begins {v : Spelled} (h : Clean v) : ∃ c rest, v.print=c::rest ∧ Begins v c := by
  cases h with
  | word text h =>
    cases text with
    | nil => exact absurd rfl h.1
    | cons c rest =>
      have hplain : plain c=true := List.all_eq_true.mp h.2 c List.mem_cons_self
      have hc : c∉reserved := of_decide_eq_true hplain
      exact ⟨c,rest,rfl,hc⟩
  | str s => exact ⟨_,_,rfl,rfl⟩
  | arr items h => exact ⟨_,_,rfl,rfl⟩
  | obj fields h => exact ⟨_,_,rfl,rfl⟩

/-- No spelling begins with a closing bracket. -/
theorem begins_open {v : Spelled} {c close : Char} (h : Begins v c) (hclose : close∈[']','\x7d']) :
    c≠close := by
  rintro rfl
  have hreserved : c∈reserved := by
    simp only [List.mem_cons,List.not_mem_nil,or_false] at hclose
    rcases hclose with rfl | rfl <;> decide
  cases v with
  | word text => exact h hreserved
  | str s => exact absurd (h ▸ hclose) (by decide)
  | arr items => exact absurd (h ▸ hclose) (by decide)
  | obj fields => exact absurd (h ▸ hclose) (by decide)

/-- Kinds of spellings. -/
inductive Kind where
  /-- Keywords and numbers. -/
  | word
  /-- Strings. -/
  | str
  /-- Lists. -/
  | arr
  /-- Objects. -/
  | obj

/-- The kind of a spelling. -/
def kind : Spelled→Kind
  | .word _ => .word
  | .str _ => .str
  | .arr _ => .arr
  | .obj _ => .obj

/-- The kind that a first character tells. -/
def kindOf (c : Char) : Kind :=
  if c = '"' then .str else if c = '[' then .arr else if c = '\x7b' then .obj else .word

/-- The first character tells the kind. -/
theorem kindOf_begins {v : Spelled} {c : Char} (h : Begins v c) : kindOf c=kind v := by
  cases v with
  | word text =>
    have hquote : c≠ '"' := fun he => h (by rw [he]; decide)
    have hbracket : c≠ '[' := fun he => h (by rw [he]; decide)
    have hbrace : c≠ '\x7b' := fun he => h (by rw [he]; decide)
    rw [kindOf,if_neg hquote,if_neg hbracket,if_neg hbrace]
    rfl
  | str s => rw [show c = '"' from h]; rfl
  | arr items => rw [show c = '[' from h]; rfl
  | obj fields => rw [show c = '\x7b' from h]; rfl

/-- Spellings that begin equal texts are of one kind. -/
theorem print_kind {a b : Spelled} {x y : List Char} (ha : Clean a) (hb : Clean b)
    (h : a.print++x=b.print++y) : kind a=kind b := by
  obtain ⟨c,rest,hprint,hc⟩ := print_begins ha
  obtain ⟨d,rest',hprint',hd⟩ := print_begins hb
  rw [hprint,hprint'] at h
  have hcd : c=d := (List.cons.inj h).1
  rw [←kindOf_begins hc,←kindOf_begins hd,hcd]

/-- A printed spelling can be told from what follows it: equal texts, each ending
where a delimiter begins, have equal spellings in front. -/
def Recovered (a : Spelled) : Prop :=
  ∀ b x y, Clean a→Clean b→Ends x→Ends y→a.print++x=b.print++y→a=b ∧ x=y

/-- Arrays of recovered items are recovered. -/
theorem arr_inj {items others : List Spelled} {x y : List Char}
    (ih : ∀ v∈items, Recovered v) (ha : ∀ v∈items, Clean v) (hb : ∀ v∈others, Clean v)
    (h : (Spelled.arr items).print++x=(Spelled.arr others).print++y) : items=others ∧ x=y := by
  rw [Spelled.print,Spelled.print,Spelled.printItems_map,Spelled.printItems_map] at h
  simp only [List.cons_append,List.append_assoc,List.nil_append,List.cons.injEq,true_and] at h
  have hclose : ']'∈[']','\x7d'] := List.mem_cons_self
  have hself : ∀ v∈items, ∀ w∈others, ∀ x y, Ends x→Ends y→
      v.print++x=w.print++y→v=w ∧ x=y :=
    fun v hv w hw x y => ih v hv w x y (ha v hv) (hb w hw)
  have hstart : ∀ v, v∈items ∨ v∈others→∃ c rest, v.print=c::rest ∧ c≠ ']' := by
    intro v hv
    obtain ⟨c,rest,hprint,hc⟩ := print_begins (hv.elim (ha v) (hb v))
    exact ⟨c,rest,hprint,begins_open hc hclose⟩
  exact join_inj hclose hself hstart h

/-- A member whose value is recovered is recovered, key and value. -/
theorem field_inj {m m' : String×Spelled} {x y : List Char} (ih : Recovered m.2)
    (ha : Clean m.2) (hb : Clean m'.2) (hx : Ends x) (hy : Ends y)
    (h : Spelled.printField m++x=Spelled.printField m'++y) : m=m' ∧ x=y := by
  unfold Spelled.printField at h
  simp only [List.append_assoc] at h
  obtain ⟨hkey,hvalue⟩ := renderString_inj h
  simp only [List.cons_append,List.nil_append,List.cons.injEq,true_and] at hvalue
  obtain ⟨hsame,hrest⟩ := ih m'.2 x y ha hb hx hy hvalue
  exact ⟨Prod.ext hkey hsame,hrest⟩

/-- Objects of recovered values are recovered. -/
theorem obj_inj {fields others : List (String×Spelled)} {x y : List Char}
    (ih : ∀ m∈fields, Recovered m.2) (ha : ∀ m∈fields, Clean m.2)
    (hb : ∀ m∈others, Clean m.2)
    (h : (Spelled.obj fields).print++x=(Spelled.obj others).print++y) :
    fields=others ∧ x=y := by
  rw [Spelled.print,Spelled.print,Spelled.printFields_map,Spelled.printFields_map] at h
  simp only [List.cons_append,List.append_assoc,List.nil_append,List.cons.injEq,true_and] at h
  have hclose : '\x7d'∈[']','\x7d'] := List.mem_cons_of_mem _ List.mem_cons_self
  have hself : ∀ m∈fields, ∀ m'∈others, ∀ x y, Ends x→Ends y→
      Spelled.printField m++x=Spelled.printField m'++y→m=m' ∧ x=y :=
    fun m hm m' hm' _ _ => field_inj (ih m hm) (ha m hm) (hb m' hm')
  have hstart : ∀ m, m∈fields ∨ m∈others→
      ∃ c rest, Spelled.printField m=c::rest ∧ c≠ '\x7d' :=
    fun m _ => ⟨_,_,rfl,by decide⟩
  exact join_inj hclose hself hstart h

/-- Every printed spelling is recovered. -/
theorem print_inj (a : Spelled) : Recovered a := by
  induction a using Spelled.induction with
  | word text =>
    intro b x y ha hb hx hy h
    have hkind := print_kind ha hb h
    cases b with
    | word text' =>
      cases ha with
      | word _ ha =>
        cases hb with
        | word _ hb =>
          obtain ⟨htext,hrest⟩ := word_inj ha hb hx hy h
          exact ⟨by rw [htext],hrest⟩
    | str s => cases hkind
    | arr items => cases hkind
    | obj fields => cases hkind
  | str s =>
    intro b x y ha hb hx hy h
    have hkind := print_kind ha hb h
    cases b with
    | word text => cases hkind
    | str t =>
      obtain ⟨hst,hrest⟩ := renderString_inj h
      exact ⟨by rw [hst],hrest⟩
    | arr items => cases hkind
    | obj fields => cases hkind
  | arr items ih =>
    intro b x y ha hb hx hy h
    have hkind := print_kind ha hb h
    cases b with
    | word text => cases hkind
    | str s => cases hkind
    | obj fields => cases hkind
    | arr others =>
      cases ha with
      | arr _ ha =>
        cases hb with
        | arr _ hb =>
          obtain ⟨hitems,hrest⟩ := arr_inj ih ha hb h
          exact ⟨by rw [hitems],hrest⟩
  | obj fields ih =>
    intro b x y ha hb hx hy h
    have hkind := print_kind ha hb h
    cases b with
    | word text => cases hkind
    | str s => cases hkind
    | arr items => cases hkind
    | obj others =>
      cases ha with
      | obj _ ha =>
        cases hb with
        | obj _ hb =>
          obtain ⟨hfields,hrest⟩ := obj_inj ih ha hb h
          exact ⟨by rw [hfields],hrest⟩

/-- A printed number is a word. -/
theorem word_of_numeral {text : List Char} (h : Json.Numeral text) : Word text := by
  have hdisjoint : reserved.all (fun c => !Json.numeric c)=true := by decide
  refine ⟨h.1,List.all_eq_true.mpr ?_⟩
  intro c hc
  have hnumeric := List.all_eq_true.mp h.2 c hc
  refine decide_eq_true ?_
  intro hr
  have hnot := List.all_eq_true.mp hdisjoint c hr
  rw [hnumeric] at hnot
  cases hnot

/-- A natural number is printed as a number. -/
theorem nat_numeral (n : ℕ) : Json.Numeral n.repr.toList := by
  rw [Nat.toList_repr]
  refine ⟨Nat.toDigits_ne_nil,List.all_eq_true.mpr ?_⟩
  intro c hc
  have hdigit := Nat.isDigit_of_mem_toDigits (by decide) (by decide) hc
  rw [Json.numeric,hdigit,Bool.true_or]

/-- An integer is printed as a number. -/
theorem int_numeral (n : ℤ) : Json.Numeral (toString n).toList := by
  rw [Int.toString_eq_repr,Int.repr_eq_if]
  split
  · exact nat_numeral n.toNat
  · have hdigits := nat_numeral (-n).toNat
    have hsign : "-".toList.all Json.numeric=true := by decide
    rw [String.toList_append]
    refine ⟨List.cons_ne_nil _ _,?_⟩
    rw [List.all_append,hsign,hdigits.2]
    rfl

/-- Keywords and the floats without digits are words. -/
theorem word_of_special {text : String}
    (h : text∈["null","false","true","NaN","Infinity","-Infinity","-0.0"]) : Word text.toList := by
  have hall : ∀ t∈["null","false","true","NaN","Infinity","-Infinity","-0.0"],
      Word t.toList := by decide
  exact hall text h

/-- With numbers printed as numbers, spellings are clean. -/
theorem spell_clean {repr : ℚ→String} (hrepr : ∀ q, Json.Numeral (repr q).toList) (v : Json) :
    Clean (spell repr v) := by
  have hspecial : ∀ text∈["null","false","true","NaN","Infinity","-Infinity","-0.0"],
      Clean (.word text.toList) := fun text h => .word _ (word_of_special h)
  induction v using Json.induction with
  | null => exact hspecial "null" (by decide)
  | bool b =>
    cases b with
    | false => exact hspecial "false" (by decide)
    | true => exact hspecial "true" (by decide)
  | int n => exact .word _ (word_of_numeral (int_numeral n))
  | float x =>
    cases x with
    | nan => exact hspecial "NaN" (by decide)
    | inf negative =>
      cases negative with
      | false => exact hspecial "Infinity" (by decide)
      | true => exact hspecial "-Infinity" (by decide)
    | negZero => exact hspecial "-0.0" (by decide)
    | finite q => exact .word _ (word_of_numeral (hrepr q))
  | str s => exact .str s
  | arr items ih =>
    refine .arr _ ?_
    rw [spellItems_map]
    exact List.forall_mem_map.mpr ih
  | obj fields ih =>
    have hfields : ∀ m∈spellFields repr fields, Clean m.2 := by
      rw [spellFields_map]
      exact List.forall_mem_map.mpr ih
    exact .obj _ (fun m hm => hfields m ((List.mem_insertionSort _).mp hm))

/-- Values have one rendering exactly when they have one spelling. -/
theorem dumps_eq_iff {repr : ℚ→String} (hrepr : ∀ q, Json.Numeral (repr q).toList)
    (a b : Json) : a.dumps repr=b.dumps repr ↔ spell repr a=spell repr b := by
  have hends : Ends [] := fun c hc => (by cases hc)
  unfold Json.dumps
  rw [String.ofList_inj,render_eq_print,render_eq_print]
  constructor
  · intro h
    have hclean := print_inj (spell repr a) (spell repr b) [] [] (spell_clean hrepr a)
      (spell_clean hrepr b) hends hends
    exact (hclean (by rw [h])).1
  · intro h
    rw [h]

end McpGateway.JsonEncoding
