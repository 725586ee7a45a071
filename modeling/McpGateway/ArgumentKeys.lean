import Mathlib
import McpGateway.JsonValue
import McpGateway.JsonEncoding
import McpGateway.PyRuntime
import McpGateway.ResultCache

/-!
# What a result key identifies

The key of a cached result joins a tool name and a digest of the rendered
arguments. The digest has a fixed length, so the name can be read off the key,
and rendering forgets nothing of the arguments but the order of object
members. Two keys agree exactly when the names do and the arguments are equal
as JSON values.
-/

namespace McpGateway.ArgumentKeys

open JsonValue JsonEncoding PyRuntime ResultCache

mutual

/-- No object in the value has two members of one name. -/
def WellFormed : Json→Prop
  | .arr items => WellFormedItems items
  | .obj fields => (fields.map Prod.fst).Nodup ∧ WellFormedFields fields
  | _ => True

/-- Nor in a list element. -/
def WellFormedItems : List Json→Prop
  | [] => True
  | v::vs => WellFormed v ∧ WellFormedItems vs

/-- Nor in a member value. -/
def WellFormedFields : List (String×Json)→Prop
  | [] => True
  | (_,v)::ms => WellFormed v ∧ WellFormedFields ms

end

/-- The spelling of a number. -/
def numberText (repr : ℚ→String) : Json→Option (List Char)
  | .int n => some (toString n).toList
  | .float x => some (Json.renderFloat repr x)
  | _ => none

/-- The spelling of a keyword. -/
def keywordText : Json→Option (List Char)
  | .null => some "null".toList
  | .bool true => some "true".toList
  | .bool false => some "false".toList
  | _ => none

mutual

/-- Equal JSON values: objects have equal members in any order, and numbers
are compared by their spelling. -/
def Same (repr : ℚ→String) : Json→Json→Prop
  | .null,w => w=.null
  | .bool b,w => w=.bool b
  | .int n,w => numberText repr w=some (toString n).toList
  | .float x,w => numberText repr w=some (Json.renderFloat repr x)
  | .str s,w => w=.str s
  | .arr items,w => ∃ others, w=.arr others ∧ SameItems repr items others
  | .obj fields,w => ∃ others, w=.obj others ∧ fields.length=others.length ∧
      SameFields repr fields others

/-- Equal elements at equal positions. -/
def SameItems (repr : ℚ→String) : List Json→List Json→Prop
  | [],ws => ws=[]
  | v::vs,ws => ∃ w rest, ws=w::rest ∧ Same repr v w ∧ SameItems repr vs rest

/-- Every member has an equal one of its name among the others. -/
def SameFields (repr : ℚ→String) : List (String×Json)→List (String×Json)→Prop
  | [],_ => True
  | (k,v)::ms,others => (∃ w, (k,w)∈others ∧ Same repr v w) ∧ SameFields repr ms others

end

section spelling

variable {repr : ℚ→String}

/-- There are three keywords. -/
theorem keywordText_mem {v : Json} {text : List Char} (h : keywordText v=some text) :
    text∈["null".toList,"true".toList,"false".toList] := by
  cases v with
  | null =>
    cases h
    decide
  | bool b =>
    cases b with
    | true =>
      cases h
      decide
    | false =>
      cases h
      decide
  | _ => cases h

/-- Keywords differ in their spelling. -/
theorem keywordText_inj {v w : Json} {text : List Char} (hv : keywordText v=some text)
    (hw : keywordText w=some text) : w=v := by
  have hkeyword : ∀ u, keywordText u=some text→
      u∈[Json.null,.bool true,.bool false] := by
    intro u hu
    cases u with
    | null => decide
    | bool b => cases b <;> decide
    | _ => cases hu
  have hdistinct : ∀ a∈[Json.null,.bool true,.bool false],
      ∀ b∈[Json.null,.bool true,.bool false], keywordText a=keywordText b→a=b := by decide
  exact hdistinct w (hkeyword w hw) v (hkeyword v hv) (hw.trans hv.symm)

/-- A number is not spelled like a keyword. -/
theorem number_not_keyword (hrepr : ∀ q, Json.Numeral (repr q).toList) {v w : Json}
    {text : List Char} (hv : numberText repr v=some text) : keywordText w≠some text := by
  intro hw
  have hnumeral : ¬Json.Numeral text := by
    have hnone : ∀ t∈["null".toList,"true".toList,"false".toList], ¬Json.Numeral t := by decide
    exact hnone text (keywordText_mem hw)
  have hspecial : ∀ t∈["NaN","Infinity","-Infinity","-0.0"], t.toList≠text := by
    have hnone : ∀ k∈["null".toList,"true".toList,"false".toList],
        ∀ t∈["NaN","Infinity","-Infinity","-0.0"], t.toList≠k := by decide
    exact hnone text (keywordText_mem hw)
  cases v with
  | int n =>
    cases hv
    exact hnumeral (int_numeral n)
  | float x =>
    cases x with
    | nan => exact hspecial "NaN" (by decide) (Option.some.inj hv)
    | inf negative =>
      cases negative with
      | false => exact hspecial "Infinity" (by decide) (Option.some.inj hv)
      | true => exact hspecial "-Infinity" (by decide) (Option.some.inj hv)
    | negZero => exact hspecial "-0.0" (by decide) (Option.some.inj hv)
    | finite q =>
      cases hv
      exact hnumeral (hrepr q)
  | _ => cases hv

/-- A number is spelled by its text. -/
theorem spell_number {v : Json} {text : List Char} (h : numberText repr v=some text) :
    spell repr v=.word text := by
  cases v <;> cases h <;> rfl

/-- So is a keyword. -/
theorem spell_keyword {v : Json} {text : List Char} (h : keywordText v=some text) :
    spell repr v=.word text := by
  cases v with
  | null =>
    cases h
    rfl
  | bool b => cases b <;> cases h <;> rfl
  | _ => cases h

/-- A value is a string, a list or an object, or it is spelled as a word by its
text. -/
theorem spell_shape (v : Json) : (∃ s, v=.str s) ∨ (∃ items, v=.arr items) ∨
    (∃ fields, v=.obj fields) ∨ ∃ text, spell repr v=.word text ∧
      (numberText repr v=some text ∨ keywordText v=some text) := by
  have hnumber : ∀ text, numberText repr v=some text→∃ text, spell repr v=.word text ∧
      (numberText repr v=some text ∨ keywordText v=some text) := fun text h =>
    ⟨text,spell_number h,.inl h⟩
  have hkeyword : ∀ text, keywordText v=some text→∃ text, spell repr v=.word text ∧
      (numberText repr v=some text ∨ keywordText v=some text) := fun text h =>
    ⟨text,spell_keyword h,.inr h⟩
  cases v with
  | null => exact .inr (.inr (.inr (hkeyword _ rfl)))
  | bool b => cases b <;> exact .inr (.inr (.inr (hkeyword _ rfl)))
  | int n => exact .inr (.inr (.inr (hnumber _ rfl)))
  | float x => exact .inr (.inr (.inr (hnumber _ rfl)))
  | str s => exact .inl ⟨s,rfl⟩
  | arr items => exact .inr (.inl ⟨items,rfl⟩)
  | obj fields => exact .inr (.inr (.inl ⟨fields,rfl⟩))

/-- The spelling of a word is that of a number or of a keyword. -/
theorem spell_word {v : Json} {text : List Char} (h : spell repr v=.word text) :
    numberText repr v=some text ∨ keywordText v=some text := by
  rcases spell_shape v with ⟨s,rfl⟩ | ⟨items,rfl⟩ | ⟨fields,rfl⟩ | ⟨text',hword,htext⟩
  · cases h
  · cases h
  · cases h
  · cases hword.symm.trans h
    exact htext

/-- Numbers are spelled alike exactly when their texts agree. -/
theorem spell_number_iff (hrepr : ∀ q, Json.Numeral (repr q).toList) {v w : Json}
    {text : List Char} (h : numberText repr v=some text) :
    spell repr v=spell repr w ↔ numberText repr w=some text := by
  rw [spell_number h]
  constructor
  · exact fun hs => (spell_word hs.symm).resolve_right (number_not_keyword hrepr h)
  · exact fun hw => (spell_number hw).symm

/-- Only the keyword itself is spelled like it. -/
theorem spell_keyword_iff (hrepr : ∀ q, Json.Numeral (repr q).toList) {v w : Json}
    {text : List Char} (h : keywordText v=some text) :
    spell repr v=spell repr w ↔ w=v := by
  constructor
  · intro hs
    rcases spell_word (hs.symm.trans (spell_keyword h)) with hw | hw
    · exact absurd h (number_not_keyword hrepr hw)
    · exact keywordText_inj h hw
  · rintro rfl
    rfl

/-- Only the string itself is spelled like it. -/
theorem spell_str_iff (s : String) (w : Json) : spell repr (.str s)=spell repr w ↔ w=.str s := by
  constructor
  · intro hs
    rcases spell_shape w with ⟨t,rfl⟩ | ⟨items,rfl⟩ | ⟨fields,rfl⟩ | ⟨text,hword,-⟩
    · cases hs
      rfl
    · cases hs
    · cases hs
    · cases hs.trans hword
  · rintro rfl
    rfl

/-- Only a list is spelled as a list. -/
theorem spell_arr {w : Json} {items : List Spelled} (h : spell repr w=.arr items) :
    ∃ others, w=.arr others ∧ spellItems repr others=items := by
  rcases spell_shape w with ⟨s,rfl⟩ | ⟨others,rfl⟩ | ⟨fields,rfl⟩ | ⟨text,hword,-⟩
  · cases h
  · cases h
    exact ⟨others,rfl,rfl⟩
  · cases h
  · cases hword.symm.trans h

/-- Only an object is spelled as an object. -/
theorem spell_obj {w : Json} {fields : List (String×Spelled)} (h : spell repr w=.obj fields) :
    ∃ others, w=.obj others ∧
      (spellFields repr others).insertionSort (fun a b => a.1≤b.1)=fields := by
  rcases spell_shape w with ⟨s,rfl⟩ | ⟨items,rfl⟩ | ⟨others,rfl⟩ | ⟨text,hword,-⟩
  · cases h
  · cases h
  · cases h
    exact ⟨others,rfl,rfl⟩
  · cases hword.symm.trans h

/-- The names of spelled members. -/
theorem spellFields_keys (fields : List (String×Json)) :
    (spellFields repr fields).map Prod.fst=fields.map Prod.fst := by
  rw [spellFields_map,List.map_map]
  rfl

end spelling

/-- Sorting by distinct keys forgets exactly the order. -/
theorem sort_eq_iff {α : Type} {xs ys : List (String×α)} (hx : (xs.map Prod.fst).Nodup) :
    xs.insertionSort (fun a b => a.1≤b.1)=ys.insertionSort (fun a b => a.1≤b.1) ↔ xs.Perm ys := by
  have hxs := List.perm_insertionSort (fun a b : String×α => a.1≤b.1) xs
  have hys := List.perm_insertionSort (fun a b : String×α => a.1≤b.1) ys
  constructor
  · intro h
    exact (hxs.symm.trans (h ▸ List.Perm.refl _)).trans hys
  · intro h
    have htotal : Std.Total (fun a b : String×α => a.1≤b.1) := ⟨fun a b => le_total a.1 b.1⟩
    have htrans : IsTrans (String×α) (fun a b => a.1≤b.1) := ⟨fun _ _ _ => le_trans⟩
    refine List.Perm.eq_of_pairwise (fun a b ha hb hab hba => ?_)
      (List.pairwise_insertionSort (fun a b : String×α => a.1≤b.1) xs)
      (List.pairwise_insertionSort (fun a b : String×α => a.1≤b.1) ys)
      (hxs.trans (h.trans hys.symm))
    have ha' : a∈xs := hxs.mem_iff.mp ha
    have hb' : b∈xs := h.mem_iff.mpr (hys.mem_iff.mp hb)
    exact List.inj_on_of_nodup_map hx ha' hb' (le_antisymm hab hba)

/-- Lists with distinct keys are permutations exactly when they are of one
length and one contains the other. -/
theorem perm_iff_contained {α : Type} {xs ys : List (String×α)} (hx : (xs.map Prod.fst).Nodup) :
    xs.Perm ys ↔ xs.length=ys.length ∧ ∀ m∈xs, m∈ys := by
  constructor
  · exact fun h => ⟨h.length_eq,fun m hm => h.mem_iff.mp hm⟩
  · rintro ⟨hlength,hall⟩
    have hsub : List.Subperm xs ys := List.subperm_of_subset hx.of_map hall
    exact hsub.perm_of_length_le hlength.ge

section equality

variable {repr : ℚ→String}

/-- List elements are spelled alike exactly when they are equal. -/
theorem spellItems_eq_iff {items : List Json}
    (ih : ∀ v∈items, ∀ w, WellFormed v→WellFormed w→
      (spell repr v=spell repr w ↔ Same repr v w)) {others : List Json}
    (hv : WellFormedItems items) (hw : WellFormedItems others) :
    spellItems repr items=spellItems repr others ↔ SameItems repr items others := by
  induction items generalizing others with
  | nil => cases others <;> simp [spellItems,SameItems]
  | cons v vs ihv =>
    cases others with
    | nil => simp [spellItems,SameItems]
    | cons w ws =>
      rw [WellFormedItems] at hv hw
      have hhead := ih v List.mem_cons_self w hv.1 hw.1
      have htail := ihv (fun u hu => ih u (List.mem_cons_of_mem _ hu)) hv.2 hw.2
      rw [spellItems,spellItems,List.cons.injEq,hhead,htail,SameItems]
      constructor
      · rintro ⟨hsame,hrest⟩
        exact ⟨w,ws,rfl,hsame,hrest⟩
      · rintro ⟨w',ws',hcons,hsame,hrest⟩
        cases hcons
        exact ⟨hsame,hrest⟩

/-- The values of a well-formed object are well-formed. -/
theorem wellFormedFields_iff (fields : List (String×Json)) :
    WellFormedFields fields ↔ ∀ m∈fields, WellFormed m.2 := by
  induction fields with
  | nil => simp [WellFormedFields]
  | cons m ms ih =>
    obtain ⟨k,v⟩ := m
    rw [WellFormedFields,ih,List.forall_mem_cons]

/-- Every member has an equal one of its name exactly when every spelled member
occurs among the others. -/
theorem sameFields_iff {fields others : List (String×Json)}
    (ih : ∀ m∈fields, ∀ w, WellFormed w→(spell repr m.2=spell repr w ↔ Same repr m.2 w))
    (hw : WellFormedFields others) :
    (∀ m∈spellFields repr fields, m∈spellFields repr others) ↔
      SameFields repr fields others := by
  rw [wellFormedFields_iff] at hw
  induction fields with
  | nil => simp [spellFields,SameFields]
  | cons m ms ihm =>
    obtain ⟨k,v⟩ := m
    obtain ⟨hhead,htail⟩ := List.forall_mem_cons.mp ih
    rw [spellFields,List.forall_mem_cons,ihm htail,SameFields]
    refine and_congr_left fun _ => ?_
    rw [spellFields_map,List.mem_map]
    constructor
    · rintro ⟨⟨k',w⟩,hm,hsame⟩
      obtain ⟨hk,hs⟩ := Prod.mk.inj hsame
      exact ⟨w,hk ▸ hm,(hhead w (hw _ hm)).mp hs.symm⟩
    · rintro ⟨w,hm,hsame⟩
      exact ⟨(k,w),hm,Prod.ext rfl ((hhead w (hw _ hm)).mpr hsame).symm⟩

/-- Well-formed values are spelled alike exactly when they are equal. -/
theorem spell_eq_iff (hrepr : ∀ q, Json.Numeral (repr q).toList) (v w : Json)
    (hv : WellFormed v) (hw : WellFormed w) : spell repr v=spell repr w ↔ Same repr v w := by
  induction v using Json.induction generalizing w with
  | null => exact spell_keyword_iff hrepr rfl
  | bool b => cases b <;> exact spell_keyword_iff hrepr rfl
  | int n => exact spell_number_iff hrepr rfl
  | float x => exact spell_number_iff hrepr rfl
  | str s => exact spell_str_iff s w
  | arr items ih =>
    have hitems : ∀ others, WellFormedItems others→
        (spellItems repr items=spellItems repr others ↔ SameItems repr items others) :=
      fun others ho => spellItems_eq_iff (fun u hu x hu' hx => ih u hu x hu' hx) hv ho
    rw [Same]
    constructor
    · intro hs
      obtain ⟨others,rfl,hothers⟩ := spell_arr hs.symm
      exact ⟨others,rfl,(hitems others hw).mp hothers.symm⟩
    · rintro ⟨others,rfl,hsame⟩
      exact congrArg Spelled.arr ((hitems others hw).mpr hsame)
  | obj fields ih =>
    obtain ⟨hkeys,hvalues⟩ := hv
    rw [wellFormedFields_iff] at hvalues
    have hmembers : ∀ m∈fields, ∀ u, WellFormed u→
        (spell repr m.2=spell repr u ↔ Same repr m.2 u) :=
      fun m hm u hu => ih m hm u (hvalues m hm) hu
    have hnodup : ((spellFields repr fields).map Prod.fst).Nodup := by
      rw [spellFields_keys]
      exact hkeys
    have hlength : ∀ ms, (spellFields repr ms).length=ms.length := fun ms => by
      rw [spellFields_map,List.length_map]
    have hsorted : ∀ others, WellFormedFields others→
        ((spellFields repr fields).insertionSort (fun a b => a.1≤b.1)=
          (spellFields repr others).insertionSort (fun a b => a.1≤b.1) ↔
            fields.length=others.length ∧ SameFields repr fields others) := by
      intro others ho
      rw [sort_eq_iff hnodup,perm_iff_contained hnodup,hlength,hlength,
        sameFields_iff hmembers ho]
    rw [Same]
    constructor
    · intro hs
      obtain ⟨others,rfl,hothers⟩ := spell_obj hs.symm
      exact ⟨others,rfl,(hsorted others hw.2).mp hothers.symm⟩
    · rintro ⟨others,rfl,hsame⟩
      exact congrArg Spelled.obj ((hsorted others hw.2).mpr hsame)

/-- Well-formed values have one rendering exactly when they are equal. -/
theorem dumps_same_iff (hrepr : ∀ q, Json.Numeral (repr q).toList) {v w : Json}
    (hv : WellFormed v) (hw : WellFormed w) : v.dumps repr=w.dumps repr ↔ Same repr v w :=
  (dumps_eq_iff hrepr v w).trans (spell_eq_iff hrepr v w hv hw)

end equality

/-- The texts of the two values do not share a truncated digest. -/
def NoCollision (rt : Runtime) (a b : Json) : Prop :=
  argsHash rt a=argsHash rt b→a.dumps rt.reprFloat=b.dumps rt.reprFloat

/-- Two result keys are equal exactly when the tool names are and the arguments
are equal JSON values. -/
theorem resultKey_eq_iff (rt : Runtime) (q q' : String) {a b : Json} (ha : WellFormed a)
    (hb : WellFormed b) (hno : NoCollision rt a b) :
    ToolCache.resultKey rt q a=ToolCache.resultKey rt q' b ↔ q=q' ∧ Same rt.reprFloat a b := by
  have hsame := dumps_same_iff rt.reprFloat_numeral ha hb
  constructor
  · intro h
    obtain ⟨hq,hdigest⟩ := ToolCache.resultKey_inj rt h
    exact ⟨hq,hsame.mp (hno hdigest)⟩
  · rintro ⟨rfl,hargs⟩
    rw [ToolCache.resultKey,ToolCache.resultKey,argsHash,argsHash,hsame.mpr hargs]

/-- Arguments of a search, the nested ones in the given order. -/
def searchArguments (tag : List (String×Json)) : Json :=
  .obj [("q",.str "x \"y\""),
    ("filter",.obj [("tags",.arr [.str "new",.obj tag]),("limit",.int 10)])]

/-- The same arguments in another order. -/
def reorderedArguments : Json :=
  .obj [("filter",.obj [("limit",.int 10),
      ("tags",.arr [.str "new",.obj [("a",.bool true),("b",.null)]])]),
    ("q",.str "x \"y\"")]

/-- The text of these arguments. -/
def searchText : String :=
  "\x7b\"filter\": \x7b\"limit\": 10, \"tags\": [\"new\", \x7b\"a\": true, \"b\": null\x7d]\x7d, "++
    "\"q\": \"x \\\"y\\\"\"\x7d"

/-- The digests of these arguments and of those with another tag. -/
def digestRuntime : Runtime := {asciiRuntime with
  sha256 := fun text =>
    if text=searchText then "61987b670a67ec84bb39b53abb393df09338a54973af4d2559616cb58cba25fd"
    else "b3fd0174ea1c577c1d0730b76d4002d93a31ab0da036465f9e4fbb949d33757c"
  sha256_length := fun text => (by split <;> rfl)}

theorem resultKey_eq_iff_member :
    Same digestRuntime.reprFloat (searchArguments [("b",.null),("a",.bool true)])
      reorderedArguments ∧
    ¬Same digestRuntime.reprFloat (searchArguments [("b",.null),("a",.bool false)])
      reorderedArguments := by
  have hwell : ∀ b, WellFormed (searchArguments [("b",.null),("a",.bool b)]) := by
    intro b
    simp [searchArguments,WellFormed,WellFormedFields,WellFormedItems]
  have hother : WellFormed reorderedArguments := by
    simp [reorderedArguments,WellFormed,WellFormedFields,WellFormedItems]
  constructor
  · have hno : NoCollision digestRuntime (searchArguments [("b",.null),("a",.bool true)])
        reorderedArguments := fun _ => (by decide +kernel)
    have hkeys : ToolCache.resultKey digestRuntime "docs.search"
        (searchArguments [("b",.null),("a",.bool true)])=
          ToolCache.resultKey digestRuntime "docs.search" reorderedArguments := by
      decide +kernel
    exact ((resultKey_eq_iff digestRuntime _ _ (hwell true) hother hno).mp hkeys).2
  · have hno : NoCollision digestRuntime (searchArguments [("b",.null),("a",.bool false)])
        reorderedArguments := fun h => absurd h (by decide +kernel)
    have hkeys : ToolCache.resultKey digestRuntime "docs.search"
        (searchArguments [("b",.null),("a",.bool false)])≠
          ToolCache.resultKey digestRuntime "docs.search" reorderedArguments := by
      decide +kernel
    intro hsame
    exact hkeys ((resultKey_eq_iff digestRuntime _ _ (hwell false) hother hno).mpr ⟨rfl,hsame⟩)

end McpGateway.ArgumentKeys
