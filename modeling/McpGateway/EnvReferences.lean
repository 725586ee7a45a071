import Mathlib
import McpGateway.RegexMatch
import McpGateway.RegexLanguage
import McpGateway.AuthProviders

/-!
# References to environment variables

A configured token is a template: plain text with references. Every text is a
template in exactly one way, and resolving it puts the value of each variable
in place of its reference, leaves the plain text alone and does not look into
the values again.
-/

namespace McpGateway.EnvReferences

open RegexMatch RegexLanguage AuthProviders

/-- A part of a template. -/
inductive Piece where
  /-- A character that stands for itself. -/
  | plain (c : Char)
  /-- A reference to a variable. -/
  | reference (name : List Char)

/-- How a reference is written. -/
def written (name : List Char) : List Char := '$':: '\x7b'::(name++['\x7d'])

/-- A variable name in a reference: not empty and without a closing brace. -/
def Name (name : List Char) : Prop := name≠[] ∧ '\x7d'∉name

/-- The text of some pieces. -/
def source : List Piece→List Char
  | [] => []
  | .plain c::rest => c::source rest
  | .reference name::rest => written name++source rest

/-- What the pieces stand for. -/
def meaning (environ : Environ) : List Piece→List Char
  | [] => []
  | .plain c::rest => c::meaning environ rest
  | .reference name::rest =>
    ((environ (String.ofList name)).getD "").toList++meaning environ rest

/-- A reference begins the text. -/
def Opens (text : List Char) : Prop := ∃ name tail, Name name ∧ text=written name++tail

/-- No plain character begins a reference. -/
def Parsed : List Piece→Prop
  | [] => True
  | .plain c::rest => ¬Opens (c::source rest) ∧ Parsed rest
  | .reference name::rest => Name name ∧ Parsed rest

/-- A template in its pieces. -/
structure Template where
  /-- Its pieces. -/
  pieces : List Piece
  /-- They are the references and the rest. -/
  parsed : Parsed pieces

/-- The text of a template. -/
def Template.text (t : Template) : String := String.ofList (source t.pieces)

/-- The text with every reference replaced by the value of its variable. -/
def Template.value (t : Template) (environ : Environ) : String :=
  String.ofList (meaning environ t.pieces)

section Matches

variable {isWord : Char→Bool}

/-- The pattern matches references and nothing else. -/
theorem matches_iff {b : Option Char} {s t : List Char} :
    Matches isWord envReference b s t ↔ ∃ name, Name name ∧ s=written name := by
  constructor
  · rintro ⟨_,_,rfl,⟨x,rfl,hx⟩,_,_,rfl,⟨y,rfl,hy⟩,name,_,rfl,⟨k,hleast,-,hiter⟩,⟨z,rfl,hz⟩⟩
    obtain ⟨hlength,hall⟩ := iterates_one.mp hiter
    have hname : Name name := by
      refine ⟨List.ne_nil_of_length_pos (by omega),fun hmem => ?_⟩
      exact absurd rfl (of_decide_eq_true (hall _ hmem))
    obtain rfl := of_decide_eq_true hx
    obtain rfl := of_decide_eq_true hy
    obtain rfl := of_decide_eq_true hz
    exact ⟨name,hname,rfl⟩
  · rintro ⟨name,⟨hne,hclose⟩,rfl⟩
    have hpos : 1≤name.length := List.length_pos_iff.mpr hne
    have hall : ∀ x∈name, decide (x≠ '\x7d')=true := by
      intro x hx
      exact decide_eq_true fun hsame => hclose (hsame ▸ hx)
    exact ⟨['$'],_,rfl,⟨'$',rfl,rfl⟩,['\x7b'],_,rfl,⟨'\x7b',rfl,rfl⟩,name,['\x7d'],rfl,
      ⟨name.length,hpos,fun _ h => (by cases h),iterates_one.mpr ⟨rfl,hall⟩⟩,'\x7d',rfl,rfl⟩

/-- A text begins with at most one reference. -/
theorem written_inj {name name' tail tail' : List Char} (h : Name name) (h' : Name name')
    (hsame : written name++tail=written name'++tail') : name=name' ∧ tail=tail' := by
  have hfirst : ∀ own rest, Name own→
      (own++ '\x7d'::rest).takeWhile (fun x => decide (x≠ '\x7d'))=own := by
    intro own rest hown
    have hall : ∀ x∈own, decide (x≠ '\x7d')=true := by
      intro x hx
      exact decide_eq_true fun heq => hown.2 (heq ▸ hx)
    rw [List.takeWhile_append_of_pos hall]
    simp
  have hbody : name++ '\x7d'::tail=name'++ '\x7d'::tail' := by
    simpa [written] using hsame
  have hname : name=name' := by
    rw [←hfirst name tail h,hbody,hfirst name' tail' h']
  subst hname
  exact ⟨rfl,(List.cons.inj (List.append_cancel_left hbody)).2⟩

/-- The matcher stops behind the reference that begins the text. -/
theorem matchAt_written (b : Option Char) {name : List Char} (h : Name name)
    (tail : List Char) : ∃ c, matchAt isWord envReference ⟨b,written name++tail⟩=some ⟨c,tail⟩ := by
  cases hmatch : matchAt isWord envReference ⟨b,written name++tail⟩ with
  | none =>
    exact absurd (matches_iff.mpr ⟨name,h,rfl⟩)
      ((matchAt_none_iff rfl _).mp hmatch (written name) tail rfl)
  | some d =>
    obtain ⟨s,hrest,-,hm⟩ := matchAt_some rfl hmatch
    obtain ⟨name',hname',rfl⟩ := matches_iff.mp hm
    obtain ⟨-,htail⟩ := written_inj h hname' hrest
    exact ⟨d.before,by rw [htail]⟩

/-- It matches nothing where no reference begins. -/
theorem matchAt_plain {b : Option Char} {text : List Char} (h : ¬Opens text) :
    matchAt isWord envReference ⟨b,text⟩=none := by
  rw [matchAt_none_iff rfl]
  intro s t hrest hm
  obtain ⟨name,hname,rfl⟩ := matches_iff.mp hm
  exact h ⟨name,t,hname,hrest⟩

end Matches

/-- Scanning replaces the references of the remaining pieces. -/
theorem substitute_pieces (environ : Environ) {isWord : Char→Bool} {expand : List Char→List Char}
    (hexpand : ∀ name, expand (written name)=((environ (String.ofList name)).getD "").toList)
    {pieces : List Piece} (h : Parsed pieces) {fuel : ℕ} (b : Option Char)
    (hfuel : (source pieces).length≤fuel) :
    (substitute isWord envReference expand fuel ⟨b,source pieces⟩).1=meaning environ pieces := by
  induction pieces generalizing fuel b with
  | nil => cases fuel <;> rfl
  | cons piece rest ih =>
    cases piece with
    | plain c =>
      cases fuel with
      | zero => cases hfuel
      | succ fuel =>
        have hrest := ih h.2 (some c) (Nat.le_of_succ_le_succ hfuel)
        simp only [source,substitute,matchAt_plain h.1,meaning]
        rw [hrest]
    | reference name =>
      have hlength : (source (.reference name::rest)).length=
          name.length+3+(source rest).length := by
        simp [source,written]
        omega
      cases fuel with
      | zero => omega
      | succ fuel =>
        obtain ⟨c,hmatch⟩ : ∃ c, matchAt isWord envReference ⟨b,written name++source rest⟩=
          some ⟨c,source rest⟩ := matchAt_written b h.1 (source rest)
        have hfuel' : (source rest).length≤fuel := by omega
        have hrest := ih h.2 c hfuel'
        have hshorter : (source rest).length<(written name++source rest).length := by
          rw [List.length_append]
          simp [written]
        have htaken : (written name++source rest).take
            ((written name++source rest).length-(source rest).length)=written name := by
          rw [List.length_append,Nat.add_sub_cancel]
          exact List.take_left
        have hcons : written name++source rest=
            '$'::('\x7b'::(name++['\x7d'])++source rest) := rfl
        rw [source,substitute]
        simp only [hcons]
        rw [←hcons]
        simp only [hmatch]
        rw [if_pos hshorter,htaken,hexpand,hrest]
        rfl

/-- Every text has pieces. -/
theorem pieces_exist (text : List Char) : ∃ pieces, Parsed pieces ∧ source pieces=text := by
  induction hn : text.length using Nat.strong_induction_on generalizing text with
  | _ n ih =>
    cases text with
    | nil => exact ⟨[],trivial,rfl⟩
    | cons c rest =>
      by_cases hopens : Opens (c::rest)
      · obtain ⟨name,tail,hname,hsame⟩ := hopens
        have hshorter : tail.length<n := by
          rw [←hn,hsame]
          simp [written]
          omega
        obtain ⟨pieces,hparsed,rfl⟩ := ih _ hshorter tail rfl
        exact ⟨.reference name::pieces,⟨hname,hparsed⟩,hsame.symm⟩
      · have hshorter : rest.length<n := by
          rw [←hn]
          exact Nat.lt_succ_self _
        obtain ⟨pieces,hparsed,rfl⟩ := ih _ hshorter rest rfl
        exact ⟨.plain c::pieces,⟨hopens,hparsed⟩,rfl⟩

/-- No text has two. -/
theorem pieces_unique {pieces pieces' : List Piece} (h : Parsed pieces) (h' : Parsed pieces')
    (hsame : source pieces=source pieces') : pieces=pieces' := by
  induction pieces generalizing pieces' with
  | nil =>
    cases pieces' with
    | nil => rfl
    | cons piece rest => cases piece <;> cases hsame
  | cons piece rest ih =>
    cases pieces' with
    | nil => cases piece <;> cases hsame
    | cons piece' rest' =>
      cases piece with
      | plain c =>
        cases piece' with
        | plain c' =>
          obtain ⟨rfl,htail⟩ := List.cons.inj hsame
          rw [ih h.2 h'.2 htail]
        | reference name' => exact absurd ⟨name',source rest',h'.1,hsame⟩ h.1
      | reference name =>
        cases piece' with
        | plain c' => exact absurd ⟨name,source rest,h.1,hsame.symm⟩ h'.1
        | reference name' =>
          obtain ⟨rfl,htail⟩ := written_inj h.1 h'.1 hsame
          rw [ih h.2 h'.2 htail]

/-- Every configured text is a template in exactly one way, and its resolution
is the value of that template in any environment: each reference is replaced
once, by the value of its variable or by nothing, and the rest is copied. -/
theorem references_resolved :
    (∀ text : String, ∃! t : Template, t.text=text) ∧
    ∀ (t : Template) (environ : Environ), resolveEnv environ t.text=t.value environ := by
  constructor
  · intro text
    obtain ⟨pieces,hparsed,hsource⟩ := pieces_exist text.toList
    refine ⟨⟨pieces,hparsed⟩,?_,fun other hother => ?_⟩
    · show String.ofList (source pieces)=text
      rw [hsource,String.ofList_toList]
    · have hsame : source other.pieces=source pieces := by
        rw [hsource,←hother,Template.text,String.toList_ofList]
      obtain ⟨pieces',hparsed'⟩ := other
      obtain rfl := pieces_unique hparsed' hparsed hsame
      rfl
  · intro t environ
    have hexpand : ∀ name, ((environ (String.ofList (((written name).drop 2).dropLast))).getD
        "").toList=((environ (String.ofList name)).getD "").toList := by
      intro name
      have hname : ((written name).drop 2).dropLast=name := List.dropLast_concat
      rw [hname]
    unfold resolveEnv Template.value Template.text
    rw [String.toList_ofList]
    refine congrArg String.ofList ?_
    exact substitute_pieces environ hexpand t.parsed none le_rfl

end McpGateway.EnvReferences
