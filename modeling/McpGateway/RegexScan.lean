import Mathlib
import McpGateway.RegexMatch
import McpGateway.RegexLanguage

/-!
# Substitution as a scan

A substitution keeps the characters at which nothing matches and replaces the
matches between them. When the replacement is fenced by characters that no
match contains, a match in the result lies between two replacements, where
the text is that of the input; only the boundaries at its ends can differ.
-/

namespace McpGateway.RegexScan

open RegexMatch RegexLanguage

section scan

variable (isWord : Char→Bool)

/-- Whether the expression matches anywhere from a position on. -/
def found (r : Regex) : Option Char→List Char→Bool
  | b,[] => (matchAt isWord r ⟨b,[]⟩).isSome
  | b,x::xs => (matchAt isWord r ⟨b,x::xs⟩).isSome || found r (some x) xs

/-- `pattern.search(text) is not None`. -/
def contains (r : Regex) (text : List Char) : Bool := found isWord r none text

/-- A scan over a text with its result: kept characters, at which nothing
matches, and replaced matches. -/
inductive Scanned (r : Regex) (put : List Char) : Option Char→List Char→List Char→Prop
  /-- The end. -/
  | nil (b : Option Char) : Scanned r put b [] []
  /-- A kept character. -/
  | keep {b : Option Char} {x : Char} {xs ys : List Char}
      (miss : matchAt isWord r ⟨b,x::xs⟩=none) (later : Scanned r put (some x) xs ys) :
      Scanned r put b (x::xs) (x::ys)
  /-- A replaced match. -/
  | cut {b : Option Char} {s t ys : List Char}
      (hit : matchAt isWord r ⟨b,s++t⟩=some ⟨lastOr b s,t⟩)
      (later : Scanned r put (lastOr b s) t ys) : Scanned r put b (s++t) (put++ys)

/-- Where a scan of a text arrives, and whether it has just replaced a match. -/
inductive Arrives (r : Regex) (text : List Char) : Bool→Cursor→Prop
  /-- At the start. -/
  | start : Arrives r text false ⟨none,text⟩
  /-- Behind a kept character. -/
  | keep {replaced : Bool} {b : Option Char} {x : Char} {xs : List Char}
      (earlier : Arrives r text replaced ⟨b,x::xs⟩) (miss : matchAt isWord r ⟨b,x::xs⟩=none) :
      Arrives r text false ⟨some x,xs⟩
  /-- Behind a replaced match. -/
  | cut {replaced : Bool} {c d : Cursor} (earlier : Arrives r text replaced c)
      (hit : matchAt isWord r c=some d) : Arrives r text true d

/-- A scan for one expression keeps the characters of a match of another, one
that stands between the characters `c` and `o` where the scan has replaced a
match before it or replaces one behind it. -/
def Exposed (e f : Regex) (o c : Char) (text : List Char) : Prop :=
  ∃ replaced b s t, Arrives isWord e text replaced ⟨b,s++t⟩ ∧
    (∀ p x q, s=p++x::q→matchAt isWord e ⟨lastOr b p,x::(q++t)⟩=none) ∧
    Matches isWord f (if replaced=true then some c else b) s
      (if (matchAt isWord e ⟨lastOr b s,t⟩).isSome=true then o::t else t)

end scan

variable {isWord : Char→Bool}

/-- Nothing is found exactly when nothing matches at any position. -/
theorem found_false_iff {r : Regex} (b : Option Char) (w : List Char) :
    found isWord r b w=false ↔ ∀ p q, w=p++q→matchAt isWord r ⟨lastOr b p,q⟩=none := by
  induction w generalizing b with
  | nil =>
    rw [found,Option.isSome_eq_false_iff,Option.isNone_iff_eq_none]
    constructor
    · intro h p q hsplit
      obtain ⟨rfl,rfl⟩ := List.append_eq_nil_iff.mp hsplit.symm
      exact h
    · exact fun h => h [] [] rfl
  | cons x xs ih =>
    rw [found,Bool.or_eq_false_iff,ih,Option.isSome_eq_false_iff,Option.isNone_iff_eq_none]
    constructor
    · rintro ⟨hhead,htail⟩ p q hsplit
      cases p with
      | nil =>
        rw [List.nil_append] at hsplit
        subst hsplit
        exact hhead
      | cons y p =>
        cases hsplit
        exact htail p q rfl
    · intro h
      exact ⟨h [] (x::xs) rfl,fun p q hsplit => h (x::p) q (congrArg (List.cons x) hsplit)⟩

/-- Expressions that are alike are found in the same texts. -/
theorem contains_alike {A : Char→Prop} {isWord' : Char→Bool}
    (hw : ∀ x, A x→isWord x=isWord' x) {r r' : Regex} (hr : proper r=true)
    (hr' : proper r'=true) (h : Alike A r r') {text : List Char} (htext : ∀ x∈text, A x) :
    contains isWord r text=contains isWord' r' text := by
  have hsame : contains isWord r text=false ↔ contains isWord' r' text=false := by
    rw [contains,contains,found_false_iff,found_false_iff]
    refine forall_congr' fun front => forall_congr' fun rest => imp_congr_right fun hsplit => ?_
    rw [hsplit] at htext
    obtain ⟨hfront,hrest⟩ := List.forall_mem_append.mp htext
    exact matchAt_none_alike hw hr hr' h (lastOr_mem (fun _ hx => (by cases hx)) hfront) hrest
  cases hc : contains isWord' r' text with
  | false => exact hsame.mpr hc
  | true =>
    refine Bool.eq_true_of_not_eq_false fun hnone => ?_
    rw [hsame.mp hnone] at hc
    cases hc

/-- Without boundaries word characters do not matter to a substitution. -/
theorem substitute_free {isWord' : Char→Bool} {r : Regex} (hr : hasBoundary r=false)
    (replace : List Char→List Char) (fuel : ℕ) (c : Cursor) :
    substitute isWord r replace fuel c=substitute isWord' r replace fuel c := by
  have hsame : matchAt isWord r=matchAt isWord' r := by
    funext d
    rw [matchAt,matchAt,ends_free hr]
  induction fuel generalizing c with
  | zero => rfl
  | succ fuel ih =>
    obtain ⟨before,rest⟩ := c
    cases rest with
    | nil => rfl
    | cons x xs =>
      simp only [substitute,hsame,ih]

/-- Substitution by a fixed text is a scan. -/
theorem substitute_scanned {r : Regex} (hr : proper r=true) (hc : consumes r=true)
    (put : List Char) {fuel : ℕ} {c : Cursor} (hfuel : c.rest.length≤fuel) :
    Scanned isWord r put c.before c.rest (substitute isWord r (fun _ => put) fuel c).1 := by
  induction fuel generalizing c with
  | zero =>
    have hnil : c.rest=[] := List.length_eq_zero_iff.mp (Nat.le_zero.mp hfuel)
    rw [substitute,hnil]
    exact .nil _
  | succ fuel ih =>
    obtain ⟨before,rest⟩ := c
    rw [substitute]
    cases rest with
    | nil => exact .nil _
    | cons x xs =>
      have hshorter : xs.length≤fuel := Nat.le_of_succ_le_succ hfuel
      dsimp only
      cases hm : matchAt isWord r ⟨before,x::xs⟩ with
      | none => exact .keep hm (ih (c:=⟨some x,xs⟩) hshorter)
      | some d =>
        obtain ⟨s,hrest,hbefore,hmatch⟩ := matchAt_some hr hm
        obtain ⟨before',t⟩ := d
        dsimp only at hrest hbefore hmatch ⊢
        subst hbefore
        have hs : 0<s.length := List.length_pos_of_ne_nil (ne_nil_of_consumes hc hmatch)
        have hlength : (x::xs).length=s.length+t.length := by rw [hrest,List.length_append]
        have hlater : Scanned isWord r put (lastOr before s) t
            (substitute isWord r (fun _ => put) fuel ⟨lastOr before s,t⟩).1 := by
          refine ih (c:=⟨lastOr before s,t⟩) ?_
          change t.length≤fuel
          rw [List.length_cons] at hlength
          omega
        rw [if_pos (by omega)]
        rw [hrest] at hm ⊢
        exact .cut hm hlater

/-- A substitution without matches changes nothing. -/
theorem substitute_zero {r : Regex} {replace : List Char→List Char} {fuel : ℕ} {c : Cursor}
    (h : (substitute isWord r replace fuel c).2=0) :
    (substitute isWord r replace fuel c).1=c.rest := by
  induction fuel generalizing c with
  | zero => rfl
  | succ fuel ih =>
    obtain ⟨before,rest⟩ := c
    cases rest with
    | nil => rfl
    | cons x xs =>
      have hkept : ∀ {d : Cursor}, d.rest=xs→(substitute isWord r replace fuel d).2=0→
          x::(substitute isWord r replace fuel d).1=x::xs := by
        intro d hd hzero
        rw [ih hzero,hd]
      rw [substitute] at h ⊢
      dsimp only at h ⊢
      cases hm : matchAt isWord r ⟨before,x::xs⟩ with
      | none =>
        rw [hm] at h
        exact hkept rfl h
      | some d =>
        rw [hm] at h
        dsimp only at h ⊢
        split at h
        · cases h
        · rename_i hempty
          rw [if_neg hempty]
          exact hkept rfl h

section properties

variable {r : Regex} {put : List Char}

/-- A scan arrives at positions of its text. -/
theorem Arrives.split {text : List Char} (hr : proper r=true) {replaced : Bool} {c : Cursor}
    (h : Arrives isWord r text replaced c) :
    ∃ front, text=front++c.rest ∧ c.before=lastOr none front := by
  induction h with
  | start => exact ⟨[],rfl,rfl⟩
  | @keep _ b x xs earlier miss ih =>
    obtain ⟨front,hsplit,hbefore⟩ := ih
    refine ⟨front++[x],?_,(lastOr_concat _ _ _).symm⟩
    rw [hsplit,List.append_assoc]
    rfl
  | cut earlier hit ih =>
    obtain ⟨front,hsplit,hbefore⟩ := ih
    obtain ⟨s,hrest,hlast,-⟩ := matchAt_some hr hit
    refine ⟨front++s,?_,?_⟩
    · rw [hsplit,hrest,List.append_assoc]
    · rw [hlast,hbefore,lastOr_append]

/-- A replaced match ends where the scan then arrives. -/
theorem Arrives.hit {text : List Char} {d : Cursor} (h : Arrives isWord r text true d) :
    ∃ c, matchAt isWord r c=some d := by
  cases h with
  | cut earlier hit => exact ⟨_,hit⟩

/-- A scan over a text without matches keeps it. -/
theorem Scanned.eq_of_clean {b : Option Char} {xs ys : List Char}
    (h : Scanned isWord r put b xs ys) (hclean : found isWord r b xs=false) : ys=xs := by
  rw [found_false_iff] at hclean
  induction h with
  | nil b => rfl
  | keep miss later ih =>
    rw [ih fun p q hs => hclean (_::p) q (congrArg (List.cons _) hs)]
  | cut hit later ih =>
    cases hit.symm.trans (hclean [] _ rfl)

/-- A text of the result without the first character of the replacement lies
in kept characters. -/
theorem Scanned.kept {o : Char} {body : List Char} (hput : put=o::body) {b : Option Char}
    {s xs t' : List Char} (h : Scanned isWord r put b xs (s++t')) (hs : o∉s) :
    ∃ t, xs=s++t ∧ Scanned isWord r put (lastOr b s) t t' ∧
      ∀ p x q, s=p++x::q→matchAt isWord r ⟨lastOr b p,x::(q++t)⟩=none := by
  induction s generalizing b xs with
  | nil => exact ⟨xs,rfl,h,fun p x q hp => absurd hp.symm (List.append_ne_nil_of_right_ne_nil _
      (List.cons_ne_nil _ _))⟩
  | cons y s ih =>
    have hy : o≠y := List.ne_of_not_mem_cons hs
    have hs : o∉s := List.not_mem_of_not_mem_cons hs
    generalize hys : y::s++t'=ys at h
    cases h with
    | nil => cases hys
    | keep miss later =>
      cases hys
      obtain ⟨t,rfl,hlater,hall⟩ := ih later hs
      refine ⟨t,rfl,hlater,fun p x q hp => ?_⟩
      cases p with
      | nil =>
        cases hp
        exact miss
      | cons z p =>
        cases hp
        exact hall p x q rfl
    | cut hit later =>
      rw [hput] at hys
      exact absurd (List.cons.inj hys).1.symm hy

end properties

/-- A replacement between an opening and a closing character that no match
contains, and without the characters that every match has. -/
structure Fence (K : Char→Prop) (M : Char→Bool) (o c : Char) (put : List Char) : Prop where
  /-- It opens so. -/
  opens : ∃ body, put=o::body
  /-- It closes so. -/
  closes : ∃ body, put=body++[c]
  /-- No match has the opening character. -/
  openOutside : ¬K o
  /-- No match has the closing character. -/
  closeOutside : ¬K c
  /-- It has no marked character. -/
  unmarked : ∀ x∈put, M x=false

/-- Replaced matches have boundaries wherever the replacement makes one next
to a word character of a class. -/
structure Shields (isWord : Char→Bool) (K : Char→Prop) (e : Regex) : Prop where
  /-- Behind a match. -/
  behind : ∀ c d x, matchAt isWord e c=some d→d.rest.head?=some x→K x→isWord x=true→
    Boundary isWord d.before d.rest
  /-- In front of a match, where no earlier one began. -/
  before : ∀ b x c d, matchAt isWord e c=some d→c.before=some x→
    matchAt isWord e ⟨b,x::c.rest⟩=none→K x→isWord x=true→Boundary isWord c.before c.rest

section search

variable {e f : Regex} {K : Char→Prop} {M : Char→Bool} {o c : Char} {put : List Char}

/-- Nothing is found from within a fenced replacement on that is not found
behind it. -/
theorem found_behind (hf : proper f=true) (hK : Within K f) (hM : Fewest isWord M f 1)
    (hclose : ¬K c) (ys : List Char) {R : List Char} (hR : ∃ front, R=front++[c])
    (hunmarked : ∀ x∈R, M x=false) (b : Option Char) :
    found isWord f b (R++ys)=found isWord f (some c) ys := by
  induction R generalizing b with
  | nil =>
    obtain ⟨front,hnil⟩ := hR
    exact absurd hnil.symm (List.append_ne_nil_of_right_ne_nil _ (List.cons_ne_nil _ _))
  | cons r R ih =>
    have hmiss : matchAt isWord f ⟨b,r::R++ys⟩=none := by
      refine (matchAt_none_iff hf _).mpr fun s t hsplit hm => ?_
      have hmark := hM _ _ _ hm
      have hinside : c∉s := fun hc => hclose (hm.within hK c hc)
      rcases List.append_eq_append_iff.mp hsplit with ⟨middle,hs,-⟩ | ⟨middle,hs,-⟩
      · obtain ⟨front,hfront⟩ := hR
        refine hinside ?_
        rw [hs,hfront]
        exact List.mem_append_left _ (List.mem_append_right _ (List.mem_singleton_self c))
      · have hzero : s.countP M=0 := by
          refine List.countP_eq_zero.mpr fun x hx => ?_
          have hplain := hunmarked x (hs ▸ List.mem_append_left _ hx)
          rw [hplain]
          exact Bool.false_ne_true
        omega
    have hstep : found isWord f b (r::R++ys)=found isWord f (some r) (R++ys) := by
      rw [List.cons_append] at hmiss ⊢
      rw [found,hmiss]
      rfl
    rw [hstep]
    cases R with
    | nil =>
      obtain ⟨front,hfront⟩ := hR
      have hlast : [r]=front++[c] := hfront
      have hsame := congrArg List.getLast? hlast
      rw [List.getLast?_concat] at hsame
      cases hsame
      rfl
    | cons r' R =>
      obtain ⟨front,hfront⟩ := hR
      refine ih ?_ (fun x hx => hunmarked x (List.mem_cons_of_mem _ hx)) (some r)
      cases front with
      | nil => cases hfront
      | cons y front =>
        exact ⟨front,(List.cons.inj hfront).2⟩

/-- The result of a scan up to where it arrives. -/
theorem Scanned.reaches (he : proper e=true) (hec : consumes e=true)
    (hclosed : ∃ body, put=body++[c]) {text ys : List Char} (h : Scanned isWord e put none text ys)
    {replaced : Bool} {d : Cursor} (hat : Arrives isWord e text replaced d) :
    ∃ front later, ys=front++later ∧ Scanned isWord e put d.before d.rest later ∧
      lastOr none front=if replaced=true then some c else d.before := by
  induction hat with
  | start => exact ⟨[],ys,rfl,h,rfl⟩
  | @keep _ b x xs earlier miss ih =>
    obtain ⟨front,later,hys,hlater,-⟩ := ih
    dsimp only at hlater
    generalize hw : x::xs=w at hlater
    cases hlater with
    | nil => cases hw
    | keep _ hrest =>
      cases hw
      refine ⟨front++[x],_,?_,hrest,lastOr_concat _ _ _⟩
      rw [hys,List.append_assoc]
      rfl
    | cut hit hrest =>
      rw [←hw,miss] at hit
      cases hit
  | @cut _ d d' earlier hit ih =>
    obtain ⟨front,later,hys,hlater,-⟩ := ih
    obtain ⟨b,w⟩ := d
    dsimp only at hlater
    cases hlater with
    | nil =>
      obtain ⟨s,hnil,-,hs⟩ := matchAt_some he hit
      exact absurd (List.append_eq_nil_iff.mp hnil.symm).1 (ne_nil_of_consumes hec hs)
    | keep miss hrest =>
      rw [miss] at hit
      cases hit
    | cut hit' hrest =>
      rw [hit'] at hit
      cases hit
      obtain ⟨body,hput⟩ := hclosed
      refine ⟨front++put,_,?_,hrest,?_⟩
      · rw [hys,List.append_assoc]
      · rw [hput,←List.append_assoc]
        exact lastOr_concat _ _ _

/-- Characters at which nothing matches are kept. -/
theorem Scanned.keeps {b : Option Char} {s t ys : List Char} (h : Scanned isWord e put b (s++t) ys)
    (hkept : ∀ p x q, s=p++x::q→matchAt isWord e ⟨lastOr b p,x::(q++t)⟩=none) :
    ∃ t', ys=s++t' ∧ Scanned isWord e put (lastOr b s) t t' := by
  induction s generalizing b ys with
  | nil => exact ⟨ys,rfl,h⟩
  | cons x s ih =>
    have hmiss := hkept [] x s rfl
    generalize hw : x::s++t=w at h
    cases h with
    | nil => cases hw
    | keep _ later =>
      cases hw
      obtain ⟨t',rfl,hrest⟩ := ih later fun p y q hp => hkept (x::p) y q (congrArg (List.cons x) hp)
      exact ⟨t',rfl,hrest⟩
    | cut hit later =>
      rw [←hw] at hit
      cases hmiss.symm.trans hit

/-- A scan goes on with a kept character or with a replacement. -/
theorem Scanned.next (he : proper e=true) (hec : consumes e=true) (hopens : ∃ body, put=o::body)
    {b : Option Char} {t t' : List Char} (h : Scanned isWord e put b t t') :
    t'.head?=(if (matchAt isWord e ⟨b,t⟩).isSome=true then o::t else t).head? := by
  cases h with
  | nil =>
    have hnone : matchAt isWord e ⟨b,[]⟩=none := by
      refine (matchAt_none_iff he _).mpr fun s t hnil hs => ?_
      exact ne_nil_of_consumes hec hs (List.append_eq_nil_iff.mp hnil.symm).1
    rw [hnone]
    rfl
  | keep miss later =>
    rw [miss]
    rfl
  | cut hit later =>
    obtain ⟨body,hput⟩ := hopens
    rw [hit,hput]
    rfl

/-- A match at a position of the result stands in kept characters between
what is behind and in front of them. -/
theorem Scanned.exposes (he : proper e=true) (hec : consumes e=true) (hf : proper f=true)
    (hc : consumes f=true) (hK : Within K f) (hfence : Fence K M o c put) {text : List Char}
    {replaced : Bool} {b : Option Char} {xs ys : List Char} {d : Cursor}
    (h : Scanned isWord e put b xs ys) (hat : Arrives isWord e text replaced ⟨b,xs⟩)
    (hd : matchAt isWord f ⟨if replaced=true then some c else b,ys⟩=some d) :
    Exposed isWord e f o c text := by
  obtain ⟨s,hsplit,-,hm⟩ := matchAt_some hf hd
  obtain ⟨before,t'⟩ := d
  dsimp only at hsplit hm
  subst hsplit
  obtain ⟨body,hput⟩ := hfence.opens
  have hopen : o∉s := fun h => hfence.openOutside (hm.within hK o h)
  obtain ⟨t,rfl,hlater,hkept⟩ := h.kept hput hopen
  exact ⟨replaced,b,s,t,hat,hkept,hm.before_alike hc (hlater.next he hec hfence.opens)⟩

/-- What is found in the result was exposed. -/
theorem Scanned.exposed (he : proper e=true) (hec : consumes e=true) (hf : proper f=true)
    (hc : consumes f=true) (hK : Within K f) (hM : Fewest isWord M f 1)
    (hfence : Fence K M o c put) {text : List Char} {replaced : Bool} {b : Option Char}
    {xs ys : List Char} (h : Scanned isWord e put b xs ys)
    (hat : Arrives isWord e text replaced ⟨b,xs⟩)
    (hfound : found isWord f (if replaced=true then some c else b) ys=true) :
    Exposed isWord e f o c text := by
  have hstep : ∀ {replaced : Bool} {b : Option Char} {xs ys : List Char},
      Scanned isWord e put b xs ys→Arrives isWord e text replaced ⟨b,xs⟩→
        (matchAt isWord f ⟨if replaced=true then some c else b,ys⟩).isSome=true→
          Exposed isWord e f o c text := by
    intro replaced b xs ys h hat hsome
    obtain ⟨d,hd⟩ := Option.isSome_iff_exists.mp hsome
    exact h.exposes he hec hf hc hK hfence hat hd
  induction h generalizing replaced with
  | nil b => exact hstep (.nil b) hat hfound
  | keep miss later ih =>
    rw [found,Bool.or_eq_true] at hfound
    rcases hfound with hhere | hlater
    · exact hstep (.keep miss later) hat hhere
    · exact ih (hat.keep miss) hlater
  | cut hit later ih =>
    rw [found_behind hf hK hM hfence.closeOutside _ hfence.closes hfence.unmarked] at hfound
    exact ih (hat.cut hit) hfound

/-- A match is found in the result exactly when it was exposed. -/
theorem Scanned.contains_iff (he : proper e=true) (hec : consumes e=true) (hf : proper f=true)
    (hc : consumes f=true) (hK : Within K f) (hM : Fewest isWord M f 1)
    (hfence : Fence K M o c put) {text ys : List Char} (h : Scanned isWord e put none text ys) :
    contains isWord f ys=true ↔ Exposed isWord e f o c text := by
  refine ⟨h.exposed he hec hf hc hK hM hfence .start,?_⟩
  rintro ⟨replaced,b,s,t,hat,hkept,hm⟩
  obtain ⟨front,later,rfl,hlater,hlast⟩ := h.reaches he hec hfence.closes hat
  obtain ⟨t',rfl,hrest⟩ := hlater.keeps hkept
  rw [←hlast] at hm
  have hm' := hm.before_alike hc (hrest.next he hec hfence.opens).symm
  refine Bool.eq_true_of_not_eq_false fun hnone => ?_
  have hmiss := (found_false_iff none _).mp hnone front (s++t') rfl
  exact (matchAt_none_iff hf _).mp hmiss s t' rfl hm'

/-- Shielded matches expose nothing. -/
theorem not_exposed (hf : proper f=true) (hc : consumes f=true) (hK : Within K f)
    (ho : isWord o=false) (hclose : isWord c=false)
    (hshield : hasBoundary f=true→Shields isWord K e) {text : List Char}
    (hnone : ∀ replaced d, Arrives isWord e text replaced d→matchAt isWord e d=none→
      matchAt isWord f d=none) : ¬Exposed isWord e f o c text := by
  rintro ⟨replaced,b,s,t,hat,hkept,hm⟩
  cases s with
  | nil => exact ne_nil_of_consumes hc hm rfl
  | cons x n =>
    have hmiss := hkept [] x n rfl
    have hinside := hm.within hK
    refine (matchAt_none_iff hf _).mp (hnone _ _ hat hmiss) (x::n) t rfl
      (hm.transfer fun hb => boundaries_within ?_ ?_)
    · cases replaced with
      | false => exact id
      | true =>
        intro hbound
        have hword : isWord x=true := word_of_boundary hclose (.inl hbound)
        obtain ⟨earlier,hit⟩ := hat.hit
        exact (hshield hb).behind earlier _ x hit rfl (hinside x List.mem_cons_self) hword
    · intro p z hs hbound
      cases hnext : matchAt isWord e ⟨lastOr b (x::n),t⟩ with
      | none =>
        rw [hnext] at hbound
        exact hbound
      | some d =>
        rw [hnext] at hbound
        have hword : isWord z=true := word_of_boundary ho (.inr hbound)
        have hlast : lastOr b (x::n)=some z := by rw [hs,lastOr_concat]
        have hz : z∈x::n := hs ▸ List.mem_append_right _ (List.mem_singleton_self z)
        rw [hlast] at hnext
        exact (hshield hb).before (lastOr b p) z ⟨some z,t⟩ d hnext rfl (hkept p z [] hs)
          (hinside z hz) hword

end search

end McpGateway.RegexScan
