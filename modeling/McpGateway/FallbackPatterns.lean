import Mathlib
import McpGateway.PyText
import McpGateway.JsonValue
import McpGateway.GatewaySettings
import McpGateway.RegexMatch
import McpGateway.RegexLanguage
import McpGateway.RegexScan
import McpGateway.PyRuntime
import McpGateway.PiiRedactor

/-!
# What the fallback patterns leave

A substitution of one fallback pattern leaves no match of that pattern, and
matches of another one only if it is bounded and the substituted one is the
email pattern: an email may touch a number, which its replacement then sets
apart. A text without phone numbers has neither card nor social security
numbers.
-/

namespace McpGateway.FallbackPatterns

open PyText JsonValue GatewaySettings RegexMatch RegexLanguage RegexScan PyRuntime PiiRedactor

/-- The tables behind `\\d` and `\\w`: decimals are word characters, and ASCII
characters are classed as usual. -/
structure PythonTables (rt : Runtime) : Prop where
  /-- Decimals are word characters. -/
  decimal_word : ∀ x, rt.isDecimal x=true→ rt.isWord x=true
  /-- The ASCII decimals are the ten digits. -/
  ascii_decimal : ∀ x, x.toNat<128→ rt.isDecimal x=asciiDigit x
  /-- The ASCII word characters are letters, digits and the underscore. -/
  ascii_word : ∀ x, x.toNat<128→
    rt.isWord x=(asciiLetter x || asciiDigit x || decide (x = '_'))

/-- The inserted text of the default template. -/
def mask (entity : String) : List Char := ("<REDACTED:"++entity++">").toList

/-- Characters outside the brackets of a replacement. -/
def Plain (x : Char) : Prop := x≠ '<' ∧ x≠ '>'

/-- Characters of the bounded patterns. -/
def NumberPart (rt : Runtime) (x : Char) : Prop :=
  rt.isDecimal x=true ∨ x = ' ' ∨ x = '-' ∨ x = '.'

/-- The at sign of an email address. -/
def isAt (x : Char) : Bool := decide (x = '@')

/-- A pattern whose matches are found by their characters: all of one class,
one of them marked. -/
structure Marked (isWord : Char→Bool) (p : Regex) (K : Char→Prop) (M : Char→Bool) : Prop where
  /-- What it repeats consumes. -/
  proper : proper p=true
  /-- Its matches are not empty. -/
  consumes : consumes p=true
  /-- Their characters are of the class. -/
  within : Within K p
  /-- One of them is marked. -/
  fewest : Fewest isWord M p 1
  /-- The class has no opening bracket. -/
  openOutside : ¬K '<'
  /-- Nor a closing one. -/
  closeOutside : ¬K '>'

/-- A class without the brackets is plain. -/
theorem plain_of {accepts : Char→Bool} (hopen : accepts '<' =false) (hclose : accepts '>' =false) :
    ∀ x, accepts x=true→Plain x := by
  intro x hx
  constructor
  · rintro rfl
    exact absurd (hopen.symm.trans hx) Bool.false_ne_true
  · rintro rfl
    exact absurd (hclose.symm.trans hx) Bool.false_ne_true

/-- Email addresses are marked by their at sign. -/
theorem marked_email (isWord : Char→Bool) : Marked isWord emailAddress Plain isAt where
  proper := rfl
  consumes := rfl
  within := ⟨plain_of rfl rfl,plain_of rfl rfl,plain_of rfl rfl,plain_of rfl rfl,plain_of rfl rfl⟩
  fewest := by
    have hat : Fewest isWord isAt (char '@') 1 := fewest_one fun x hx => hx
    exact fewest_seq (fewest_zero _) (fewest_seq hat (fewest_zero _))
  openOutside := fun h => h.1 rfl
  closeOutside := fun h => h.2 rfl

section tables

variable {rt : Runtime} (ht : PythonTables rt)

include ht

/-- An ASCII character that is no digit is no decimal. -/
theorem decimal_ascii {x : Char} (hx : x.toNat<128) (hd : asciiDigit x=false) :
    rt.isDecimal x=false := (ht.ascii_decimal x hx).trans hd

/-- A word character of a bounded pattern is a decimal. -/
theorem decimal_of_word {x : Char} (hx : NumberPart rt x) (hw : rt.isWord x=true) :
    rt.isDecimal x=true := by
  rcases hx with hx | rfl | rfl | rfl
  · exact hx
  · rw [ht.ascii_word _ (by decide)] at hw
    exact absurd hw (by decide)
  · rw [ht.ascii_word _ (by decide)] at hw
    exact absurd hw (by decide)
  · rw [ht.ascii_word _ (by decide)] at hw
    exact absurd hw (by decide)

/-- Brackets are in no number. -/
theorem bracket_outside {x : Char} (hx : x = '<' ∨ x = '>') : ¬NumberPart rt x := by
  rcases hx with rfl | rfl
  · rintro (h | h)
    · rw [ht.ascii_decimal _ (by decide)] at h
      exact absurd h (by decide)
    · exact absurd h (by decide)
  · rintro (h | h)
    · rw [ht.ascii_decimal _ (by decide)] at h
      exact absurd h (by decide)
    · exact absurd h (by decide)

/-- Phone numbers are marked by their digits. -/
theorem marked_phone : Marked rt.isWord (phoneNumber rt) Plain rt.isDecimal where
  proper := rfl
  consumes := rfl
  within := by
    have hopen : rt.isDecimal '<' =false := decimal_ascii ht (by decide) (by decide)
    have hclose : rt.isDecimal '>' =false := decimal_ascii ht (by decide) (by decide)
    have hrun : ∀ x, (rt.isDecimal x || decide (x∈[' ','-','(',')','.']))=true→Plain x := by
      refine plain_of ?_ ?_
      · rw [hopen]
        decide
      · rw [hclose]
        decide
    exact ⟨plain_of rfl rfl,plain_of hopen hclose,hrun,plain_of hopen hclose⟩
  fewest := fewest_seq (m:=0) (fewest_zero _)
    (fewest_seq (fewest_one fun _ hx => hx) (n:=0) (fewest_zero _))
  openOutside := fun h => h.1 rfl
  closeOutside := fun h => h.2 rfl

end tables

/-- The patterns that begin and end at word boundaries. -/
def Bounded (rt : Runtime) (p : Regex) : Prop :=
  p=creditCard rt ∨ p=usSsn rt ∨ p=ipAddress rt

section bounded

variable {rt : Runtime}

/-- Card numbers have at least thirteen decimals. -/
theorem fewest_card : Fewest rt.isWord rt.isDecimal (creditCard rt) 13 := by
  have hdigit : Fewest rt.isWord rt.isDecimal (.one rt.isDecimal) 1 := fewest_one fun _ hx => hx
  exact fewest_seq (m:=0) (fewest_zero _) (fewest_seq (m:=13) (n:=0)
    (fewest_rep (n:=1) (fewest_seq hdigit (n:=0) (fewest_zero _))) (fewest_zero _))

/-- Counted digits have as many. -/
theorem fewest_digits (least most : ℕ) : Fewest rt.isWord rt.isDecimal
    (.rep least (some most) true (.one rt.isDecimal)) least := by
  have hdigit : Fewest rt.isWord rt.isDecimal (.one rt.isDecimal) 1 := fewest_one fun _ hx => hx
  have hall : Fewest rt.isWord rt.isDecimal (.rep least (some most) true (.one rt.isDecimal))
      (least*1) := fewest_rep hdigit
  rw [Nat.mul_one] at hall
  exact hall

/-- Social security numbers have nine. -/
theorem fewest_ssn : Fewest rt.isWord rt.isDecimal (usSsn rt) 9 :=
  fewest_seq (m:=0) (n:=9) (fewest_zero _) (fewest_seq (m:=3) (n:=6) (fewest_digits 3 3)
    (fewest_seq (m:=0) (n:=6) (fewest_zero _) (fewest_seq (m:=2) (n:=4) (fewest_digits 2 2)
      (fewest_seq (m:=0) (n:=4) (fewest_zero _) (fewest_seq (m:=4) (n:=0) (fewest_digits 4 4)
        (fewest_zero _))))))

/-- Addresses have at least one. -/
theorem fewest_ip : Fewest rt.isWord rt.isDecimal (ipAddress rt) 1 :=
  fewest_seq (m:=0) (n:=1) (fewest_zero _) (fewest_seq (m:=0) (n:=1) (fewest_zero _)
    (fewest_seq (m:=1) (n:=0) (fewest_digits 1 3) (fewest_zero _)))

/-- The bounded patterns are marked by their digits. -/
theorem Bounded.marked (ht : PythonTables rt) {p : Regex} (hp : Bounded rt p) :
    Marked rt.isWord p (NumberPart rt) rt.isDecimal := by
  have hdigit : ∀ x, rt.isDecimal x=true→NumberPart rt x := fun _ hx => .inl hx
  have hdash : ∀ x, decide (x = '-')=true→NumberPart rt x :=
    fun _ hx => .inr (.inr (.inl (of_decide_eq_true hx)))
  have hdot : ∀ x, decide (x = '.')=true→NumberPart rt x :=
    fun _ hx => .inr (.inr (.inr (of_decide_eq_true hx)))
  have hspace : ∀ x, (false || decide (x∈[' ','-']))=true→NumberPart rt x := by
    intro x hx
    rw [Bool.false_or,decide_eq_true_eq,List.mem_cons,List.mem_singleton] at hx
    rcases hx with hx | hx
    · exact .inr (.inl hx)
    · exact .inr (.inr (.inl hx))
  have hopen := bracket_outside ht (x:= '<') (.inl rfl)
  have hclose := bracket_outside ht (x:= '>') (.inr rfl)
  rcases hp with rfl | rfl | rfl
  · exact ⟨rfl,rfl,⟨trivial,⟨hdigit,hspace⟩,trivial⟩,fewest_card.mono (by omega),hopen,hclose⟩
  · exact ⟨rfl,rfl,⟨trivial,hdigit,hdash,hdigit,hdash,hdigit,trivial⟩,
      fewest_ssn.mono (by omega),hopen,hclose⟩
  · exact ⟨rfl,rfl,⟨trivial,⟨hdigit,hdot⟩,hdigit,trivial⟩,fewest_ip,hopen,hclose⟩

/-- Replaced matches of a bounded pattern were bounded. -/
theorem Bounded.shields {p : Regex} (hp : Bounded rt p) (K : Char→Prop) :
    Shields rt.isWord K p := by
  have hproper : proper p=true := by rcases hp with rfl | rfl | rfl <;> rfl
  have hopens : opensAtBoundary p=true := by rcases hp with rfl | rfl | rfl <;> rfl
  have hcloses : closesAtBoundary p=true := by rcases hp with rfl | rfl | rfl <;> rfl
  constructor
  · intro c d x hit _ _ _
    obtain ⟨s,-,hbefore,hm⟩ := matchAt_some hproper hit
    rw [hbefore]
    exact hm.closes hcloses
  · intro b x c d hit _ _ _ _
    obtain ⟨s,hrest,-,hm⟩ := matchAt_some hproper hit
    rw [hrest]
    exact hm.opens hopens

end bounded

/-- Characters within a phone number. -/
def phonePart (rt : Runtime) (x : Char) : Bool :=
  rt.isDecimal x || decide (x∈[' ','-','(',')','.'])

/-- A phone number behind its first digit. -/
def phoneTail (rt : Runtime) : Regex :=
  .seq (.rep 7 none true (.one (phonePart rt))) (.one rt.isDecimal)

section phone

variable {rt : Runtime}

/-- It has at least seven characters and a last digit. -/
theorem phoneTail_iff {b : Option Char} {s t : List Char} :
    Matches rt.isWord (phoneTail rt) b s t ↔ ∃ run z, s=run++[z] ∧ 7≤run.length ∧
      (∀ x∈run, phonePart rt x=true) ∧ rt.isDecimal z=true := by
  constructor
  · rintro ⟨run,last,rfl,⟨k,hk,-,hiter⟩,z,rfl,hz⟩
    obtain ⟨hlength,hrun⟩ := iterates_one.mp hiter
    exact ⟨run,z,rfl,by omega,hrun,hz⟩
  · rintro ⟨run,z,rfl,hlength,hrun,hz⟩
    exact ⟨run,[z],rfl,⟨run.length,hlength,fun _ h => (by cases h),iterates_one.mpr ⟨rfl,hrun⟩⟩,
      z,rfl,hz⟩

/-- A phone number has an optional plus, a first digit and a tail. -/
theorem phoneNumber_iff {b : Option Char} {s t : List Char} :
    Matches rt.isWord (phoneNumber rt) b s t ↔ ∃ plus y run z, s=plus++y::(run++[z]) ∧
      (plus=[] ∨ plus=['+']) ∧ rt.isDecimal y=true ∧ 7≤run.length ∧
      (∀ x∈run, phonePart rt x=true) ∧ rt.isDecimal z=true := by
  constructor
  · rintro ⟨plus,rest,rfl,⟨k,-,hmost,hiter⟩,first,tail,rfl,⟨y,rfl,hy⟩,htail⟩
    obtain ⟨hlength,hplus⟩ := iterates_one.mp hiter
    obtain ⟨run,z,rfl,hrun⟩ := phoneTail_iff.mp htail
    refine ⟨plus,y,run,z,rfl,?_,hy,hrun⟩
    cases plus with
    | nil => exact .inl rfl
    | cons x plus =>
      have hk := hmost 1 rfl
      have hnil : plus=[] := by
        rw [List.length_cons] at hlength
        exact List.length_eq_zero_iff.mp (by omega)
      have hx : x = '+' := of_decide_eq_true (hplus x List.mem_cons_self)
      rw [hnil,hx]
      exact .inr rfl
  · rintro ⟨plus,y,run,z,rfl,hplus,hy,hlength,hrun,hz⟩
    have htail : Matches rt.isWord (phoneTail rt) (some y) (run++[z]) t :=
      phoneTail_iff.mpr ⟨run,z,rfl,hlength,hrun,hz⟩
    have hlead : Iterates (Matches rt.isWord (char '+')) plus.length b plus
        (y::(run++[z])++t) := by
      refine iterates_one.mpr ⟨rfl,fun x hx => ?_⟩
      rcases hplus with rfl | rfl
      · exact absurd hx List.not_mem_nil
      · rw [List.mem_singleton.mp hx]
        rfl
    have hshort : plus.length≤1 := by rcases hplus with rfl | rfl <;> decide
    refine ⟨plus,y::(run++[z]),rfl,⟨plus.length,Nat.zero_le _,fun m hm => ?_,hlead⟩,
      [y],run++[z],rfl,⟨y,rfl,hy⟩,htail⟩
    cases hm
    omega

/-- The match of a phone number is the match of a tail. -/
theorem matchAt_phoneTail {c d : Cursor} (h : matchAt rt.isWord (phoneNumber rt) c=some d) :
    ∃ m, matchAt rt.isWord (phoneTail rt) m=some d := by
  have hsearch : ((ends rt.isWord (.rep 0 (some 1) true (char '+')) c).flatMap fun m =>
      (ends rt.isWord (.one rt.isDecimal) m).flatMap (ends rt.isWord (phoneTail rt))).head?=
        some d := h
  rw [List.head?_flatMap] at hsearch
  obtain ⟨m,-,hm⟩ := List.exists_of_findSome?_eq_some hsearch
  rw [List.head?_flatMap] at hm
  obtain ⟨m',-,hm'⟩ := List.exists_of_findSome?_eq_some hm
  exact ⟨m',hm'⟩

/-- A phone number is matched up to its last digit. -/
theorem phone_maximal {c d : Cursor} (h : matchAt rt.isWord (phoneNumber rt) c=some d) {x : Char}
    (hx : d.rest.head?=some x) : rt.isDecimal x=false := by
  obtain ⟨m,hm⟩ := matchAt_phoneTail h
  obtain ⟨s,hrest,-,htail⟩ := matchAt_some (r:=phoneTail rt) rfl hm
  obtain ⟨run,z,rfl,hlength,hrun,hz⟩ := phoneTail_iff.mp htail
  by_contra hno
  have hdigit : rt.isDecimal x=true := Bool.eq_true_of_not_eq_false hno
  obtain ⟨w,hw⟩ := List.head?_eq_some_iff.mp hx
  have hpart : phonePart rt z=true := by rw [phonePart,hz,Bool.true_or]
  have hlonger : Matches rt.isWord (phoneTail rt) m.before (run++[z]++[x]) w := by
    refine phoneTail_iff.mpr ⟨run++[z],x,rfl,?_,?_,hdigit⟩
    · rw [List.length_append]
      omega
    · exact List.forall_mem_append.mpr ⟨hrun,List.forall_mem_singleton.mpr hpart⟩
  have hmem : (⟨some x,w⟩ : Cursor)∈ends rt.isWord (phoneTail rt) m := by
    refine (adequate_ends (r:=phoneTail rt) rfl m _).mpr ⟨run++[z]++[x],?_,?_,hlonger⟩
    · rw [hrest,hw]
      simp only [List.append_assoc,List.cons_append,List.nil_append]
    · exact (lastOr_concat _ _ _).symm
  have hshortest := matchAt_longest hm _ hmem
  rw [hw,List.length_cons] at hshortest
  exact absurd hshortest (by simp)

/-- Replaced phone numbers were bounded where it matters: they extend over
the digits next to them. -/
theorem shields_phone (ht : PythonTables rt) :
    Shields rt.isWord (NumberPart rt) (phoneNumber rt) := by
  constructor
  · intro c d x hit hx hpart hword
    have hdigit := decimal_of_word ht hpart hword
    rw [phone_maximal hit hx] at hdigit
    cases hdigit
  · intro b x c d hit hx hmiss hpart hword
    have hdigit := decimal_of_word ht hpart hword
    obtain ⟨s,hrest,-,hm⟩ := matchAt_some (r:=phoneNumber rt) rfl hit
    obtain ⟨plus,y,run,z,rfl,hplus,hy,hlength,hrun,hz⟩ := phoneNumber_iff.mp hm
    rcases hplus with rfl | rfl
    · have hpartY : phonePart rt y=true := by rw [phonePart,hy,Bool.true_or]
      have hlonger : Matches rt.isWord (phoneNumber rt) b (x::(y::run++[z])) d.rest := by
        refine phoneNumber_iff.mpr ⟨[],x,y::run,z,rfl,.inl rfl,hdigit,?_,
          List.forall_mem_cons.mpr ⟨hpartY,hrun⟩,hz⟩
        rw [List.length_cons]
        omega
      refine absurd hlonger ((matchAt_none_iff (r:=phoneNumber rt) rfl _).mp hmiss _ _ ?_)
      rw [hrest]
      rfl
    · have hplus : rt.isWord '+' =false := (ht.ascii_word _ (by decide)).trans (by decide)
      rw [hrest,hx]
      intro hsame
      have hequal : rt.isWord x=rt.isWord '+' := hsame
      rw [hword,hplus] at hequal
      cases hequal

/-- A text with more than so many characters of a kind has one behind as many. -/
theorem exists_last_mark {M : Char→Bool} {n : ℕ} {s : List Char} (h : n<s.countP M) :
    ∃ run z w, s=run++z::w ∧ M z=true ∧ n≤run.length := by
  induction s generalizing n with
  | nil => cases h
  | cons x s ih =>
    by_cases hx : M x=true
    · cases n with
      | zero => exact ⟨[],x,s,rfl,hx,le_rfl⟩
      | succ n =>
        rw [List.countP_cons_of_pos hx] at h
        obtain ⟨run,z,w,rfl,hz,hrun⟩ := ih (Nat.lt_of_succ_lt_succ h)
        exact ⟨x::run,z,w,rfl,hz,Nat.succ_le_succ hrun⟩
    · rw [List.countP_cons_of_neg hx] at h
      obtain ⟨run,z,w,rfl,hz,hrun⟩ := ih h
      exact ⟨x::run,z,w,rfl,hz,hrun.trans (Nat.le_succ _)⟩

/-- A number that begins with a digit and has nine begins with a phone number. -/
theorem phone_of_long {p : Regex} {b : Option Char} {s t : List Char}
    (hstart : Starts rt.isWord rt.isDecimal p) (hcount : Fewest rt.isWord rt.isDecimal p 9)
    (hpart : ∀ x∈s, phonePart rt x=true) (h : Matches rt.isWord p b s t) :
    ∃ s' t', s++t=s'++t' ∧ Matches rt.isWord (phoneNumber rt) b s' t' := by
  have hnine := hcount _ _ _ h
  obtain ⟨y,rest,rfl,hy⟩ := hstart _ _ _ h
  rw [List.countP_cons_of_pos hy] at hnine
  obtain ⟨run,z,w,rfl,hz,hrun⟩ := exists_last_mark (n:=7) (by omega : 7<rest.countP rt.isDecimal)
  have hrunPart : ∀ x∈run, phonePart rt x=true := fun x hx =>
    hpart x (List.mem_cons_of_mem _ (List.mem_append_left _ hx))
  refine ⟨y::(run++[z]),w++t,?_,phoneNumber_iff.mpr ⟨[],y,run,z,rfl,.inl rfl,hy,hrun,hrunPart,hz⟩⟩
  simp only [List.cons_append,List.append_assoc,List.nil_append]

/-- A text without phone numbers has no card or social security number. -/
theorem clean_of_phone (ht : PythonTables rt) {p : Regex} (hp : p=creditCard rt ∨ p=usSsn rt)
    {text : List Char} (h : contains rt.isWord (phoneNumber rt) text=false) :
    contains rt.isWord p text=false := by
  have hbounded : Bounded rt p := by
    rcases hp with rfl | rfl
    · exact .inl rfl
    · exact .inr (.inl rfl)
  have hdigit : ∀ x, rt.isDecimal x=true→phonePart rt x=true := by
    intro x hx
    rw [phonePart,hx,Bool.true_or]
  have hsign : ∀ x, x = ' ' ∨ x = '-'→phonePart rt x=true := by
    intro x hx
    have hlisted : x∈[' ','-','(',')','.'] := by rcases hx with rfl | rfl <;> decide
    rw [phonePart,decide_eq_true hlisted,Bool.or_true]
  have hwithin : Within (fun x => phonePart rt x=true) p := by
    rcases hp with rfl | rfl
    · have hspace : ∀ x, (false || decide (x∈[' ','-']))=true→phonePart rt x=true := by
        intro x hx
        rw [Bool.false_or,decide_eq_true_eq,List.mem_cons,List.mem_singleton] at hx
        exact hsign x hx
      exact ⟨trivial,⟨hdigit,hspace⟩,trivial⟩
    · have hdash : ∀ x, decide (x = '-')=true→phonePart rt x=true :=
        fun x hx => hsign x (.inr (of_decide_eq_true hx))
      exact ⟨trivial,hdigit,hdash,hdigit,hdash,hdigit,trivial⟩
  have hcount : Fewest rt.isWord rt.isDecimal p 9 := by
    rcases hp with rfl | rfl
    · exact fewest_card.mono (by omega)
    · exact fewest_ssn
  have hstart : Starts rt.isWord rt.isDecimal p := by
    have hone : Starts rt.isWord rt.isDecimal (.one rt.isDecimal) := starts_one fun _ hx => hx
    rcases hp with rfl | rfl
    · exact starts_boundary (starts_seq (starts_rep (by omega) (starts_seq hone)))
    · exact starts_boundary (starts_seq (starts_rep (by omega) hone))
  rw [contains,found_false_iff] at h ⊢
  intro front rest hsplit
  have hphone := (matchAt_none_iff (r:=phoneNumber rt) rfl _).mp (h front rest hsplit)
  refine (matchAt_none_iff (hbounded.marked ht).proper _).mpr fun s t hrest hm => ?_
  obtain ⟨s',t',hsame,hnumber⟩ := phone_of_long hstart hcount (hm.within hwithin) hm
  exact hphone s' t' (hrest.trans hsame) hnumber

end phone

/-- Entities with a fallback pattern. -/
def fallbackNames : List String :=
  ["EMAIL_ADDRESS","PHONE_NUMBER","CREDIT_CARD","US_SSN","IP_ADDRESS"]

/-- A fallback pattern is the email pattern, the phone pattern or bounded. -/
theorem fallback_cases {rt : Runtime} {entity : String} {p : Regex}
    (h : fallbackPattern rt entity=some p) :
    entity="EMAIL_ADDRESS" ∧ p=emailAddress ∨ entity="PHONE_NUMBER" ∧ p=phoneNumber rt ∨
      entity="CREDIT_CARD" ∧ p=creditCard rt ∨ entity="US_SSN" ∧ p=usSsn rt ∨
      entity="IP_ADDRESS" ∧ p=ipAddress rt := by
  unfold fallbackPattern at h
  split at h
  · rename_i hname
    exact .inl ⟨hname,(Option.some.inj h).symm⟩
  · split at h
    · rename_i hname
      exact .inr (.inl ⟨hname,(Option.some.inj h).symm⟩)
    · split at h
      · rename_i hname
        exact .inr (.inr (.inl ⟨hname,(Option.some.inj h).symm⟩))
      · split at h
        · rename_i hname
          exact .inr (.inr (.inr (.inl ⟨hname,(Option.some.inj h).symm⟩)))
        · split at h
          · rename_i hname
            exact .inr (.inr (.inr (.inr ⟨hname,(Option.some.inj h).symm⟩)))
          · cases h

/-- The email pass over the text keeps the characters of a number that stands
directly next to an address it replaces, and with the brackets of the
replacement in the place of the address the pattern matches the number. -/
def Touching (rt : Runtime) (p : Regex) (text : List Char) : Prop :=
  Exposed rt.isWord emailAddress p '<' '>' text

/-- `pattern.subn` of one entity with its replacement. -/
def passText (rt : Runtime) (entity : String) (text : List Char) : List Char :=
  match fallbackPattern rt entity with
  | none => text
  | some p => (subn rt.isWord p (fun _ => mask entity) text).1

/-- ASCII characters but digits and the at sign. -/
def bare (x : Char) : Bool := decide (x.toNat<128) && !asciiDigit x && !isAt x

section passes

variable {rt : Runtime}

/-- The email pattern is that of its entity. -/
theorem fallback_email : fallbackPattern rt "EMAIL_ADDRESS"=some emailAddress := rfl

/-- An entity with a pattern is one of the five. -/
theorem fallback_name {entity : String} {p : Regex} (h : fallbackPattern rt entity=some p) :
    entity∈fallbackNames := by
  rcases fallback_cases h with ⟨rfl,-⟩ | ⟨rfl,-⟩ | ⟨rfl,-⟩ | ⟨rfl,-⟩ | ⟨rfl,-⟩ <;> decide

/-- What holds of the characters of a name and of the text around it holds of
its replacement. -/
theorem mask_all {q : Char→Bool} {entity : String} (hopen : "<REDACTED:".toList.all q=true)
    (hname : entity.toList.all q=true) (hclose : ">".toList.all q=true) :
    ∀ x∈mask entity, q x=true := by
  rw [mask,String.toList_append,String.toList_append]
  exact List.forall_mem_append.mpr ⟨List.forall_mem_append.mpr ⟨List.all_eq_true.mp hopen,
    List.all_eq_true.mp hname⟩,List.all_eq_true.mp hclose⟩

/-- Replacements of the five consist of bare characters. -/
theorem mask_bare {entity : String} (he : entity∈fallbackNames) : ∀ x∈mask entity, bare x=true := by
  have hnames : fallbackNames.all (fun name => name.toList.all bare)=true := rfl
  exact mask_all rfl (List.all_eq_true.mp hnames entity he) rfl

/-- They are no templates. -/
theorem mask_literal {entity : String} (he : entity∈fallbackNames) : '\\' ∉mask entity := by
  have hnames : fallbackNames.all (fun name => name.toList.all (fun x => decide (x≠ '\\')))=true :=
    rfl
  have hall : ∀ x∈mask entity, decide (x≠ '\\')=true :=
    mask_all rfl (List.all_eq_true.mp hnames entity he) rfl
  exact fun h => of_decide_eq_true (hall _ h) rfl

/-- The repetitions of a fallback pattern consume, and so does the pattern. -/
theorem fallback_consumes {entity : String} {p : Regex} (h : fallbackPattern rt entity=some p) :
    proper p=true ∧ consumes p=true := by
  rcases fallback_cases h with ⟨-,rfl⟩ | ⟨-,rfl⟩ | ⟨-,rfl⟩ | ⟨-,rfl⟩ | ⟨-,rfl⟩ <;> exact ⟨rfl,rfl⟩

/-- The replacements fence off every pattern. -/
theorem fence_mask (ht : PythonTables rt) {entity : String} (he : entity∈fallbackNames)
    {p : Regex} {K : Char→Prop} {M : Char→Bool} (hp : Marked rt.isWord p K M)
    (hm : M=isAt ∨ M=rt.isDecimal) : Fence K M '<' '>' (mask entity) where
  opens := by
    rw [mask,String.toList_append,String.toList_append]
    exact ⟨_,rfl⟩
  closes := by
    rw [mask,String.toList_append]
    exact ⟨_,rfl⟩
  openOutside := hp.openOutside
  closeOutside := hp.closeOutside
  unmarked := by
    intro x hx
    have hbare := mask_bare he x hx
    rw [bare,Bool.and_eq_true,Bool.and_eq_true,decide_eq_true_eq,Bool.not_eq_true',
      Bool.not_eq_true'] at hbare
    obtain ⟨⟨hlow,hdigit⟩,hat⟩ := hbare
    rcases hm with rfl | rfl
    · exact hat
    · exact decimal_ascii ht hlow hdigit

/-- A pass is a scan. -/
theorem passText_scanned {entity : String} {p : Regex}
    (h : fallbackPattern rt entity=some p) (text : List Char) :
    Scanned rt.isWord p (mask entity) none text (passText rt entity text) := by
  have hboth := fallback_consumes h
  rw [passText,h]
  exact substitute_scanned hboth.1 hboth.2 (mask entity) (c:=⟨none,text⟩) le_rfl

/-- A pass leaves a match exactly when it exposes one. -/
theorem pass_leaves_iff (ht : PythonTables rt) {entity : String} {e f : Regex} {K : Char→Prop}
    {M : Char→Bool} (he : fallbackPattern rt entity=some e) (hf : Marked rt.isWord f K M)
    (hm : M=isAt ∨ M=rt.isDecimal) (text : List Char) :
    contains rt.isWord f (passText rt entity text)=true ↔ Exposed rt.isWord e f '<' '>' text := by
  have hboth := fallback_consumes he
  exact (passText_scanned he text).contains_iff hboth.1 hboth.2 hf.proper hf.consumes hf.within
    hf.fewest (fence_mask ht (fallback_name he) hf hm)

/-- The email pass leaves a match of a bounded pattern exactly when a number
touches an address. -/
theorem touching_iff (ht : PythonTables rt) {p : Regex} (hp : Bounded rt p) (text : List Char) :
    Touching rt p text ↔ contains rt.isWord p (passText rt "EMAIL_ADDRESS" text)=true :=
  (pass_leaves_iff ht fallback_email (hp.marked ht) (.inr rfl) text).symm

/-- A pass leaves no match of a pattern that matches at none of the kept
characters, unless the pattern is bounded, the pass is the email pass and a
number touches an address. -/
theorem pass_clean (ht : PythonTables rt) {entity other : String} {e f : Regex}
    (he : fallbackPattern rt entity=some e) (hf : fallbackPattern rt other=some f)
    {text : List Char} (hsafe : Bounded rt f→entity="EMAIL_ADDRESS"→¬Touching rt f text)
    (hnone : ∀ replaced d, Arrives rt.isWord e text replaced d→matchAt rt.isWord e d=none→
      matchAt rt.isWord f d=none) :
    contains rt.isWord f (passText rt entity text)=false := by
  have hopen : rt.isWord '<' =false := (ht.ascii_word _ (by decide)).trans (by decide)
  have hclose : rt.isWord '>' =false := (ht.ascii_word _ (by decide)).trans (by decide)
  have hshielded : ∀ {K : Char→Prop} {M : Char→Bool}, Marked rt.isWord f K M→
      M=isAt ∨ M=rt.isDecimal→(hasBoundary f=true→Shields rt.isWord K e)→
      contains rt.isWord f (passText rt entity text)=false := by
    intro K M hmarked hmark hshield
    have hnot := not_exposed hmarked.proper hmarked.consumes hmarked.within hopen hclose hshield
      hnone
    exact Bool.eq_false_iff.mpr (mt (pass_leaves_iff ht he hmarked hmark text).mp hnot)
  have hbounded : Bounded rt f→contains rt.isWord f (passText rt entity text)=false := by
    intro hb
    have hmarked := hb.marked ht
    rcases fallback_cases he with ⟨hemail,rfl⟩ | ⟨-,rfl⟩ | ⟨-,rfl⟩ | ⟨-,rfl⟩ | ⟨-,rfl⟩
    · have hnot := hsafe hb hemail
      exact Bool.eq_false_iff.mpr (mt (pass_leaves_iff ht he hmarked (.inr rfl) text).mp hnot)
    · exact hshielded hmarked (.inr rfl) fun _ => shields_phone ht
    · exact hshielded hmarked (.inr rfl) fun _ => Bounded.shields (.inl rfl) _
    · exact hshielded hmarked (.inr rfl) fun _ => Bounded.shields (.inr (.inl rfl)) _
    · exact hshielded hmarked (.inr rfl) fun _ => Bounded.shields (.inr (.inr rfl)) _
  rcases fallback_cases hf with ⟨-,rfl⟩ | ⟨-,rfl⟩ | ⟨-,rfl⟩ | ⟨-,rfl⟩ | ⟨-,rfl⟩
  · exact hshielded (marked_email rt.isWord) (.inl rfl) fun hb => (by cases hb)
  · exact hshielded (marked_phone ht) (.inr rfl) fun hb => (by cases hb)
  · exact hbounded (.inl rfl)
  · exact hbounded (.inr (.inl rfl))
  · exact hbounded (.inr (.inr rfl))

/-- A pass leaves none of its own matches. -/
theorem pass_own (ht : PythonTables rt) {entity : String} {p : Regex}
    (h : fallbackPattern rt entity=some p) (text : List Char) :
    contains rt.isWord p (passText rt entity text)=false := by
  refine pass_clean ht h h (fun hb hemail => ?_) (fun _ _ _ hmiss => hmiss)
  have hp : emailAddress=p := by
    rw [hemail] at h
    exact Option.some.inj h
  have hboundary : hasBoundary p=true := by rcases hb with rfl | rfl | rfl <;> rfl
  rw [←hp] at hboundary
  cases hboundary

/-- A pass exposes no match, unless it is the email pass, the pattern is
bounded and a number touches an address. -/
theorem pass_keeps (ht : PythonTables rt) {entity other : String} {e f : Regex}
    (he : fallbackPattern rt entity=some e) (hf : fallbackPattern rt other=some f)
    {text : List Char} (hsafe : Bounded rt f→entity="EMAIL_ADDRESS"→¬Touching rt f text)
    (hclean : contains rt.isWord f text=false) :
    contains rt.isWord f (passText rt entity text)=false := by
  refine pass_clean ht he hf hsafe fun _ d hat _ => ?_
  obtain ⟨front,hsplit,hbefore⟩ := hat.split (fallback_consumes he).1
  have hnone := (found_false_iff none text).mp hclean front d.rest hsplit
  rwa [←hbefore] at hnone

/-- A pass over a text without matches does nothing. -/
theorem pass_idle {entity : String} {p : Regex}
    (h : fallbackPattern rt entity=some p) {text : List Char}
    (hclean : contains rt.isWord p text=false) : passText rt entity text=text :=
  (passText_scanned h text).eq_of_clean hclean

end passes

end McpGateway.FallbackPatterns
