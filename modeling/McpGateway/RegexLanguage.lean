import Mathlib
import McpGateway.RegexMatch

/-!
# The language of a regular expression

Whether an expression matches a text between two contexts, without an order
of attempts. A backtracking matcher whose repetitions consume finds exactly
these matches. Contexts matter at word boundaries only.
-/

namespace McpGateway.RegexLanguage

open RegexMatch

/-- The character before the position behind a text. -/
def lastOr (before : Option Char) : List Char→Option Char
  | [] => before
  | x::xs => lastOr (some x) xs

/-- Texts that split into a number of matched parts. -/
def Iterates (M : Option Char→List Char→List Char→Prop) :
    ℕ→Option Char→List Char→List Char→Prop
  | 0,_,s,_ => s=[]
  | n+1,b,s,t => ∃ s₁ s₂, s=s₁++s₂ ∧ M b s₁ (s₂++t) ∧ Iterates M n (lastOr b s₁) s₂ t

section language

variable (isWord : Char→Bool)

/-- A word character meets another one or an end. -/
def Boundary (before : Option Char) (rest : List Char) : Prop :=
  wordAt isWord before≠wordAt isWord rest.head?

/-- The expression matches a text behind one character and before others. -/
def Matches : Regex→Option Char→List Char→List Char→Prop
  | .one accepts,_,s,_ => ∃ x, s=[x] ∧ accepts x=true
  | .boundary,b,s,t => s=[] ∧ Boundary isWord b t
  | .seq first second,b,s,t =>
    ∃ s₁ s₂, s=s₁++s₂ ∧ Matches first b s₁ (s₂++t) ∧ Matches second (lastOr b s₁) s₂ t
  | .rep least most _ body,b,s,t =>
    ∃ k, least≤k ∧ (∀ m∈most, k≤ max least m) ∧ Iterates (Matches body) k b s t

end language

/-- Whether every match of the expression has a character. -/
def consumes : Regex→Bool
  | .one _ => true
  | .boundary => false
  | .seq first second => consumes first || consumes second
  | .rep least _ _ body => decide (0<least) && consumes body

/-- Whether everything that is repeated consumes. -/
def proper : Regex→Bool
  | .one _ => true
  | .boundary => true
  | .seq first second => proper first && proper second
  | .rep _ _ _ body => proper body && consumes body

/-- A search finds the ends of exactly the matched texts. -/
def Adequate (next : Cursor→List Cursor) (M : Option Char→List Char→List Char→Prop) : Prop :=
  ∀ c d, d∈next c ↔ ∃ s, c.rest=s++d.rest ∧ d.before=lastOr c.before s ∧ M c.before s d.rest

/-- Behind two texts is behind the second. -/
theorem lastOr_append (b : Option Char) (s t : List Char) :
    lastOr b (s++t)=lastOr (lastOr b s) t := by
  induction s generalizing b with
  | nil => rfl
  | cons x xs ih => exact ih (some x)

/-- Behind a text that ends with a character is that character. -/
@[simp] theorem lastOr_concat (b : Option Char) (s : List Char) (x : Char) :
    lastOr b (s++[x])=some x := lastOr_append b s [x]

/-- One search after the other. -/
theorem adequate_seq {next next' : Cursor→List Cursor}
    {M M' : Option Char→List Char→List Char→Prop} (h : Adequate next M) (h' : Adequate next' M') :
    Adequate (fun c => (next c).flatMap next') (fun b s t =>
      ∃ s₁ s₂, s=s₁++s₂ ∧ M b s₁ (s₂++t) ∧ M' (lastOr b s₁) s₂ t) := by
  intro c d
  rw [List.mem_flatMap]
  constructor
  · rintro ⟨m,hm,hd⟩
    obtain ⟨s₁,hrest,hbefore,hfirst⟩ := (h c m).mp hm
    obtain ⟨s₂,hrest',hbefore',hsecond⟩ := (h' m d).mp hd
    refine ⟨s₁++s₂,?_,?_,s₁,s₂,rfl,?_,?_⟩
    · rw [hrest,hrest',List.append_assoc]
    · rw [hbefore',hbefore,lastOr_append]
    · rw [←hrest']
      exact hfirst
    · rw [←hbefore]
      exact hsecond
  · rintro ⟨s,hrest,hbefore,s₁,s₂,rfl,hfirst,hsecond⟩
    refine ⟨⟨lastOr c.before s₁,s₂++d.rest⟩,(h c _).mpr ⟨s₁,?_,rfl,hfirst⟩,
      (h' _ d).mpr ⟨s₂,rfl,?_,hsecond⟩⟩
    · rw [hrest,List.append_assoc]
    · rw [hbefore,lastOr_append]

/-- The same search some number of times. -/
theorem adequate_exactly {next : Cursor→List Cursor}
    {M : Option Char→List Char→List Char→Prop} (h : Adequate next M) (n : ℕ) :
    Adequate (exactly next n) (Iterates M n) := by
  induction n with
  | zero =>
    intro c d
    rw [exactly,List.mem_singleton]
    constructor
    · rintro rfl
      exact ⟨[],rfl,rfl,rfl⟩
    · rintro ⟨s,hrest,hbefore,rfl⟩
      obtain ⟨before,rest⟩ := c
      obtain ⟨before',rest'⟩ := d
      cases hrest
      cases hbefore
      rfl
  | succ n ih => exact adequate_seq h ih

/-- Iterations in two runs. -/
theorem iterates_add {M : Option Char→List Char→List Char→Prop} (m n : ℕ) (b : Option Char)
    (s t : List Char) : Iterates M (m+n) b s t ↔
      ∃ s₁ s₂, s=s₁++s₂ ∧ Iterates M m b s₁ (s₂++t) ∧ Iterates M n (lastOr b s₁) s₂ t := by
  induction m generalizing b s with
  | zero =>
    rw [Nat.zero_add]
    constructor
    · exact fun h => ⟨[],s,rfl,rfl,h⟩
    · rintro ⟨s₁,s₂,rfl,rfl,h⟩
      exact h
  | succ m ih =>
    rw [Nat.succ_add]
    constructor
    · rintro ⟨s₁,s₂,rfl,hhead,htail⟩
      obtain ⟨s₃,s₄,rfl,hmiddle,hend⟩ := (ih _ _).mp htail
      refine ⟨s₁++s₃,s₄,(List.append_assoc _ _ _).symm,⟨s₁,s₃,rfl,?_,hmiddle⟩,?_⟩
      · rw [←List.append_assoc]
        exact hhead
      · rw [lastOr_append]
        exact hend
    · rintro ⟨s₁,s₂,rfl,⟨s₃,s₄,rfl,hhead,hmiddle⟩,hend⟩
      refine ⟨s₃,s₄++s₂,List.append_assoc _ _ _,?_,(ih _ _).mpr ⟨s₄,s₂,rfl,hmiddle,?_⟩⟩
      · rw [List.append_assoc]
        exact hhead
      · rw [←lastOr_append]
        exact hend

/-- Each iteration of a part that consumes takes a character. -/
theorem iterates_length {M : Option Char→List Char→List Char→Prop}
    (h : ∀ b s t, M b s t→s≠[]) {n : ℕ} {b : Option Char} {s t : List Char}
    (hn : Iterates M n b s t) : n≤ s.length := by
  induction n generalizing b s with
  | zero => exact Nat.zero_le _
  | succ n ih =>
    obtain ⟨s₁,s₂,rfl,hhead,htail⟩ := hn
    have hfirst : 0<s₁.length := List.length_pos_of_ne_nil (h _ _ _ hhead)
    have hsecond := ih htail
    rw [List.length_append]
    omega

/-- Further iterations are some number up to the limit. -/
theorem mem_upTo {next : Cursor→List Cursor} {greedy : Bool} {n : ℕ} {c d : Cursor} :
    d∈upTo next greedy n c ↔ ∃ k≤n, d∈exactly next k c := by
  induction n generalizing c with
  | zero =>
    constructor
    · exact fun h => ⟨0,le_rfl,h⟩
    · rintro ⟨k,hk,h⟩
      rw [Nat.le_zero.mp hk] at h
      exact h
  | succ n ih =>
    have hsplit : d∈upTo next greedy (n+1) c ↔
        d=c ∨ d∈(next c).flatMap (upTo next greedy n) := by
      rw [upTo]
      cases greedy with
      | true => simp [or_comm]
      | false => simp
    rw [hsplit,List.mem_flatMap]
    constructor
    · rintro (rfl | ⟨m,hm,hd⟩)
      · exact ⟨0,Nat.zero_le _,List.mem_singleton_self _⟩
      · obtain ⟨k,hk,hd⟩ := ih.mp hd
        exact ⟨k+1,Nat.succ_le_succ hk,List.mem_flatMap.mpr ⟨m,hm,hd⟩⟩
    · rintro ⟨k,hk,hd⟩
      cases k with
      | zero => exact .inl (List.mem_singleton.mp hd)
      | succ k =>
        obtain ⟨m,hm,hd⟩ := List.mem_flatMap.mp hd
        exact .inr ⟨m,hm,ih.mpr ⟨k,Nat.le_of_succ_le_succ hk,hd⟩⟩

section language

variable {isWord : Char→Bool}

/-- An expression that consumes matches no empty text. -/
theorem ne_nil_of_consumes {r : Regex} (hr : consumes r=true) {b : Option Char} {s t : List Char}
    (h : Matches isWord r b s t) : s≠[] := by
  induction r generalizing b s t with
  | one accepts =>
    obtain ⟨x,rfl,-⟩ := h
    exact List.cons_ne_nil _ _
  | boundary => cases hr
  | seq first second ih ih' =>
    obtain ⟨s₁,s₂,rfl,hfirst,hsecond⟩ := h
    rw [consumes,Bool.or_eq_true] at hr
    rcases hr with hr | hr
    · exact List.append_ne_nil_of_left_ne_nil (ih hr hfirst) _
    · exact List.append_ne_nil_of_right_ne_nil _ (ih' hr hsecond)
  | rep least most greedy body ih =>
    obtain ⟨k,hk,-,hiter⟩ := h
    rw [consumes,Bool.and_eq_true,decide_eq_true_eq] at hr
    have hlength := iterates_length (fun b s t h => ih hr.2 h) hiter
    exact List.ne_nil_of_length_pos (by omega)

/-- A search for one character of a class. -/
theorem adequate_one (accepts : Char→Bool) :
    Adequate (ends isWord (.one accepts)) (Matches isWord (.one accepts)) := by
  rintro ⟨before,rest⟩ ⟨before',rest'⟩
  rw [ends]
  cases rest with
  | nil =>
    constructor
    · exact fun h => absurd h List.not_mem_nil
    · rintro ⟨s,hrest,-,y,rfl,-⟩
      cases hrest
  | cons x xs =>
    constructor
    · intro h
      dsimp only at h
      split at h
      · rename_i hx
        cases List.mem_singleton.mp h
        exact ⟨[x],rfl,rfl,x,rfl,hx⟩
      · exact absurd h List.not_mem_nil
    · rintro ⟨s,hrest,hbefore,y,rfl,hy⟩
      cases hrest
      dsimp only
      rw [if_pos hy,List.mem_singleton]
      cases hbefore
      rfl

/-- A search for a boundary. -/
theorem adequate_boundary : Adequate (ends isWord .boundary) (Matches isWord .boundary) := by
  rintro ⟨before,rest⟩ ⟨before',rest'⟩
  rw [ends]
  constructor
  · intro h
    split at h
    · exact absurd h List.not_mem_nil
    · rename_i hb
      cases List.mem_singleton.mp h
      exact ⟨[],rfl,rfl,rfl,hb⟩
  · rintro ⟨s,hrest,hbefore,rfl,hb⟩
    cases hrest
    cases hbefore
    rw [if_neg hb]
    exact List.mem_singleton_self _

end language

/-- A search between two counts; without an upper one the length of the text
is enough. -/
theorem adequate_rep {next : Cursor→List Cursor} {M : Option Char→List Char→List Char→Prop}
    (h : Adequate next M) (hc : ∀ b s t, M b s t→s≠[]) (least : ℕ) (most : Option ℕ)
    (greedy : Bool) :
    Adequate (fun c => (exactly next least c).flatMap (fun d =>
        upTo next greedy ((most.map (· -least)).getD d.rest.length) d))
      (fun b s t => ∃ k, least≤k ∧ (∀ m∈most, k≤ max least m) ∧ Iterates M k b s t) := by
  have hexactly : ∀ n, Adequate (exactly next n) (Iterates M n) := adequate_exactly h
  intro c d
  rw [List.mem_flatMap]
  constructor
  · rintro ⟨m,hm,hd⟩
    obtain ⟨j,hj,hd⟩ := mem_upTo.mp hd
    have hboth := (adequate_seq (hexactly least) (hexactly j) c d).mp
      (List.mem_flatMap.mpr ⟨m,hm,hd⟩)
    obtain ⟨s,hrest,hbefore,hsplit⟩ := hboth
    refine ⟨s,hrest,hbefore,least+j,by omega,?_,(iterates_add _ _ _ _ _).mpr hsplit⟩
    intro most' hmost
    cases hmost
    have hlimit : j≤ most'-least := hj
    omega
  · rintro ⟨s,hrest,hbefore,k,hk,hmost,hiter⟩
    obtain ⟨j,rfl⟩ := Nat.exists_eq_add_of_le hk
    obtain ⟨s₁,s₂,rfl,hfirst,hsecond⟩ := (iterates_add _ _ _ _ _).mp hiter
    have hm : (⟨lastOr c.before s₁,s₂++d.rest⟩ : Cursor)∈exactly next least c := by
      refine (hexactly least c _).mpr ⟨s₁,?_,rfl,hfirst⟩
      rw [hrest,List.append_assoc]
    have hd : d∈exactly next j ⟨lastOr c.before s₁,s₂++d.rest⟩ := by
      refine (hexactly j _ d).mpr ⟨s₂,rfl,?_,hsecond⟩
      rw [hbefore,lastOr_append]
    refine ⟨_,hm,mem_upTo.mpr ⟨j,?_,hd⟩⟩
    cases most with
    | none =>
      have hlength : j≤ s₂.length := iterates_length hc hsecond
      change j≤(s₂++d.rest).length
      rw [List.length_append]
      omega
    | some most =>
      have hlimit := hmost most rfl
      change j≤ most-least
      omega

section language

variable {isWord : Char→Bool}

/-- The matcher finds exactly the matches of a proper expression. -/
theorem adequate_ends {r : Regex} (hr : proper r=true) :
    Adequate (ends isWord r) (Matches isWord r) := by
  induction r with
  | one accepts => exact adequate_one accepts
  | boundary => exact adequate_boundary
  | seq first second ih ih' =>
    rw [proper,Bool.and_eq_true] at hr
    exact adequate_seq (ih hr.1) (ih' hr.2)
  | rep least most greedy body ih =>
    rw [proper,Bool.and_eq_true] at hr
    exact adequate_rep (ih hr.1) (fun _ _ _ h => ne_nil_of_consumes hr.2 h) least most greedy

/-- There is no match at a cursor when no text from there on is matched. -/
theorem matchAt_none_iff {r : Regex} (hr : proper r=true) (c : Cursor) :
    matchAt isWord r c=none ↔ ∀ s t, c.rest=s++t→¬Matches isWord r c.before s t := by
  rw [matchAt,List.head?_eq_none_iff,List.eq_nil_iff_forall_not_mem]
  constructor
  · intro h s t hrest hm
    exact h ⟨lastOr c.before s,t⟩ ((adequate_ends hr c _).mpr ⟨s,hrest,rfl,hm⟩)
  · intro h d hd
    obtain ⟨s,hrest,-,hm⟩ := (adequate_ends hr c d).mp hd
    exact h s d.rest hrest hm

/-- The match at a cursor is a matched text. -/
theorem matchAt_some {r : Regex} (hr : proper r=true) {c d : Cursor}
    (h : matchAt isWord r c=some d) :
    ∃ s, c.rest=s++d.rest ∧ d.before=lastOr c.before s ∧ Matches isWord r c.before s d.rest :=
  (adequate_ends hr c d).mp (List.mem_of_mem_head? (Option.mem_def.mpr h))

end language

/-- Whether a boundary occurs in the expression. -/
def hasBoundary : Regex→Bool
  | .one _ => false
  | .boundary => true
  | .seq first second => hasBoundary first || hasBoundary second
  | .rep _ _ _ body => hasBoundary body

/-- Every class of the expression lies in a set of characters. -/
def Within (K : Char→Prop) : Regex→Prop
  | .one accepts => ∀ x, accepts x=true→K x
  | .boundary => True
  | .seq first second => Within K first ∧ Within K second
  | .rep _ _ _ body => Within K body

section language

variable {isWord : Char→Bool}

/-- Contexts can be exchanged where the boundaries of the matched text stay. -/
theorem Matches.transfer {r : Regex} {b b' : Option Char} {s t t' : List Char}
    (h : Matches isWord r b' s t')
    (hb : hasBoundary r=true→∀ p q, s=p++q→Boundary isWord (lastOr b' p) (q++t')→
      Boundary isWord (lastOr b p) (q++t)) : Matches isWord r b s t := by
  induction r generalizing b b' s t t' with
  | one accepts => exact h
  | boundary =>
    obtain ⟨rfl,hbound⟩ := h
    exact ⟨rfl,hb rfl [] [] rfl hbound⟩
  | seq first second ih ih' =>
    obtain ⟨s₁,s₂,rfl,hfirst,hsecond⟩ := h
    refine ⟨s₁,s₂,rfl,ih hfirst fun hf p q hs => ?_,ih' hsecond fun hf p q hs => ?_⟩
    · have hsame := hb (by rw [hasBoundary,hf,Bool.true_or]) p (q++s₂)
        (by rw [hs,List.append_assoc])
      rw [List.append_assoc,List.append_assoc] at hsame
      exact hsame
    · have hsame := hb (by rw [hasBoundary,hf,Bool.or_true]) (s₁++p) q
        (by rw [hs,List.append_assoc])
      rw [lastOr_append,lastOr_append] at hsame
      exact hsame
  | rep least most greedy body ih =>
    obtain ⟨k,hk,hmost,hiter⟩ := h
    refine ⟨k,hk,hmost,?_⟩
    clear hk hmost
    induction k generalizing b b' s with
    | zero => exact hiter
    | succ k ihk =>
      obtain ⟨s₁,s₂,rfl,hfirst,hsecond⟩ := hiter
      refine ⟨s₁,s₂,rfl,ih hfirst fun hf p q hs => ?_,ihk (fun hf p q hs => ?_) hsecond⟩
      · have hsame := hb hf p (q++s₂) (by rw [hs,List.append_assoc])
        rw [List.append_assoc,List.append_assoc] at hsame
        exact hsame
      · have hsame := hb hf (s₁++p) q (by rw [hs,List.append_assoc])
        rw [lastOr_append,lastOr_append] at hsame
        exact hsame

/-- A boundary next to a character that is no word character is at a word. -/
theorem word_of_boundary {c x : Char} {w : List Char} (hc : isWord c=false)
    (h : Boundary isWord (some c) (x::w) ∨ Boundary isWord (some x) (c::w)) : isWord x=true := by
  by_contra hno
  have hx : isWord x=false := Bool.eq_false_iff.mpr hno
  rcases h with h | h
  · exact h (hc.trans hx.symm)
  · exact h (hx.trans hc.symm)

/-- The boundaries of a text in two contexts are related when those at its
ends are. -/
theorem boundaries_within {b b' : Option Char} {s t t' : List Char}
    (hstart : Boundary isWord b' (s++t')→Boundary isWord b (s++t))
    (hend : ∀ p z, s=p++[z]→Boundary isWord (some z) t'→Boundary isWord (some z) t) :
    ∀ p q, s=p++q→Boundary isWord (lastOr b' p) (q++t')→
      Boundary isWord (lastOr b p) (q++t) := by
  intro p q hsplit hbound
  rcases List.eq_nil_or_concat p with rfl | ⟨front,z,rfl⟩
  · rw [List.nil_append] at hsplit
    subst hsplit
    exact hstart hbound
  · rw [List.concat_eq_append] at hsplit hbound ⊢
    rw [lastOr_concat] at hbound ⊢
    cases q with
    | nil =>
      rw [List.append_nil] at hsplit
      exact hend front z hsplit hbound
    | cons y q => exact hbound

/-- A match stands before every text that begins alike. -/
theorem Matches.before_alike {r : Regex} (hr : consumes r=true) {b : Option Char}
    {s t t' : List Char} (hm : Matches isWord r b s t) (hnext : t.head?=t'.head?) :
    Matches isWord r b s t' := by
  refine hm.transfer fun _ => boundaries_within ?_ ?_
  · cases s with
    | nil => exact absurd rfl (ne_nil_of_consumes hr hm)
    | cons x s => exact id
  · intro p z _ hbound
    rw [Boundary] at hbound ⊢
    rwa [←hnext]

/-- Every character of a match is in one of the classes. -/
theorem Matches.within {K : Char→Prop} {r : Regex} (hr : Within K r) {b : Option Char}
    {s t : List Char} (h : Matches isWord r b s t) : ∀ x∈s, K x := by
  induction r generalizing b s t with
  | one accepts =>
    obtain ⟨x,rfl,hx⟩ := h
    exact List.forall_mem_singleton.mpr (hr x hx)
  | boundary =>
    obtain ⟨rfl,-⟩ := h
    exact fun x hx => absurd hx List.not_mem_nil
  | seq first second ih ih' =>
    obtain ⟨s₁,s₂,rfl,hfirst,hsecond⟩ := h
    exact List.forall_mem_append.mpr ⟨ih hr.1 hfirst,ih' hr.2 hsecond⟩
  | rep least most greedy body ih =>
    obtain ⟨k,-,-,hiter⟩ := h
    induction k generalizing b s with
    | zero =>
      rw [hiter]
      exact fun x hx => absurd hx List.not_mem_nil
    | succ k ihk =>
      obtain ⟨s₁,s₂,rfl,hfirst,hsecond⟩ := hiter
      exact List.forall_mem_append.mpr ⟨ih hr hfirst,ihk hsecond⟩

/-- Every match has at least so many characters of a kind. -/
def Fewest (isWord M : Char→Bool) (r : Regex) (n : ℕ) : Prop :=
  ∀ b s t, Matches isWord r b s t→n≤ s.countP M

section fewest

variable {M : Char→Bool} {m n : ℕ} {first second : Regex}

/-- No expression has fewer than none. -/
theorem fewest_zero (r : Regex) : Fewest isWord M r 0 := fun _ _ _ _ => Nat.zero_le _

/-- An expression that has more has as many. -/
theorem Fewest.mono (h : Fewest isWord M first n) (hmn : m≤n) : Fewest isWord M first m :=
  fun b s t hm => hmn.trans (h b s t hm)

/-- A class of the kind has one. -/
theorem fewest_one {accepts : Char→Bool} (h : ∀ x, accepts x=true→M x=true) :
    Fewest isWord M (.one accepts) 1 := by
  rintro b s t ⟨x,rfl,hx⟩
  rw [List.countP_singleton,if_pos (h x hx)]

/-- Numbers add up along a sequence. -/
theorem fewest_seq (hfirst : Fewest isWord M first m) (hsecond : Fewest isWord M second n) :
    Fewest isWord M (.seq first second) (m+n) := by
  rintro b s t ⟨s₁,s₂,rfl,h,h'⟩
  rw [List.countP_append]
  exact Nat.add_le_add (hfirst _ _ _ h) (hsecond _ _ _ h')

/-- They multiply under a repetition. -/
theorem fewest_rep {least : ℕ} {most : Option ℕ} {greedy : Bool}
    (hbody : Fewest isWord M first n) :
    Fewest isWord M (.rep least most greedy first) (least*n) := by
  rintro b s t ⟨k,hk,-,hiter⟩
  have hall : k*n≤ s.countP M := by
    clear hk
    induction k generalizing b s with
    | zero => rw [Nat.zero_mul]; exact Nat.zero_le _
    | succ k ih =>
      obtain ⟨s₁,s₂,rfl,h,h'⟩ := hiter
      have hone := hbody _ _ _ h
      have hrest := ih _ _ h'
      rw [List.countP_append,Nat.succ_mul]
      omega
  exact (Nat.mul_le_mul_right n hk).trans hall

end fewest

/-- Every match begins with a character of a kind. -/
def Starts (isWord M : Char→Bool) (r : Regex) : Prop :=
  ∀ b s t, Matches isWord r b s t→∃ x rest, s=x::rest ∧ M x=true

section starts

variable {M : Char→Bool} {first second : Regex}

/-- A class of the kind does. -/
theorem starts_one {accepts : Char→Bool} (h : ∀ x, accepts x=true→M x=true) :
    Starts isWord M (.one accepts) := by
  rintro b s t ⟨x,rfl,hx⟩
  exact ⟨x,[],rfl,h x hx⟩

/-- A sequence does when its first part does. -/
theorem starts_seq (h : Starts isWord M first) : Starts isWord M (.seq first second) := by
  rintro b s t ⟨s₁,s₂,rfl,hfirst,-⟩
  obtain ⟨x,rest,rfl,hx⟩ := h _ _ _ hfirst
  exact ⟨x,rest++s₂,rfl,hx⟩

/-- A boundary in front changes nothing. -/
theorem starts_boundary (h : Starts isWord M second) :
    Starts isWord M (.seq .boundary second) := by
  rintro b s t ⟨s₁,s₂,rfl,⟨rfl,-⟩,hsecond⟩
  exact h _ _ _ hsecond

/-- A repetition does when it is not empty. -/
theorem starts_rep {least : ℕ} {most : Option ℕ} {greedy : Bool} (hleast : 0<least)
    (h : Starts isWord M first) : Starts isWord M (.rep least most greedy first) := by
  rintro b s t ⟨k,hk,-,hiter⟩
  cases k with
  | zero => omega
  | succ k =>
    obtain ⟨s₁,s₂,rfl,hfirst,-⟩ := hiter
    obtain ⟨x,rest,rfl,hx⟩ := h _ _ _ hfirst
    exact ⟨x,rest++s₂,rfl,hx⟩

end starts

/-- Iterations of a class are texts of its characters. -/
theorem iterates_one {accepts : Char→Bool} {k : ℕ} {b : Option Char} {s t : List Char} :
    Iterates (Matches isWord (.one accepts)) k b s t ↔
      s.length=k ∧ ∀ x∈s, accepts x=true := by
  induction k generalizing b s with
  | zero =>
    rw [Iterates,List.length_eq_zero_iff]
    constructor
    · rintro rfl
      exact ⟨rfl,fun x hx => absurd hx List.not_mem_nil⟩
    · exact fun h => h.1
  | succ k ih =>
    constructor
    · rintro ⟨s₁,s₂,rfl,⟨x,rfl,hx⟩,htail⟩
      obtain ⟨hlength,hall⟩ := ih.mp htail
      exact ⟨congrArg Nat.succ hlength,List.forall_mem_cons.mpr ⟨hx,hall⟩⟩
    · rintro ⟨hlength,hall⟩
      cases s with
      | nil => cases hlength
      | cons x xs =>
        obtain ⟨hx,hxs⟩ := List.forall_mem_cons.mp hall
        exact ⟨[x],xs,rfl,⟨x,rfl,hx⟩,ih.mpr ⟨Nat.succ.inj hlength,hxs⟩⟩

end language

/-- Whether the expression begins with a boundary. -/
def opensAtBoundary : Regex→Bool
  | .boundary => true
  | .seq first _ => opensAtBoundary first
  | _ => false

/-- Whether the expression ends with a boundary. -/
def closesAtBoundary : Regex→Bool
  | .boundary => true
  | .seq _ second => closesAtBoundary second
  | _ => false

section language

variable {isWord : Char→Bool}

/-- Then its matches begin at one. -/
theorem Matches.opens {r : Regex} (hr : opensAtBoundary r=true) {b : Option Char}
    {s t : List Char} (h : Matches isWord r b s t) : Boundary isWord b (s++t) := by
  induction r generalizing b s t with
  | one accepts => cases hr
  | boundary =>
    obtain ⟨rfl,hbound⟩ := h
    exact hbound
  | seq first second ih ih' =>
    obtain ⟨s₁,s₂,rfl,hfirst,-⟩ := h
    rw [List.append_assoc]
    exact ih hr hfirst
  | rep least most greedy body ih => cases hr

/-- Then its matches end at one. -/
theorem Matches.closes {r : Regex} (hr : closesAtBoundary r=true) {b : Option Char}
    {s t : List Char} (h : Matches isWord r b s t) : Boundary isWord (lastOr b s) t := by
  induction r generalizing b s t with
  | one accepts => cases hr
  | boundary =>
    obtain ⟨rfl,hbound⟩ := h
    exact hbound
  | seq first second ih ih' =>
    obtain ⟨s₁,s₂,rfl,-,hsecond⟩ := h
    rw [lastOr_append]
    exact ih' hr hsecond
  | rep least most greedy body ih => cases hr

/-- Without boundaries word characters do not matter. -/
theorem ends_free {isWord' : Char→Bool} {r : Regex} (hr : hasBoundary r=false) :
    ends isWord r=ends isWord' r := by
  induction r with
  | one accepts => rfl
  | boundary => cases hr
  | seq first second ih ih' =>
    obtain ⟨hfirst,hsecond⟩ := Bool.or_eq_false_iff.mp hr
    funext c
    rw [ends,ends,ih hfirst,ih' hsecond]
  | rep least most greedy body ih =>
    funext c
    rw [ends,ends,ih hr]

section greedy

variable {accepts last : Char→Bool}

/-- A class matches in one way or in none. -/
theorem ends_one_length (c : Cursor) : ∀ d∈ends isWord (.one accepts) c,
    ends isWord (.one accepts) c=[d] ∧ d.rest.length+1=c.rest.length := by
  obtain ⟨before,rest⟩ := c
  rw [ends]
  cases rest with
  | nil => exact fun d hd => absurd hd List.not_mem_nil
  | cons x xs =>
    dsimp only
    split
    · intro d hd
      cases List.mem_singleton.mp hd
      exact ⟨rfl,rfl⟩
    · exact fun d hd => absurd hd List.not_mem_nil

/-- So does a class repeated some number of times. -/
theorem exactly_one_eq {n : ℕ} (c : Cursor) : ∀ d∈exactly (ends isWord (.one accepts)) n c,
    exactly (ends isWord (.one accepts)) n c=[d] := by
  induction n generalizing c with
  | zero =>
    intro d hd
    rw [List.mem_singleton.mp hd]
    rfl
  | succ n ih =>
    intro d hd
    rw [exactly] at hd ⊢
    obtain ⟨m,hm,hd⟩ := List.mem_flatMap.mp hd
    rw [(ends_one_length c m hm).1,List.flatMap_singleton]
    exact ih m d hd

/-- Searches that start from at most one cursor keep the order of one. -/
theorem pairwise_flatMap_single {R : Cursor→Cursor→Prop} {starts : List Cursor}
    {next : Cursor→List Cursor} (hone : ∀ d∈starts, starts=[d])
    (hnext : ∀ d∈starts, (next d).Pairwise R) : (starts.flatMap next).Pairwise R := by
  cases starts with
  | nil => exact List.Pairwise.nil
  | cons d others =>
    have hd : d∈d::others := List.mem_cons_self
    rw [hone d hd,List.flatMap_singleton]
    exact hnext d hd

/-- Greedy repetition of a class tries longer texts first. -/
theorem upTo_one_sorted (n : ℕ) (c : Cursor) :
    (upTo (ends isWord (.one accepts)) true n c).Pairwise
      (fun d e => d.rest.length≤e.rest.length) ∧
      ∀ d∈upTo (ends isWord (.one accepts)) true n c, d.rest.length≤c.rest.length := by
  induction n generalizing c with
  | zero =>
    refine ⟨List.pairwise_singleton _ _,fun d hd => ?_⟩
    rw [List.mem_singleton.mp hd]
  | succ n ih =>
    have hlonger : ∀ d∈(ends isWord (.one accepts) c).flatMap
        (upTo (ends isWord (.one accepts)) true n), d.rest.length≤c.rest.length := by
      intro d hd
      obtain ⟨m,hm,hd⟩ := List.mem_flatMap.mp hd
      have hstep := (ends_one_length c m hm).2
      have hlater := (ih m).2 d hd
      omega
    have hsorted : ((ends isWord (.one accepts) c).flatMap
        (upTo (ends isWord (.one accepts)) true n)).Pairwise
        (fun d e => d.rest.length≤e.rest.length) :=
      pairwise_flatMap_single (fun m hm => (ends_one_length c m hm).1) fun m _ => (ih m).1
    rw [upTo,if_pos rfl]
    constructor
    · refine List.pairwise_append.mpr ⟨hsorted,List.pairwise_singleton _ _,fun d hd e he => ?_⟩
      rw [List.mem_singleton.mp he]
      exact hlonger d hd
    · refine List.forall_mem_append.mpr ⟨hlonger,fun d hd => ?_⟩
      rw [List.mem_singleton.mp hd]

/-- The match of a greedy repetition of a class with a last character is the
longest one. -/
theorem matchAt_longest {n : ℕ} {c d : Cursor}
    (h : matchAt isWord (.seq (.rep n none true (.one accepts)) (.one last)) c=some d) :
    ∀ e∈ends isWord (.seq (.rep n none true (.one accepts)) (.one last)) c,
      d.rest.length≤e.rest.length := by
  have hrun : (ends isWord (.rep n none true (.one accepts)) c).Pairwise
      (fun d e => d.rest.length≤e.rest.length) := by
    rw [ends]
    exact pairwise_flatMap_single (exactly_one_eq c) fun m _ => (upTo_one_sorted _ m).1
  have hsorted : (ends isWord (.seq (.rep n none true (.one accepts)) (.one last)) c).Pairwise
      (fun d e => d.rest.length≤e.rest.length) := by
    rw [ends,List.pairwise_flatMap]
    refine ⟨fun m hm => ?_,hrun.imp fun {a b} hab d hd e he => ?_⟩
    · cases hlast : ends isWord (.one last) m with
      | nil => exact List.Pairwise.nil
      | cons d others =>
        have hone := (ends_one_length m d (by rw [hlast]; exact List.mem_cons_self)).1
        rw [←hlast,hone]
        exact List.pairwise_singleton _ _
    · have hfirst := (ends_one_length a d hd).2
      have hsecond := (ends_one_length b e he).2
      omega
  rw [matchAt] at h
  cases hends : ends isWord (.seq (.rep n none true (.one accepts)) (.one last)) c with
  | nil =>
    rw [hends] at h
    cases h
  | cons first others =>
    rw [hends] at h hsorted
    cases h
    refine List.forall_mem_cons.mpr ⟨le_rfl,(List.pairwise_cons.mp hsorted).1⟩

end greedy

end language

/-- Two expressions of one form whose classes agree on a set of characters. -/
def Alike (A : Char→Prop) : Regex→Regex→Prop
  | .one accepts,.one accepts' => ∀ x, A x→accepts x=accepts' x
  | .boundary,.boundary => True
  | .seq first second,.seq first' second' => Alike A first first' ∧ Alike A second second'
  | .rep least most greedy body,.rep least' most' greedy' body' =>
    least=least' ∧ most=most' ∧ greedy=greedy' ∧ Alike A body body'
  | _,_ => False

section alike

variable {A : Char→Prop}

/-- Every expression is like itself. -/
theorem Alike.refl (r : Regex) : Alike A r r := by
  induction r with
  | one accepts => exact fun _ _ => rfl
  | boundary => trivial
  | seq first second ih ih' => exact ⟨ih,ih'⟩
  | rep least most greedy body ih => exact ⟨rfl,rfl,rfl,ih⟩

/-- Likeness goes both ways. -/
theorem Alike.symm {r r' : Regex} (h : Alike A r r') : Alike A r' r := by
  induction r generalizing r' with
  | one accepts =>
    cases r' with
    | one accepts' => exact fun x hx => (h x hx).symm
    | _ => exact h.elim
  | boundary =>
    cases r' with
    | boundary => trivial
    | _ => exact h.elim
  | seq first second ih ih' =>
    cases r' with
    | seq first' second' => exact ⟨ih h.1,ih' h.2⟩
    | _ => exact h.elim
  | rep least most greedy body ih =>
    cases r' with
    | rep least' most' greedy' body' =>
      obtain ⟨hleast,hmost,hgreedy,hbody⟩ := h
      exact ⟨hleast.symm,hmost.symm,hgreedy.symm,ih hbody⟩
    | _ => exact h.elim

/-- The character before a position is in the set with those around it. -/
theorem lastOr_mem {b : Option Char} {s : List Char} (hb : ∀ x∈b, A x) (hs : ∀ x∈s, A x) :
    ∀ x∈lastOr b s, A x := by
  induction s generalizing b with
  | nil => exact hb
  | cons y s ih =>
    obtain ⟨hy,hs⟩ := List.forall_mem_cons.mp hs
    refine ih (fun x hx => ?_) hs
    cases hx
    exact hy

/-- Expressions that are alike match the same texts of the set. -/
theorem Matches.alike {isWord isWord' : Char→Bool} (hw : ∀ x, A x→isWord x=isWord' x)
    {r r' : Regex} (h : Alike A r r') {b : Option Char} {s t : List Char} (hb : ∀ x∈b, A x)
    (hs : ∀ x∈s, A x) (ht : ∀ x∈t, A x) (hm : Matches isWord r b s t) :
    Matches isWord' r' b s t := by
  induction r generalizing r' b s t with
  | one accepts =>
    cases r' with
    | one accepts' =>
      obtain ⟨x,rfl,hx⟩ := hm
      exact ⟨x,rfl,(h x (hs x List.mem_cons_self)).symm.trans hx⟩
    | _ => exact h.elim
  | boundary =>
    cases r' with
    | boundary =>
      obtain ⟨rfl,hbound⟩ := hm
      have hbefore : wordAt isWord b=wordAt isWord' b := by
        cases b with
        | none => rfl
        | some x => exact hw x (hb x rfl)
      have hbehind : wordAt isWord t.head?=wordAt isWord' t.head? := by
        cases t with
        | nil => rfl
        | cons x t => exact hw x (ht x List.mem_cons_self)
      refine ⟨rfl,?_⟩
      rw [Boundary,←hbefore,←hbehind]
      exact hbound
    | _ => exact h.elim
  | seq first second ih ih' =>
    cases r' with
    | seq first' second' =>
      obtain ⟨s₁,s₂,rfl,hfirst,hsecond⟩ := hm
      obtain ⟨hs₁,hs₂⟩ := List.forall_mem_append.mp hs
      have hrest : ∀ x∈s₂++t, A x := List.forall_mem_append.mpr ⟨hs₂,ht⟩
      exact ⟨s₁,s₂,rfl,ih h.1 hb hs₁ hrest hfirst,ih' h.2 (lastOr_mem hb hs₁) hs₂ ht hsecond⟩
    | _ => exact h.elim
  | rep least most greedy body ih =>
    cases r' with
    | rep least' most' greedy' body' =>
      obtain ⟨rfl,rfl,rfl,hbody⟩ := h
      obtain ⟨k,hk,hmost,hiter⟩ := hm
      refine ⟨k,hk,hmost,?_⟩
      clear hk hmost
      induction k generalizing b s with
      | zero => exact hiter
      | succ k ihk =>
        obtain ⟨s₁,s₂,rfl,hfirst,hrest⟩ := hiter
        obtain ⟨hs₁,hs₂⟩ := List.forall_mem_append.mp hs
        have hbehind : ∀ x∈s₂++t, A x := List.forall_mem_append.mpr ⟨hs₂,ht⟩
        exact ⟨s₁,s₂,rfl,ih hbody hb hs₁ hbehind hfirst,ihk (lastOr_mem hb hs₁) hs₂ hrest⟩
    | _ => exact h.elim

/-- They are found in the same texts. -/
theorem matchAt_none_alike {isWord isWord' : Char→Bool} (hw : ∀ x, A x→isWord x=isWord' x)
    {r r' : Regex} (hr : proper r=true) (hr' : proper r'=true) (h : Alike A r r') {c : Cursor}
    (hb : ∀ x∈c.before, A x) (hc : ∀ x∈c.rest, A x) :
    matchAt isWord r c=none ↔ matchAt isWord' r' c=none := by
  rw [matchAt_none_iff hr,matchAt_none_iff hr']
  constructor
  · intro hnone s t hrest hm
    rw [hrest] at hc
    obtain ⟨hs,ht⟩ := List.forall_mem_append.mp hc
    exact hnone s t hrest (hm.alike (fun x hx => (hw x hx).symm) h.symm hb hs ht)
  · intro hnone s t hrest hm
    rw [hrest] at hc
    obtain ⟨hs,ht⟩ := List.forall_mem_append.mp hc
    exact hnone s t hrest (hm.alike hw h hb hs ht)

end alike

end McpGateway.RegexLanguage
