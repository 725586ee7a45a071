import Mathlib
import McpGateway.JsonValue
import McpGateway.PyRuntime
import McpGateway.SchemaValidation

/-!
# Sorting the violations of one value

A path names a location by member names and list indices. Two paths into one
value part at a value that is an object for both or a list for both, so their
comparison meets two names or two indices there. Sorting such paths raises
nothing and orders them.
-/

namespace McpGateway.ErrorPaths

open JsonValue PyRuntime SchemaValidation

/-- The value a path leads to. -/
def valueAt : Json→List PathPart→Option Json
  | v,[] => some v
  | .arr items,.index position::rest => items[position]?.bind (fun v => valueAt v rest)
  | .obj fields,.key name::rest => ((Json.obj fields).get? name).bind (fun v => valueAt v rest)
  | _,_::_ => none

/-- The path points to an existing location. -/
def PointsInto (v : Json) (path : List PathPart) : Prop := ∃ w, valueAt v path=some w

/-- Two names or two indices. -/
def SameKind : PathPart→PathPart→Prop
  | .key _,.key _ => True
  | .index _,.index _ => True
  | _,_ => False

/-- The paths may only part at steps of one kind. -/
def Comparable (p q : List PathPart) : Prop :=
  ∀ common a b as bs, p=common++a::as→q=common++b::bs→SameKind a b

/-- The first path is less. -/
def Less (p q : List PathPart) : Prop := pathLt p q=.ok true

/-- No violation is less than an earlier one. -/
def Ordered (issues : List SchemaIssue) : Prop :=
  issues.Pairwise (fun a b => pathLt b.path a.path=.ok false)

/-- The second list is the first one in order, with violations of one path in
the order they had. -/
structure SortedFrom (issues out : List SchemaIssue) : Prop where
  /-- It has the same violations. -/
  perm : out.Perm issues
  /-- They are ordered by path. -/
  ordered : Ordered out
  /-- Those of one path stay in order. -/
  stable : ∀ path, out.filter (fun e => decide (e.path=path))=
    issues.filter (fun e => decide (e.path=path))

section paths

/-- A path steps into a list by an index or into an object by a name. -/
theorem pointsInto_cons {v : Json} {a : PathPart} {rest : List PathPart}
    (h : PointsInto v (a::rest)) :
    (∃ items position, v=.arr items ∧ a=.index position) ∨
      ∃ fields name, v=.obj fields ∧ a=.key name := by
  obtain ⟨target,h⟩ := h
  unfold valueAt at h
  split at h
  · rename_i hnil
    cases hnil
  · rename_i items position rest' hcons
    cases hcons
    exact .inl ⟨items,position,rfl,rfl⟩
  · rename_i fields name rest' hcons
    cases hcons
    exact .inr ⟨fields,name,rfl,rfl⟩
  · cases h

/-- A path leads on from where its first step leads. -/
theorem valueAt_cons (v : Json) (a : PathPart) (rest : List PathPart) :
    valueAt v (a::rest)=(valueAt v [a]).bind (fun w => valueAt w rest) := by
  cases v <;> cases a <;> simp [valueAt]

/-- Paths with a common first step lead on from one value. -/
theorem pointsInto_common {v : Json} {a : PathPart} {p q : List PathPart}
    (hp : PointsInto v (a::p)) (hq : PointsInto v (a::q)) :
    ∃ w, PointsInto w p ∧ PointsInto w q := by
  obtain ⟨x,hx⟩ := hp
  obtain ⟨y,hy⟩ := hq
  rw [valueAt_cons] at hx hy
  obtain ⟨w,hw,hwx⟩ := Option.bind_eq_some_iff.mp hx
  obtain ⟨w',hw',hwy⟩ := Option.bind_eq_some_iff.mp hy
  obtain rfl : w=w' := Option.some.inj (hw.symm.trans hw')
  exact ⟨w,⟨x,hwx⟩,y,hwy⟩

/-- Two paths into one value are comparable. -/
theorem comparable_of_points {v : Json} {p q : List PathPart} (hp : PointsInto v p)
    (hq : PointsInto v q) : Comparable p q := by
  intro common
  induction common generalizing v p q with
  | nil =>
    rintro a b as bs rfl rfl
    rcases pointsInto_cons hp with ⟨items,position,rfl,rfl⟩ | ⟨fields,name,rfl,rfl⟩
    · rcases pointsInto_cons hq with ⟨_,_,_,rfl⟩ | ⟨_,_,hv,_⟩
      · trivial
      · cases hv
    · rcases pointsInto_cons hq with ⟨_,_,hv,_⟩ | ⟨_,_,_,rfl⟩
      · cases hv
      · trivial
  | cons c common ih =>
    rintro a b as bs rfl rfl
    obtain ⟨w,hrest,hrest'⟩ := pointsInto_common hp hq
    exact ih hrest hrest' a b as bs rfl rfl

/-- Comparable paths stay comparable behind a common step. -/
theorem Comparable.tail {a : PathPart} {p q : List PathPart} (h : Comparable (a::p) (a::q)) :
    Comparable p q := fun common x y xs ys hp hq =>
  h (a::common) x y xs ys (congrArg (List.cons a) hp) (congrArg (List.cons a) hq)

/-- Comparing comparable paths raises nothing. -/
theorem pathLt_ok {p q : List PathPart} (h : Comparable p q) : ∃ less, pathLt p q=.ok less := by
  induction p generalizing q with
  | nil => cases q <;> exact ⟨_,rfl⟩
  | cons a as ih =>
    cases q with
    | nil => exact ⟨false,rfl⟩
    | cons b bs =>
      by_cases hab : a=b
      · subst hab
        obtain ⟨less,hless⟩ := ih h.tail
        exact ⟨less,(if_pos rfl).trans hless⟩
      · have hpart : pathLt (a::as) (b::bs)=partLt a b := if_neg hab
        have hkind := h [] a b as bs rfl rfl
        rw [hpart]
        cases a <;> cases b
        · exact ⟨_,rfl⟩
        · cases hkind
        · cases hkind
        · exact ⟨_,rfl⟩

end paths

section order

/-- A step is less than another one. -/
theorem partLt_trans {a b c : PathPart} (hab : partLt a b=.ok true) (hbc : partLt b c=.ok true) :
    partLt a c=.ok true ∧ a≠c := by
  cases a with
  | key a =>
    cases b with
    | index b => cases hab
    | key b =>
      cases c with
      | index c => cases hbc
      | key c =>
        have hlt : a<b := of_decide_eq_true (Except.ok.inj hab)
        have hlt' : b<c := of_decide_eq_true (Except.ok.inj hbc)
        have hac := lt_trans hlt hlt'
        exact ⟨congrArg Except.ok (decide_eq_true hac),fun h => hac.ne (PathPart.key.inj h)⟩
  | index a =>
    cases b with
    | key b => cases hab
    | index b =>
      cases c with
      | key c => cases hbc
      | index c =>
        have hlt : a<b := of_decide_eq_true (Except.ok.inj hab)
        have hlt' : b<c := of_decide_eq_true (Except.ok.inj hbc)
        have hac := lt_trans hlt hlt'
        exact ⟨congrArg Except.ok (decide_eq_true hac),fun h => hac.ne (PathPart.index.inj h)⟩

/-- The first path is less when its first step is, or when the steps agree and
its rest is. -/
theorem less_cons {a b : PathPart} {as bs : List PathPart} :
    Less (a::as) (b::bs) ↔ a=b ∧ Less as bs ∨ a≠b ∧ partLt a b=.ok true := by
  unfold Less
  rw [pathLt]
  by_cases hab : a=b
  · simp [hab]
  · simp [hab]

/-- No path is less than itself. -/
theorem less_irrefl (p : List PathPart) : pathLt p p=.ok false := by
  induction p with
  | nil => rfl
  | cons a as ih => exact (if_pos rfl).trans ih

/-- The comparison is transitive. -/
theorem Less.trans {p q r : List PathPart} (hpq : Less p q) (hqr : Less q r) : Less p r := by
  induction p generalizing q r with
  | nil =>
    cases r with
    | nil => cases q <;> cases hqr
    | cons c cs => rfl
  | cons a as ih =>
    cases q with
    | nil => cases hpq
    | cons b bs =>
      cases r with
      | nil => cases hqr
      | cons c cs =>
        rw [less_cons] at hpq hqr ⊢
        rcases hpq with ⟨rfl,hpq⟩ | ⟨hab,hpq⟩
        · rcases hqr with ⟨rfl,hqr⟩ | ⟨hbc,hqr⟩
          · exact .inl ⟨rfl,ih hpq hqr⟩
          · exact .inr ⟨hbc,hqr⟩
        · rcases hqr with ⟨rfl,hqr⟩ | ⟨hbc,hqr⟩
          · exact .inr ⟨hab,hpq⟩
          · obtain ⟨hlt,hne⟩ := partLt_trans hpq hqr
            exact .inr ⟨hne,hlt⟩

end order

section sorting

/-- Comparability does not depend on the direction. -/
theorem Comparable.symm {p q : List PathPart} (h : Comparable p q) : Comparable q p := by
  intro common a b as bs hq hp
  have hkind := h common b a bs as hp hq
  cases a <;> cases b <;> exact hkind

/-- A violation that is less than the first one of an ordered list precedes
all of them. -/
theorem precedes_all {issue head : SchemaIssue} {rest : List SchemaIssue}
    (hc : ∀ e∈head::rest, Comparable issue.path e.path) (ho : Ordered (head::rest))
    (hless : Less issue.path head.path) :
    ∀ e∈head::rest, pathLt e.path issue.path=.ok false ∧ e.path≠issue.path := by
  intro e he
  have hnot : ¬ Less e.path head.path := by
    intro hlt
    have hfalse : pathLt e.path head.path=.ok false := by
      rcases List.mem_cons.mp he with rfl | he
      · exact less_irrefl e.path
      · exact (List.pairwise_cons.mp ho).1 e he
    cases hlt.symm.trans hfalse
  refine ⟨?_,fun hsame => hnot (hsame ▸ hless)⟩
  obtain ⟨less,hlt⟩ := pathLt_ok (hc e he).symm
  cases less with
  | false => exact hlt
  | true => exact absurd (Less.trans hlt hless) hnot

/-- Insertion into an ordered list puts the violation behind its equals. -/
theorem insertIssue_sorted {issue : SchemaIssue} {acc : List SchemaIssue}
    (hc : ∀ e∈acc, Comparable issue.path e.path) (ho : Ordered acc) :
    ∃ out, insertIssue issue acc=.ok out ∧ SortedFrom (acc++[issue]) out := by
  induction acc with
  | nil => exact ⟨[issue],rfl,List.Perm.refl _,List.pairwise_singleton _ _,fun _ => rfl⟩
  | cons head rest ih =>
    obtain ⟨less,hless⟩ := pathLt_ok (hc head List.mem_cons_self)
    rw [insertIssue,hless]
    cases less with
    | true =>
      have hall := precedes_all hc ho hless
      refine ⟨issue::head::rest,rfl,(List.perm_append_singleton _ _).symm,
        List.pairwise_cons.mpr ⟨fun e he => (hall e he).1,ho⟩,fun path => ?_⟩
      rw [List.filter_append]
      by_cases hpath : issue.path=path
      · have hnone : (head::rest).filter (fun e => decide (e.path=path))=[] := by
          refine List.filter_eq_nil_iff.mpr fun e he => ?_
          rw [decide_eq_true_eq,←hpath]
          exact (hall e he).2
        rw [hnone,List.filter_cons,hnone]
        simp [hpath]
      · simp [List.filter_cons,hpath]
    | false =>
      obtain ⟨hhead,htail⟩ := List.pairwise_cons.mp ho
      obtain ⟨out,hout,hsorted⟩ := ih (fun e he => hc e (List.mem_cons_of_mem _ he)) htail
      rw [hout]
      refine ⟨head::out,rfl,hsorted.perm.cons head,
        List.pairwise_cons.mpr ⟨fun e he => ?_,hsorted.ordered⟩,fun path => ?_⟩
      · rcases List.mem_append.mp (hsorted.perm.mem_iff.mp he) with he | he
        · exact hhead e he
        · rw [List.mem_singleton.mp he]
          exact hless
      · rw [List.cons_append,List.filter_cons,List.filter_cons,hsorted.stable path]

/-- Sorting comparable violations succeeds. -/
theorem sortIssues_sorted {acc rest : List SchemaIssue}
    (hc : ∀ a∈acc++rest, ∀ b∈acc++rest, Comparable a.path b.path) (ho : Ordered acc) :
    ∃ out, sortIssues acc rest=.ok out ∧ SortedFrom (acc++rest) out := by
  induction rest generalizing acc with
  | nil =>
    rw [List.append_nil]
    exact ⟨acc,rfl,List.Perm.refl _,ho,fun _ => rfl⟩
  | cons issue rest ih =>
    have hmem : issue∈acc++issue::rest := List.mem_append_right _ List.mem_cons_self
    have hbefore : ∀ e∈acc, Comparable issue.path e.path := fun e he =>
      hc issue hmem e (List.mem_append_left _ he)
    obtain ⟨acc',hacc,hinserted⟩ := insertIssue_sorted hbefore ho
    have hperm : (acc'++rest).Perm (acc++issue::rest) := by
      rw [List.append_cons]
      exact hinserted.perm.append_right rest
    obtain ⟨out,hout,hsorted⟩ := ih (fun a ha b hb =>
      hc a (hperm.mem_iff.mp ha) b (hperm.mem_iff.mp hb)) hinserted.ordered
    rw [sortIssues,hacc]
    refine ⟨out,hout,hsorted.perm.trans hperm,hsorted.ordered,fun path => ?_⟩
    rw [hsorted.stable path,List.append_cons,List.filter_append,hinserted.stable path,
      List.filter_append (acc++[issue])]

/-- Paths into one value only part at steps of one kind, so sorting their
violations raises nothing and orders them. -/
theorem sorting_succeeds (v : Json) (issues : List SchemaIssue)
    (h : ∀ e∈issues, PointsInto v e.path) :
    (∀ a∈issues, ∀ b∈issues, Comparable a.path b.path ∧ ∃ less, pathLt a.path b.path=.ok less) ∧
    ∃ out, sortIssues [] issues=.ok out ∧ SortedFrom issues out := by
  have hc : ∀ a∈[]++issues, ∀ b∈[]++issues, Comparable a.path b.path := fun a ha b hb =>
    comparable_of_points (h a ha) (h b hb)
  exact ⟨fun a ha b hb => ⟨hc a ha b hb,pathLt_ok (hc a ha b hb)⟩,
    sortIssues_sorted hc List.Pairwise.nil⟩

end sorting

theorem sorting_succeeds_nested :
    let issues : List SchemaIssue := [⟨[.key "tags",.index 1,.key "name"],"not a string"⟩,
      ⟨[.key "tags",.index 0],"too short"⟩,⟨[.key "limit"],"too small"⟩,⟨[],"incomplete"⟩]
    ∃ out, sortIssues [] issues=.ok out ∧ SortedFrom issues out := by
  intro issues
  refine (sorting_succeeds (.obj [("limit",.int 0),
    ("tags",.arr [.str "",.obj [("name",.null)]])]) issues fun e he => ?_).2
  simp only [issues,List.mem_cons,List.not_mem_nil,or_false] at he
  rcases he with rfl | rfl | rfl | rfl <;> exact ⟨_,rfl⟩

end McpGateway.ErrorPaths
