import Mathlib

/-!
# Successive cuts in a list

A cut replaces the elements between two positions of the list as it stands.
Every element carries the position it had at first, or none when a cut put it
in. The first positions that survive any sequence of cuts are determined by
arithmetic on the offsets alone.
-/

namespace McpGateway.TextCuts

/-- A replacement of the elements from one position up to another. -/
structure Cut (α : Type*) where
  /-- First replaced position. -/
  start : ℕ
  /-- First position behind. -/
  stop : ℕ
  /-- What is put there. -/
  content : List α

variable {α : Type*}

/-- One cut. -/
def Cut.apply (c : Cut α) (xs : List α) : List α := xs.take c.start++c.content++xs.drop c.stop

/-- The cuts one after the other, each on what the one before left. -/
def applyCuts : List (Cut α)→List α→List α
  | [],xs => xs
  | c::cs,xs => applyCuts cs (c.apply xs)

/-- An element and its first position, if it had one. -/
abbrev Traced (α : Type*) := α×Option ℕ

/-- Elements at their first positions, counted from the given one. -/
def originalFrom : ℕ→List α→List (Traced α)
  | _,[] => []
  | k,x::xs => (x,some k)::originalFrom (k+1) xs

/-- Elements that a cut puts in. -/
def inserted (xs : List α) : List (Traced α) := xs.map (fun x => (x,none))

/-- The cut on traced elements. -/
def Cut.traced (c : Cut α) : Cut (Traced α) := ⟨c.start,c.stop,inserted c.content⟩

/-- The traced elements that the cuts leave of a list. -/
def trace (cuts : List (Cut α)) (xs : List α) : List (Traced α) :=
  applyCuts (cuts.map Cut.traced) (originalFrom 0 xs)

/-- The first positions of what is left, in its order. -/
def survivors (ts : List (Traced α)) : List ℕ := ts.filterMap Prod.snd

/-- Whether the element at a position outlasts the cuts: it stays in front of
a cut, is taken within it, and moves with the text behind it. -/
def outlasts : List (Cut α)→ℕ→Bool
  | [],_ => true
  | c::cs,x =>
    if x<c.start then outlasts cs x
    else if x<c.stop then false
    else outlasts cs (c.start+c.content.length+(x-c.stop))

/-- The elements of a traced list are the list. -/
theorem map_fst_originalFrom (k : ℕ) (xs : List α) :
    (originalFrom k xs).map Prod.fst=xs := by
  induction xs generalizing k with
  | nil => rfl
  | cons x xs ih => rw [originalFrom,List.map_cons,ih]

/-- So are those of inserted elements. -/
theorem map_fst_inserted (xs : List α) : (inserted xs).map Prod.fst=xs := by
  rw [inserted,List.map_map]
  exact List.map_id xs

/-- Tracing does not change what a cut leaves. -/
theorem map_fst_apply (c : Cut α) (ts : List (Traced α)) :
    (c.traced.apply ts).map Prod.fst=c.apply (ts.map Prod.fst) := by
  have hcontent : c.traced.content.map Prod.fst=c.content := map_fst_inserted c.content
  rw [Cut.apply,Cut.apply,List.map_append,List.map_append,List.map_take,List.map_drop,hcontent]
  rfl

/-- Tracing does not change what the cuts leave. -/
theorem map_fst_applyCuts (cuts : List (Cut α)) (ts : List (Traced α)) :
    (applyCuts (cuts.map Cut.traced) ts).map Prod.fst=applyCuts cuts (ts.map Prod.fst) := by
  induction cuts generalizing ts with
  | nil => rfl
  | cons c cs ih =>
    rw [List.map_cons,applyCuts,applyCuts,ih,map_fst_apply]

/-- A trace shows what the cuts leave. -/
theorem map_fst_trace (cuts : List (Cut α)) (xs : List α) :
    (trace cuts xs).map Prod.fst=applyCuts cuts xs := by
  rw [trace,map_fst_applyCuts,map_fst_originalFrom]

/-- The first positions of those elements that outlast the cuts. -/
def lasting (cuts : List (Cut α)) : ℕ→List (Traced α)→List ℕ
  | _,[] => []
  | k,t::ts => (if outlasts cuts k=true then t.2.toList else [])++lasting cuts (k+1) ts

/-- Without cuts everything lasts. -/
theorem lasting_nil (k : ℕ) (ts : List (Traced α)) : lasting [] k ts=survivors ts := by
  induction ts generalizing k with
  | nil => rfl
  | cons t ts ih =>
    obtain ⟨x,position⟩ := t
    cases position with
    | none => exact ih (k+1)
    | some p => exact congrArg (List.cons p) (ih (k+1))

/-- Positions run on from one part to the next. -/
theorem lasting_append (cuts : List (Cut α)) (k : ℕ) (first second : List (Traced α)) :
    lasting cuts k (first++second)=lasting cuts k first++lasting cuts (k+first.length) second := by
  induction first generalizing k with
  | nil => rfl
  | cons t ts ih =>
    have hnext : k+1+ts.length=k+(t::ts).length := by
      rw [List.length_cons]
      omega
    rw [List.cons_append,lasting,lasting,ih,List.append_assoc,hnext]

/-- Inserted elements have no first positions. -/
theorem lasting_inserted (cuts : List (Cut α)) (k : ℕ) (xs : List α) :
    lasting cuts k (inserted xs)=[] := by
  induction xs generalizing k with
  | nil => rfl
  | cons x xs ih =>
    have htail : lasting cuts (k+1) (inserted xs)=[] := ih (k+1)
    rw [inserted,List.map_cons,lasting]
    change _++lasting cuts (k+1) (inserted xs)=[]
    rw [htail]
    split <;> rfl

/-- Lists last alike where their elements do. -/
theorem lasting_congr {cuts cuts' : List (Cut α)} {k k' : ℕ} {ts : List (Traced α)}
    (h : ∀ i<ts.length, outlasts cuts (k+i)=outlasts cuts' (k'+i)) :
    lasting cuts k ts=lasting cuts' k' ts := by
  induction ts generalizing k k' with
  | nil => rfl
  | cons t ts ih =>
    have hhead : outlasts cuts k=outlasts cuts' k' := h 0 (Nat.succ_pos _)
    have htail : ∀ i<ts.length, outlasts cuts (k+1+i)=outlasts cuts' (k'+1+i) := by
      intro i hi
      have hnext := h (i+1) (Nat.succ_lt_succ hi)
      rw [Nat.add_right_comm k 1 i,Nat.add_right_comm k' 1 i]
      exact hnext
    rw [lasting,lasting,hhead,ih htail]

/-- Nothing lasts of what is taken. -/
theorem lasting_taken {cuts : List (Cut α)} {k : ℕ} {ts : List (Traced α)}
    (h : ∀ i<ts.length, outlasts cuts (k+i)=false) : lasting cuts k ts=[] := by
  induction ts generalizing k with
  | nil => rfl
  | cons t ts ih =>
    have hhead : outlasts cuts k=false := h 0 (Nat.succ_pos _)
    have htail : ∀ i<ts.length, outlasts cuts (k+1+i)=false := by
      intro i hi
      rw [Nat.add_right_comm k 1 i]
      exact h (i+1) (Nat.succ_lt_succ hi)
    rw [lasting,hhead,ih htail]
    rfl

/-- What outlasts the later cuts in the list that one cut leaves is what
outlasts all of them in the list before. -/
theorem lasting_apply {c : Cut α} (hc : c.start≤c.stop) (cs : List (Cut α))
    (ts : List (Traced α)) : lasting cs 0 (c.traced.apply ts)=lasting (c::cs) 0 ts := by
  have htake : (ts.take c.stop).take c.start=ts.take c.start := by
    rw [List.take_take,Nat.min_eq_left hc]
  have hsplit : ts=ts.take c.start++((ts.take c.stop).drop c.start++ts.drop c.stop) := by
    rw [←List.append_assoc,←htake,List.take_append_drop,List.take_append_drop]
  have hfront : lasting cs 0 (ts.take c.start)=lasting (c::cs) 0 (ts.take c.start) := by
    refine lasting_congr fun i hi => ?_
    have hlt : 0+i<c.start := by
      rw [List.length_take] at hi
      omega
    rw [outlasts,if_pos hlt]
  have htaken : lasting (c::cs) (ts.take c.start).length ((ts.take c.stop).drop c.start)=[] := by
    refine lasting_taken fun i hi => ?_
    rw [List.length_drop,List.length_take] at hi
    have hfirst : (ts.take c.start).length=c.start := by
      rw [List.length_take]
      omega
    rw [outlasts,hfirst,if_neg (by omega),if_pos (by omega)]
  have hbehind : lasting cs ((ts.take c.start).length+(inserted c.content).length)
      (ts.drop c.stop)=lasting (c::cs) ((ts.take c.start).length+
        ((ts.take c.stop).drop c.start).length) (ts.drop c.stop) := by
    refine lasting_congr fun i hi => ?_
    rw [List.length_drop] at hi
    have hfirst : (ts.take c.start).length=c.start := by
      rw [List.length_take]
      omega
    have hmiddle : ((ts.take c.stop).drop c.start).length=c.stop-c.start := by
      rw [List.length_drop,List.length_take]
      omega
    have hcontent : (inserted c.content).length=c.content.length := List.length_map _
    rw [outlasts,hfirst,hmiddle,hcontent,if_neg (by omega),if_neg (by omega)]
    congr 1
    omega
  calc lasting cs 0 (c.traced.apply ts)
      =lasting cs 0 (ts.take c.start)++lasting cs ((ts.take c.start).length+
          (inserted c.content).length) (ts.drop c.stop) := by
        change lasting cs 0 (ts.take c.start++inserted c.content++ts.drop c.stop)=_
        rw [List.append_assoc,lasting_append,lasting_append,lasting_inserted,List.nil_append,
          Nat.zero_add]
    _=lasting (c::cs) 0 (ts.take c.start++((ts.take c.stop).drop c.start++ts.drop c.stop)) := by
        rw [lasting_append,lasting_append,Nat.zero_add,htaken,List.nil_append,hfront,hbehind]
    _=lasting (c::cs) 0 ts := by rw [←hsplit]

/-- The cuts leave the first positions of what outlasts them. -/
theorem survivors_applyCuts {cuts : List (Cut α)} (h : ∀ c∈cuts, c.start≤c.stop)
    (ts : List (Traced α)) :
    survivors (applyCuts (cuts.map Cut.traced) ts)=lasting cuts 0 ts := by
  induction cuts generalizing ts with
  | nil => exact (lasting_nil 0 ts).symm
  | cons c cs ih =>
    obtain ⟨hc,hcs⟩ := List.forall_mem_cons.mp h
    rw [List.map_cons,applyCuts,ih hcs,lasting_apply hc]

/-- At first every position holds its own element. -/
theorem lasting_originalFrom (cuts : List (Cut α)) (k : ℕ) (xs : List α) :
    lasting cuts k (originalFrom k xs)=(List.range' k xs.length).filter (outlasts cuts) := by
  induction xs generalizing k with
  | nil => rfl
  | cons x xs ih =>
    rw [originalFrom,lasting,ih,List.length_cons,List.range'_succ,List.filter_cons]
    split <;> rfl

/-- The positions that survive the cuts are those that outlast them. -/
theorem survivors_trace {cuts : List (Cut α)} (h : ∀ c∈cuts, c.start≤c.stop) (xs : List α) :
    survivors (trace cuts xs)=(List.range xs.length).filter (outlasts cuts) := by
  rw [trace,survivors_applyCuts h,lasting_originalFrom,List.range_eq_range']

/-- Exactly the positions of a predicate survive when they are the ones that
outlast the cuts. -/
theorem survivors_trace_iff {cuts : List (Cut α)} (h : ∀ c∈cuts, c.start≤c.stop) (xs : List α)
    (p : ℕ→Bool) : survivors (trace cuts xs)=(List.range xs.length).filter p ↔
      ∀ x<xs.length, outlasts cuts x=p x := by
  rw [survivors_trace h]
  constructor
  · intro hsame x hx
    have hmem : x∈(List.range xs.length).filter (outlasts cuts) ↔
        x∈(List.range xs.length).filter p := by rw [hsame]
    rw [List.mem_filter,List.mem_filter,List.mem_range] at hmem
    have hboth : outlasts cuts x=true ↔ p x=true := by
      constructor
      · exact fun ho => (hmem.mp ⟨hx,ho⟩).2
      · exact fun hp => (hmem.mpr ⟨hx,hp⟩).2
    exact Bool.eq_iff_iff.mpr hboth
  · exact fun hsame => List.filter_congr fun x hx => hsame x (List.mem_range.mp hx)

/-- A position behind all cuts stays behind them. -/
theorem outlasts_behind {cuts : List (Cut α)}
    (hleft : cuts.Pairwise (fun c d => d.stop≤c.start)) {x : ℕ} (hx : ∀ c∈cuts, c.stop≤x)
    (hc : ∀ c∈cuts, c.start≤c.stop) : outlasts cuts x=true := by
  induction cuts generalizing x with
  | nil => rfl
  | cons c cs ih =>
    obtain ⟨hhead,htail⟩ := List.pairwise_cons.mp hleft
    obtain ⟨hstop,-⟩ := List.forall_mem_cons.mp hx
    obtain ⟨hordered,hrest⟩ := List.forall_mem_cons.mp hc
    rw [outlasts,if_neg (by omega),if_neg (by omega)]
    refine ih htail (fun d hd => ?_) hrest
    have hd := hhead d hd
    omega

/-- Cuts made from right to left that do not meet take exactly what lies in
one of them. -/
theorem outlasts_iff {cuts : List (Cut α)} (hleft : cuts.Pairwise (fun c d => d.stop≤c.start))
    (hc : ∀ c∈cuts, c.start≤c.stop) (x : ℕ) :
    outlasts cuts x=true ↔ ∀ c∈cuts, ¬(c.start≤x ∧ x<c.stop) := by
  induction cuts with
  | nil => simp [outlasts]
  | cons c cs ih =>
    obtain ⟨hhead,htail⟩ := List.pairwise_cons.mp hleft
    obtain ⟨hordered,hrest⟩ := List.forall_mem_cons.mp hc
    rw [List.forall_mem_cons,←ih htail hrest,outlasts]
    by_cases hfront : x<c.start
    · rw [if_pos hfront]
      exact ⟨fun h => ⟨by omega,h⟩,fun h => h.2⟩
    · rw [if_neg hfront]
      by_cases hin : x<c.stop
      · rw [if_pos hin]
        exact ⟨fun h => absurd h Bool.false_ne_true,fun h => absurd ⟨by omega,hin⟩ h.1⟩
      · rw [if_neg hin]
        have hmoved : outlasts cs (c.start+c.content.length+(x-c.stop))=true := by
          refine outlasts_behind htail (fun d hd => ?_) hrest
          have hd := hhead d hd
          omega
        have hplace : outlasts cs x=true := by
          refine outlasts_behind htail (fun d hd => ?_) hrest
          have hd := hhead d hd
          omega
        exact ⟨fun _ => ⟨by omega,hplace⟩,fun _ => hmoved⟩

end McpGateway.TextCuts
