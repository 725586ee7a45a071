import Mathlib
import McpGateway.PyText
import McpGateway.JsonValue
import McpGateway.GatewaySettings
import McpGateway.PyRuntime
import McpGateway.PiiRedactor
import McpGateway.TextCuts

/-!
# Replacement of detected spans

The analyzer reports positions of the original text, and the spans are
replaced in the text as it stands, from the right. A replacement moves only
text behind it, so spans that do not meet are replaced exactly; a span that
reaches into an earlier replacement takes positions that have moved.
-/

namespace McpGateway.SpanReplacement

open PyText JsonValue GatewaySettings PyRuntime PiiRedactor TextCuts

/-- The spans as cuts in the given order, up to the first replacement that
cannot be formatted. -/
def spanCuts (rt : Runtime) (r : Redactor) : List AnalyzerResult→List (Cut Char)
  | [] => []
  | found::rest =>
    match r.replace rt found.entityType with
    | .error _ => []
    | .ok content => ⟨found.start,found.stop,content.toList⟩::spanCuts rt r rest

/-- The cuts of the analyzer pass. -/
def passCuts (rt : Runtime) (r : Redactor) (results : List AnalyzerResult) : List (Cut Char) :=
  spanCuts rt r (results.insertionSort (fun a b => b.start≤a.start))

/-- The text after the analyzer pass, each character with its position in the
original text, or none in a replacement. -/
def tracedPass (rt : Runtime) (r : Redactor) (text : String) (results : List AnalyzerResult) :
    List (Traced Char) := trace (passCuts rt r results) text.toList

/-- Whether a position lies in a span. -/
def covered (results : List AnalyzerResult) (x : ℕ) : Bool :=
  results.any (fun found => decide (found.start≤x ∧ x<found.stop))

/-- The positions in no span, in order. -/
def uncovered (text : String) (results : List AnalyzerResult) : List ℕ :=
  (List.range text.length).filter (fun x => !covered results x)

/-- Two spans without a common position. -/
def Apart (a b : AnalyzerResult) : Prop := a.stop≤b.start ∨ b.stop≤a.start

/-- Replacing spans makes the cuts. -/
theorem replaceSpans_cuts (rt : Runtime) (r : Redactor) (spans : List AnalyzerResult)
    (acc : String×Bool) : (r.replaceSpans rt spans acc).1.toList=
      applyCuts (spanCuts rt r spans) acc.1.toList := by
  induction spans generalizing acc with
  | nil => rfl
  | cons found rest ih =>
    rw [Redactor.replaceSpans,spanCuts]
    cases r.replace rt found.entityType with
    | error text => rfl
    | ok content =>
      dsimp only
      rw [ih,applyCuts,Cut.apply,takeChars,dropChars]
      simp only [String.toList_append,String.toList_ofList]

/-- The traced pass shows the text after the analyzer pass. -/
theorem map_fst_tracedPass {rt : Runtime} {r : Redactor} {analyze : Analyzer}
    (ha : r.analyzer=some analyze) {text : String} {results : List AnalyzerResult}
    (hr : analyze text r.policy.entities r.policy.scoreThreshold=.ok results) :
    (tracedPass rt r text results).map Prod.fst=(r.analyzerPass rt text).1.toList := by
  have hpass : r.analyzerPass rt text=
      r.replaceSpans rt (results.insertionSort (fun a b => b.start≤a.start)) (text,false) := by
    unfold Redactor.analyzerPass
    rw [ha]
    dsimp only
    rw [hr]
  rw [hpass,replaceSpans_cuts,tracedPass,map_fst_trace,passCuts]

/-- Every cut is made for one of the spans. -/
theorem spanCuts_mem {rt : Runtime} {r : Redactor} {spans : List AnalyzerResult} {c : Cut Char}
    (h : c∈spanCuts rt r spans) : ∃ found∈spans, c.start=found.start ∧ c.stop=found.stop := by
  induction spans with
  | nil => exact absurd h List.not_mem_nil
  | cons found rest ih =>
    rw [spanCuts] at h
    cases hf : r.replace rt found.entityType with
    | error text =>
      rw [hf] at h
      exact absurd h List.not_mem_nil
    | ok content =>
      rw [hf] at h
      rcases List.mem_cons.mp h with rfl | h
      · exact ⟨found,List.mem_cons_self,rfl,rfl⟩
      · obtain ⟨other,hmem,hsame⟩ := ih h
        exact ⟨other,List.mem_cons_of_mem _ hmem,hsame⟩

/-- With replacements that can be formatted every span is cut. -/
theorem spanCuts_all {rt : Runtime} {r : Redactor} {spans : List AnalyzerResult}
    (h : ∀ found∈spans, ∃ content, r.replace rt found.entityType=.ok content) :
    (spanCuts rt r spans).map (fun c => (c.start,c.stop))=
      spans.map (fun found => (found.start,found.stop)) := by
  induction spans with
  | nil => rfl
  | cons found rest ih =>
    obtain ⟨⟨content,hcontent⟩,hrest⟩ := List.forall_mem_cons.mp h
    rw [spanCuts,hcontent,List.map_cons,List.map_cons,ih hrest]

/-- Spans in the order of the pass that do not meet lie from right to left. -/
theorem pairwise_right {results : List AnalyzerResult}
    (hspan : ∀ found∈results, found.start<found.stop) (ha : results.Pairwise Apart) :
    (results.insertionSort (fun a b => b.start≤a.start)).Pairwise (fun a b => b.stop≤a.start) := by
  have hperm := List.perm_insertionSort (fun a b : AnalyzerResult => b.start≤a.start) results
  have htotal : Std.Total (fun a b : AnalyzerResult => b.start≤a.start) :=
    ⟨fun a b => Nat.le_total b.start a.start⟩
  have htrans : IsTrans AnalyzerResult (fun a b => b.start≤a.start) :=
    ⟨fun a b c hab hbc => Nat.le_trans hbc hab⟩
  have hsorted := List.pairwise_insertionSort (fun a b : AnalyzerResult => b.start≤a.start) results
  have hsymmetric : ∀ {a b : AnalyzerResult}, Apart a b→Apart b a := fun h => Or.symm h
  have hapart := (hperm.pairwise_iff hsymmetric).mpr ha
  have hboth := hsorted.and hapart
  refine hboth.imp_of_mem fun {a b} hma hmb h => ?_
  obtain ⟨horder,hleft | hright⟩ := h
  · have hpos := hspan a (hperm.mem_iff.mp hma)
    omega
  · exact hright

/-- Spans of which no two have a common position, with replacements that can be
formatted, are replaced exactly: after the analyzer pass the original characters
in no span are left, in their order. Whatever the spans, that is so exactly when
every position, moved by the replacements made to its left before, meets a cut
exactly if it lies in a span. -/
theorem replaces_exactly_iff (rt : Runtime) {r : Redactor} {analyze : Analyzer}
    (ha : r.analyzer=some analyze) {text : String} {results : List AnalyzerResult}
    (hr : analyze text r.policy.entities r.policy.scoreThreshold=.ok results)
    (hspan : ∀ found∈results, found.start<found.stop) :
    (tracedPass rt r text results).map Prod.fst=(r.analyzerPass rt text).1.toList ∧
    (survivors (tracedPass rt r text results)=uncovered text results ↔
      ∀ x<text.length, outlasts (passCuts rt r results) x= !covered results x) ∧
    (results.Pairwise Apart→
      (∀ found∈results, ∃ content, r.replace rt found.entityType=.ok content)→
      survivors (tracedPass rt r text results)=uncovered text results) := by
  have hmem : ∀ {found}, found∈results.insertionSort (fun a b => b.start≤a.start) ↔
      found∈results := List.mem_insertionSort _
  have hcuts : ∀ c∈passCuts rt r results, c.start≤c.stop := by
    intro c hc
    obtain ⟨found,hfound,hstart,hstop⟩ := spanCuts_mem hc
    have hpos := hspan found (hmem.mp hfound)
    omega
  have hiff : survivors (tracedPass rt r text results)=uncovered text results ↔
      ∀ x<text.length, outlasts (passCuts rt r results) x= !covered results x :=
    survivors_trace_iff hcuts text.toList _
  refine ⟨map_fst_tracedPass ha hr,hiff,fun hapart hformat => hiff.mpr fun x _ => ?_⟩
  have hpairs : (passCuts rt r results).map (fun c => (c.start,c.stop))=
      (results.insertionSort (fun a b => b.start≤a.start)).map
        (fun found => (found.start,found.stop)) :=
    spanCuts_all fun found hfound => hformat found (hmem.mp hfound)
  have hleft : (passCuts rt r results).Pairwise (fun c d => d.stop≤c.start) := by
    have hbounds : ((passCuts rt r results).map (fun c => (c.start,c.stop))).Pairwise
        (fun p q : ℕ×ℕ => q.2≤p.1) := by
      rw [hpairs]
      exact List.pairwise_map.mpr (pairwise_right hspan hapart)
    exact List.pairwise_map.mp hbounds
  have hcover : covered results x=true ↔ ∃ c∈passCuts rt r results, c.start≤x ∧ x<c.stop := by
    have hbounds : (∃ p∈(passCuts rt r results).map (fun c => (c.start,c.stop)),
        p.1≤x ∧ x<p.2) ↔ ∃ found∈results, found.start≤x ∧ x<found.stop := by
      rw [hpairs]
      simp only [List.mem_map,exists_exists_and_eq_and,hmem]
    simp only [List.mem_map,exists_exists_and_eq_and] at hbounds
    rw [hbounds,covered,List.any_eq_true]
    simp only [decide_eq_true_eq]
  have hlasts : outlasts (passCuts rt r results) x=true ↔ (!covered results x)=true := by
    rw [outlasts_iff hleft hcuts,Bool.not_eq_true',←Bool.not_eq_true,hcover]
    simp only [not_exists,not_and]
  exact Bool.eq_iff_iff.mpr hlasts

/-- A redactor whose analyzer gives a fixed answer. -/
def fixedRedactor (replacement : String) (results : List AnalyzerResult) : Redactor :=
  ⟨{replacement := replacement},some (fun _ _ _ => .ok results)⟩

theorem replaces_exactly_apart :
    let results : List AnalyzerResult := [⟨"PERSON",0,3⟩,⟨"DATE",5,9⟩]
    let r := fixedRedactor "<>" results
    (∀ found∈results, found.start<found.stop) ∧
      survivors (tracedPass asciiRuntime r "0123456789" results)=
        uncovered "0123456789" results ∧
      (survivors (tracedPass asciiRuntime r "0123456789" results)=
          uncovered "0123456789" results ↔
        ∀ x<"0123456789".length, outlasts (passCuts asciiRuntime r results) x=
          !covered results x) := by
  let results : List AnalyzerResult := [⟨"PERSON",0,3⟩,⟨"DATE",5,9⟩]
  have hanalyze : (fun _ _ _ => .ok results : Analyzer) "0123456789"
      (fixedRedactor "<>" results).policy.entities
      (fixedRedactor "<>" results).policy.scoreThreshold=.ok results := rfl
  have hspan : ∀ found∈results, found.start<found.stop := by decide
  obtain ⟨-,hiff,hapart⟩ :=
    replaces_exactly_iff (r:=fixedRedactor "<>" results) asciiRuntime rfl hanalyze hspan
  have hformat : ∀ found∈results, ∃ content,
      (fixedRedactor "<>" results).replace asciiRuntime found.entityType=.ok content := by
    refine List.forall_mem_cons.mpr ⟨⟨"<>",?_⟩,List.forall_mem_singleton.mpr ⟨"<>",?_⟩⟩
    · decide +kernel
    · decide +kernel
  exact ⟨hspan,hapart (by simp [results,Apart]) hformat,hiff⟩

theorem nested_span_leaks :
    (let results : List AnalyzerResult := [⟨"PERSON",0,10⟩,⟨"DATE",3,5⟩]
      let r := fixedRedactor "<REDACTED:\x7bentity\x7d>" results
      r.analyzerPass asciiRuntime "0123456789"=("<REDACTED:PERSON>ED:DATE>56789",true) ∧
        survivors (tracedPass asciiRuntime r "0123456789" results)=[5,6,7,8,9] ∧
        uncovered "0123456789" results=[]) ∧
      (let results : List AnalyzerResult := [⟨"PERSON",0,6⟩,⟨"DATE",2,5⟩]
        let r := fixedRedactor "*" results
        r.analyzerPass asciiRuntime "0123456789"=("*89",true) ∧
          survivors (tracedPass asciiRuntime r "0123456789" results)=[8,9] ∧
          uncovered "0123456789" results=[6,7,8,9]) := by
  refine ⟨⟨?_,?_,?_⟩,?_,?_,?_⟩
  all_goals decide +kernel

end McpGateway.SpanReplacement
