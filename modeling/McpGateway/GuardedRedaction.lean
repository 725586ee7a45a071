import Mathlib
import McpGateway.PyText
import McpGateway.PyDict
import McpGateway.StepRun
import McpGateway.JsonValue
import McpGateway.GatewaySettings
import McpGateway.ToolNaming
import McpGateway.ServerRegistry
import McpGateway.RegistryRuns
import McpGateway.ToolRouting
import McpGateway.PyRuntime
import McpGateway.PiiRedactor
import McpGateway.Guardrails
import McpGateway.ToolOrchestrator
import McpGateway.CallMediation

/-!
# Guardrails against the redacted arguments

The guardrail walk finds in redacted arguments exactly the redactions of the
strings it finds in the original ones, and every number where it was. Since
the original arguments were accepted, a violation by what is sent upstream
can only sit in a string that redaction rewrote.
-/

namespace McpGateway.GuardedRedaction

open PyText PyDict StepRun JsonValue GatewaySettings ToolNaming ServerRegistry RegistryRuns
open ToolRouting PyRuntime PiiRedactor Guardrails ToolOrchestrator CallMediation

section Walks

variable {f : String→Except String (String×Bool)}

/-- Related elements have related strings. -/
theorem iterItems_collected {R : Json→Json→Bool→Prop} {S : String→String→Prop}
    {items ws : List Json} {c : Bool} (h : Collected R items ws c)
    (hr : ∀ v∈items, ∀ w c, R v w c→List.Forall₂ S (iterStrings v) (iterStrings w)) :
    List.Forall₂ S (iterItems items) (iterItems ws) := by
  induction h with
  | nil => exact .nil
  | cons head _ ih =>
    have hhead := hr _ List.mem_cons_self _ _ head
    have htail := ih (fun v hv => hr v (List.mem_cons_of_mem _ hv))
    rw [iterItems,iterItems]
    exact List.rel_append hhead htail

/-- So have related members. -/
theorem iterFields_collected {R : String×Json→String×Json→Bool→Prop} {S : String→String→Prop}
    {fields ws : List (String×Json)} {c : Bool} (h : Collected R fields ws c)
    (hr : ∀ m∈fields, ∀ n c, R m n c→List.Forall₂ S (iterStrings m.2) (iterStrings n.2)) :
    List.Forall₂ S (iterFields fields) (iterFields ws) := by
  induction h with
  | nil => exact .nil
  | cons head _ ih =>
    have hhead := hr _ List.mem_cons_self _ _ head
    have htail := ih (fun m hm => hr m (List.mem_cons_of_mem _ hm))
    rw [iterFields,iterFields]
    exact List.rel_append hhead htail

/-- The strings of a walked value are the redactions of the strings of the
original, one by one and in order. -/
theorem walk_strings (v : Json) : ∀ w c, walk f v=.ok (w,c)→
    List.Forall₂ (fun s t => ∃ c, f s=.ok (t,c)) (iterStrings v) (iterStrings w) := by
  induction v using Json.induction with
  | null => intro w c h; cases h; exact .nil
  | bool b => intro w c h; cases h; exact .nil
  | int n => intro w c h; cases h; exact .nil
  | float x => intro w c h; cases h; exact .nil
  | str s =>
    intro w c h
    cases walk_step h with
    | leaf _ hl => cases hl
    | str hs => exact .cons ⟨c,hs⟩ .nil
  | arr items ih =>
    intro w c h
    cases walk_step h with
    | leaf _ hl => cases hl
    | arr hc =>
      rw [iterStrings,iterStrings]
      exact iterItems_collected hc ih
  | obj fields ih =>
    intro w c h
    cases walk_step h with
    | leaf _ hl => cases hl
    | obj hc =>
      rw [iterStrings,iterStrings]
      exact iterFields_collected hc (fun m hm n c hn => ih m hm n.2 c hn.2)

/-- A walked member stands under its key with its walked value. -/
theorem walkFields_find (k : String) {fields ws : List (String×Json)} {c : Bool}
    (h : Collected (fun m n c => n.1=m.1 ∧ walk f m.2=.ok (n.2,c)) fields ws c) :
    (fields.find? (fun m => m.1==k)=none ∧ ws.find? (fun m => m.1==k)=none) ∨
      ∃ m n c, fields.find? (fun m => m.1==k)=some m ∧ ws.find? (fun m => m.1==k)=some n ∧
        walk f m.2=.ok (n.2,c) := by
  induction h with
  | nil => exact Or.inl ⟨rfl,rfl⟩
  | @cons m n _ _ c _ head _ ih =>
    obtain ⟨hkey,hwalk⟩ := head
    by_cases hk : m.1=k
    · have hn : n.1=k := hkey.trans hk
      rw [List.find?_cons_of_pos (by simpa using hk),List.find?_cons_of_pos (by simpa using hn)]
      exact Or.inr ⟨m,n,c,rfl,rfl,hwalk⟩
    · have hn : ¬n.1=k := fun he => hk (hkey.symm.trans he)
      rw [List.find?_cons_of_neg (by simpa using hk),List.find?_cons_of_neg (by simpa using hn)]
      exact ih

/-- A walk keeps the keys of an object and walks their values. -/
theorem walk_get (k : String) {v w : Json} {c : Bool} (h : walk f v=.ok (w,c)) :
    (v.get? k=none ∧ w.get? k=none) ∨
      ∃ a b c, v.get? k=some a ∧ w.get? k=some b ∧ walk f a=.ok (b,c) := by
  cases walk_step h with
  | str hs => exact Or.inl ⟨rfl,rfl⟩
  | arr hc => exact Or.inl ⟨rfl,rfl⟩
  | leaf _ hl =>
    have hnone : v.get? k=none := by
      cases v <;> first | rfl | cases hl
    exact Or.inl ⟨hnone,hnone⟩
  | obj hc =>
    simp only [Json.get?]
    rcases walkFields_find k hc with ⟨h₁,h₂⟩ | ⟨m,n,c,h₁,h₂,hwalk⟩
    · rw [h₁,h₂]
      exact Or.inl ⟨rfl,rfl⟩
    · rw [h₁,h₂]
      exact Or.inr ⟨m.2,n.2,c,rfl,rfl,hwalk⟩

/-- A walk keeps a number and creates none. -/
theorem walk_number {v w : Json} {c : Bool} (h : walk f v=.ok (w,c)) :
    (v.number?=none ∧ w.number?=none) ∨ v=w := by
  cases walk_step h with
  | leaf => exact Or.inr rfl
  | str hs => exact Or.inl ⟨rfl,rfl⟩
  | arr hc => exact Or.inl ⟨rfl,rfl⟩
  | obj hc => exact Or.inl ⟨rfl,rfl⟩

/-- Numeric bounds see the same arguments before and after a walk. -/
theorem checkRange_walk (rt : Runtime) (rule : CompiledRule) {v w : Json} {c : Bool}
    (h : walk f v=.ok (w,c)) (range : String×Dict String PyFloat) :
    checkRange rt rule w range=checkRange rt rule v range := by
  unfold checkRange
  rcases walk_get range.1 h with ⟨hv,hw⟩ | ⟨a,b,c,hv,hw,hwalk⟩
  · rw [hv,hw]
  · rw [hv,hw]
    rcases walk_number hwalk with ⟨ha,hb⟩ | rfl
    · dsimp only
      rw [ha,hb]
    · rfl

end Walks

/-- A member of the second of two related lists has a partner in the first. -/
theorem exists_partner {α β : Type*} {R : α→β→Prop} {l : List α} {m : List β}
    (h : List.Forall₂ R l m) {b : β} (hb : b∈m) : ∃ a∈l, R a b := by
  induction h with
  | nil => exact absurd hb List.not_mem_nil
  | cons hr _ ih =>
    rcases List.mem_cons.mp hb with rfl | hb
    · exact ⟨_,List.mem_cons_self,hr⟩
    · obtain ⟨a,ha,hab⟩ := ih hb
      exact ⟨a,List.mem_cons_of_mem _ ha,hab⟩

/-- A violation by redacted arguments whose originals were accepted is found
in a string that redaction rewrote. -/
theorem check_redacted {rt : Runtime} {filter : SafetyFilter} {r : Redactor} {tool : String}
    {args sent : Json} {reqRedacted : Bool} (hok : filter.check rt tool args=.ok ())
    (hr : r.redact rt .request args=.ok (sent,reqRedacted)) {violation : GuardrailViolation}
    (hv : filter.check rt tool sent=.error violation) :
    ∃ rule∈filter.compiled, ∃ s∈iterStrings args, ∃ t∈iterStrings sent,
      r.redactString rt s=.ok (t,true) ∧ t≠s ∧ checkString rt rule t=.error violation := by
  have hwalk : walk (r.redactString rt) args=.ok (sent,reqRedacted) := by
    unfold Redactor.redact at hr
    split at hr
    · exact hr
    · obtain ⟨rfl,-⟩ := Prod.mk.inj (Except.ok.inj hr)
      rw [hok] at hv
      cases hv
  have hrules := (check_ok_iff rt filter tool args).mp hok
  unfold SafetyFilter.check at hv
  split at hv
  · cases hv
  · rename_i henabled
    have hrules' := hrules.resolve_left henabled
    obtain ⟨rule,hrule,hraise⟩ := raiseFirst_error hv
    unfold checkRule at hraise
    split at hraise
    · cases hraise
    · rename_i happly
      have happly' : rule.rule.tool="*" ∨ rule.rule.tool=tool := by
        by_contra h
        exact happly ⟨fun hs => h (Or.inl hs),fun ht => h (Or.inr ht)⟩
      obtain ⟨hstrings,hranges⟩ := hrules' rule hrule happly'
      cases hs : raiseFirst (checkString rt rule) (iterStrings sent) with
      | error e =>
        rw [hs] at hraise
        cases hraise
        obtain ⟨t,ht,hbad⟩ := raiseFirst_error hs
        obtain ⟨s,hmem,c,hred⟩ := exists_partner (walk_strings args sent reqRedacted hwalk) ht
        have hne : t≠s := by
          intro he
          rw [he,hstrings s hmem] at hbad
          cases hbad
        cases c with
        | false => exact absurd (redactString_unchanged hred) hne
        | true => exact ⟨rule,hrule,s,hmem,t,ht,hred,hne,hbad⟩
      | ok u =>
        rw [hs] at hraise
        obtain ⟨range,hm,hbad⟩ := raiseFirst_error hraise
        rw [checkRange_walk rt rule hwalk range,hranges range hm] at hbad
        cases hbad

/-- What an invoked upstream receives is the redaction of arguments that the
guardrails accepted. Unless redaction changed something they accept it too,
and what they then reject is a string that redaction rewrote. -/
theorem guardrails_before_redaction (rt : Runtime) (o : Orchestrator) (now : ℚ)
    (request : CallRequest) (interlude : Interlude) (client : ClientRef) (tool : String)
    (sent : Json) (agentId : String)
    (h : Effect.upstream client tool sent agentId∈(callTool rt o now request interlude).effects) :
    o.safety.check rt tool request.arguments=.ok () ∧
    ∃ reqRedacted, o.redactor.redact rt .request request.arguments=.ok (sent,reqRedacted) ∧
      (reqRedacted=false→ o.safety.check rt tool sent=.ok ()) ∧
      ∀ violation, o.safety.check rt tool sent=.error violation→
        ∃ rule∈o.safety.compiled, ∃ s∈iterStrings request.arguments, ∃ t∈iterStrings sent,
          o.redactor.redactString rt s=.ok (t,true) ∧ t≠s ∧
            checkString rt rule t=.error violation := by
  obtain ⟨f,reqRedacted,rfl,hm,-,-,rfl,-⟩ := startCall_upstream_iff.mp (callTool_upstream.mp h)
  refine ⟨hm.guarded,reqRedacted,hm.redacted,?_,fun violation hv =>
    check_redacted hm.guarded hm.redacted hv⟩
  intro hflag
  have hredacted := hm.redacted
  rw [hflag] at hredacted
  rw [redact_unchanged hredacted]
  exact hm.guarded

/-- A policy that forbids one lower-case word everywhere. -/
def forbidWord (word : String) : GuardrailsPolicy where
  rules := [{name := "word",forbiddenSubstrings := [word]}]

/-- Its filter. -/
def wordFilter (word : String) : SafetyFilter :=
  ⟨forbidWord word,[⟨{name := "word",forbiddenSubstrings := [word]},[],[word]⟩]⟩

/-- The default redactor behind a filter for the word its template inserts. -/
def wordOrchestrator (word : String) : Orchestrator :=
  {plainOrchestrator (oneSync {name := "t"}) with safety := wordFilter word}

/-- A request with one string argument. -/
def stringRequest (text : String) : CallRequest :=
  {plainRequest "a.t" with arguments := .obj [("q",.str text)]}

theorem guardrails_before_redaction_number :
    (wordOrchestrator "drop").safety.check asciiRuntime "t" (.obj [("q",.str "123-45-6789")])=
      .ok () ∧
    ∃ reqRedacted, (wordOrchestrator "drop").redactor.redact asciiRuntime .request
        (.obj [("q",.str "123-45-6789")])=
          .ok (.obj [("q",.str "<REDACTED:PHONE_NUMBER>")],reqRedacted) ∧
      (reqRedacted=false→(wordOrchestrator "drop").safety.check asciiRuntime "t"
        (.obj [("q",.str "<REDACTED:PHONE_NUMBER>")])=.ok ()) ∧
      ∀ violation, (wordOrchestrator "drop").safety.check asciiRuntime "t"
          (.obj [("q",.str "<REDACTED:PHONE_NUMBER>")])=.error violation→
        ∃ rule∈(wordOrchestrator "drop").safety.compiled,
          ∃ s∈iterStrings (.obj [("q",.str "123-45-6789")]),
          ∃ t∈iterStrings (.obj [("q",.str "<REDACTED:PHONE_NUMBER>")]),
          (wordOrchestrator "drop").redactor.redactString asciiRuntime s=.ok (t,true) ∧ t≠s ∧
            checkString asciiRuntime rule t=.error violation :=
  guardrails_before_redaction asciiRuntime (wordOrchestrator "drop") 0
    (stringRequest "123-45-6789") (fun o => (o,0,.cancelled)) ⟨0,plainServer "a"⟩ "t"
    (.obj [("q",.str "<REDACTED:PHONE_NUMBER>")]) "agent" (List.mem_singleton_self _)

/-- The text inserted by redaction can be what the guardrails forbid. -/
theorem guardrails_reject_redacted :
    SafetyFilter.new asciiRuntime (forbidWord "redacted")=.ok (wordFilter "redacted") ∧
    Effect.upstream ⟨0,plainServer "a"⟩ "t" (.obj [("q",.str "<REDACTED:PHONE_NUMBER>")])
      "agent"∈(callTool asciiRuntime (wordOrchestrator "redacted") 0
        (stringRequest "123-45-6789") (fun o => (o,0,.cancelled))).effects ∧
    (wordOrchestrator "redacted").safety.check asciiRuntime "t"
      (.obj [("q",.str "<REDACTED:PHONE_NUMBER>")])≠.ok () := by
  refine ⟨rfl,List.mem_singleton_self _,fun h => ?_⟩
  have hbad : (wordOrchestrator "redacted").safety.check asciiRuntime "t"
      (.obj [("q",.str "<REDACTED:PHONE_NUMBER>")])=
        .error ⟨"word","forbidden substring 'redacted' in argument"⟩ := rfl
  rw [hbad] at h
  cases h

end McpGateway.GuardedRedaction
