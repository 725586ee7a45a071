import Mathlib
import McpGateway.JsonValue
import McpGateway.GatewaySettings
import McpGateway.PyRuntime
import McpGateway.PiiRedactor
import McpGateway.Guardrails

/-!
# The two walks over a value

The guardrails collect the strings of a value and the redactor rewrites them.
Both visit the same positions in the same order: collecting after rewriting
is rewriting what was collected, and nothing else of the value changes. The
walk reports what the redactions of the strings report.
-/

namespace McpGateway.WalkAgreement

open JsonValue GatewaySettings PyRuntime PiiRedactor Guardrails

mutual

/-- Everything of a value but its strings. -/
def outline : Json→Json
  | .str _ => .str ""
  | .arr items => .arr (outlineItems items)
  | .obj fields => .obj (outlineFields fields)
  | v => v

/-- Outlines of list elements. -/
def outlineItems : List Json→List Json
  | [] => []
  | v::vs => outline v::outlineItems vs

/-- Outlines of member values under their keys. -/
def outlineFields : List (String×Json)→List (String×Json)
  | [] => []
  | (k,v)::vs => (k,outline v)::outlineFields vs

end

/-- A walk over some part of a value agrees with the redactions of the strings
collected from it: the first that raises ends it, and otherwise their texts
are collected from its result and it reports whether one of them reports a
change. -/
def Agrees {α : Type} (collect : α→List String) (shape : α→α)
    (redactions : Except String (List (String×Bool))) (part : α)
    (walked : Except String (α×Bool)) : Prop :=
  match redactions with
  | .error e => walked=.error e
  | .ok ps => ∃ w, walked=.ok (w,ps.any Prod.snd) ∧ collect w=ps.map Prod.fst ∧
      shape w=shape part

/-- A walked value in front of the walked parts behind it. -/
def joined {α : Type} (put : Json→α→α) (walked : Except String (Json×Bool))
    (others : Except String (α×Bool)) : Except String (α×Bool) :=
  match walked with
  | .error text => .error text
  | .ok head => others.map (fun tail => (put head.1 tail.1,head.2 || tail.2))

section Walks

variable (f : String→Except String (String×Bool))

/-- Redactions of strings behind others. -/
theorem mapM_append (xs ys : List String) : (xs++ys).mapM f=
    match xs.mapM f with
    | .error e => .error e
    | .ok ps => (ys.mapM f).map (fun qs => ps++qs) := by
  rw [List.mapM_append]
  cases xs.mapM f with
  | error e => rfl
  | ok ps => cases ys.mapM f <;> rfl

variable {f}

/-- A value and the parts behind it agree together when both do. -/
theorem Agrees.cons {α : Type} {collect : α→List String} {shape : α→α} (put : Json→α→α)
    (hcollect : ∀ w ws, collect (put w ws)=iterStrings w++collect ws)
    (hshape : ∀ w ws, shape (put w ws)=put (outline w) (shape ws)) {v : Json} {vs : α}
    {walked : Except String (Json×Bool)} {others : Except String (α×Bool)}
    (hhead : Agrees iterStrings outline ((iterStrings v).mapM f) v walked)
    (htail : Agrees collect shape ((collect vs).mapM f) vs others) :
    Agrees collect shape ((collect (put v vs)).mapM f) (put v vs) (joined put walked others) := by
  unfold Agrees joined at *
  rw [hcollect,mapM_append]
  cases hv : (iterStrings v).mapM f with
  | error e =>
    rw [hv] at hhead
    dsimp only at hhead ⊢
    rw [hhead]
  | ok ps =>
    rw [hv] at hhead
    obtain ⟨w,hw,hstrings,hsame⟩ := hhead
    rw [hw]
    cases hvs : (collect vs).mapM f with
    | error e =>
      rw [hvs] at htail
      dsimp only at htail ⊢
      rw [htail]
      rfl
    | ok qs =>
      rw [hvs] at htail
      obtain ⟨ws,hws,hothers,hsames⟩ := htail
      rw [hws]
      refine ⟨put w ws,?_,?_,?_⟩
      · rw [List.any_append]
        rfl
      · rw [hcollect,hstrings,hothers,List.map_append]
      · rw [hshape,hshape,hsame,hsames]

/-- List elements agree when each of them does. -/
theorem agrees_items {items : List Json}
    (h : ∀ v∈items, Agrees iterStrings outline ((iterStrings v).mapM f) v (walk f v)) :
    Agrees iterItems outlineItems ((iterItems items).mapM f) items (walkItems f items) := by
  induction items with
  | nil => exact ⟨[],rfl,rfl,rfl⟩
  | cons v vs ih =>
    obtain ⟨hhead,htail⟩ := List.forall_mem_cons.mp h
    exact hhead.cons List.cons (fun _ _ => rfl) (fun _ _ => rfl) (ih htail)

/-- Members agree when each of their values does. -/
theorem agrees_fields {fields : List (String×Json)}
    (h : ∀ m∈fields, Agrees iterStrings outline ((iterStrings m.2).mapM f) m.2 (walk f m.2)) :
    Agrees iterFields outlineFields ((iterFields fields).mapM f) fields (walkFields f fields) := by
  induction fields with
  | nil => exact ⟨[],rfl,rfl,rfl⟩
  | cons m ms ih =>
    obtain ⟨hhead,htail⟩ := List.forall_mem_cons.mp h
    exact hhead.cons (fun w ws => (m.1,w)::ws) (fun _ _ => rfl) (fun _ _ => rfl) (ih htail)

/-- A value without strings agrees with the empty list of redactions. -/
theorem agrees_leaf {v : Json} (hs : iterStrings v=[]) (hw : walk f v=.ok (v,false)) :
    Agrees iterStrings outline ((iterStrings v).mapM f) v (walk f v) := by
  rw [hw,hs]
  exact ⟨v,rfl,hs,rfl⟩

/-- The walk agrees with the redactions of the collected strings. -/
theorem agrees (v : Json) :
    Agrees iterStrings outline ((iterStrings v).mapM f) v (walk f v) := by
  induction v using Json.induction with
  | null => exact agrees_leaf rfl rfl
  | bool b => exact agrees_leaf rfl rfl
  | int n => exact agrees_leaf rfl rfl
  | float x => exact agrees_leaf rfl rfl
  | str s =>
    unfold Agrees
    rw [iterStrings,walk,List.mapM_cons]
    cases hs : f s with
    | error e => rfl
    | ok p =>
      refine ⟨.str p.1,?_,rfl,rfl⟩
      simp [Except.map]
  | arr items ih =>
    have hitems := agrees_items ih
    unfold Agrees at hitems ⊢
    rw [iterStrings,walk]
    cases hs : (iterItems items).mapM f with
    | error e =>
      rw [hs] at hitems
      dsimp only at hitems ⊢
      rw [hitems]
      rfl
    | ok ps =>
      rw [hs] at hitems
      obtain ⟨ws,hws,hstrings,hshape⟩ := hitems
      rw [hws]
      exact ⟨.arr ws,rfl,hstrings,congrArg Json.arr hshape⟩
  | obj fields ih =>
    have hfields := agrees_fields ih
    unfold Agrees at hfields ⊢
    rw [iterStrings,walk]
    cases hs : (iterFields fields).mapM f with
    | error e =>
      rw [hs] at hfields
      dsimp only at hfields ⊢
      rw [hfields]
      rfl
    | ok ps =>
      rw [hs] at hfields
      obtain ⟨ws,hws,hstrings,hshape⟩ := hfields
      rw [hws]
      exact ⟨.obj ws,rfl,hstrings,congrArg Json.obj hshape⟩

end Walks

/-- For every redaction of strings and every value: the first string whose
redaction raises ends the walk. Otherwise the strings of the result are the
redacted strings in order, keys, lengths and other leaves stay, the walk
reports a change when some redaction does, and it returns its input when none
does and the redaction leaves alone what it reports unchanged. -/
theorem walk_agrees (f : String→Except String (String×Bool)) (v : Json) :
    (∀ e, (iterStrings v).mapM f=.error e→walk f v=.error e) ∧
    ∀ ps, (iterStrings v).mapM f=.ok ps→
      ∃ w, walk f v=.ok (w,ps.any Prod.snd) ∧ iterStrings w=ps.map Prod.fst ∧
        outline w=outline v ∧
        ((∀ s t, f s=.ok (t,false)→t=s)→ps.any Prod.snd=false→w=v) := by
  have hagrees := agrees (f:=f) v
  unfold Agrees at hagrees
  constructor
  · intro e he
    rw [he] at hagrees
    exact hagrees
  · intro ps hps
    rw [hps] at hagrees
    obtain ⟨w,hw,hstrings,hshape⟩ := hagrees
    refine ⟨w,hw,hstrings,hshape,fun hf hflag => ?_⟩
    rw [hflag] at hw
    exact walk_unchanged hf v w hw

theorem silent_change_unreported :
    walk (fun s => .ok (s++"!",false)) (.arr [.str "a"])=.ok (.arr [.str "a!"],false) ∧
    Json.arr [.str "a!"]≠.arr [.str "a"] := ⟨by rfl,by decide⟩

end McpGateway.WalkAgreement
