import Mathlib
import McpGateway.StepRun
import McpGateway.PyDict
import McpGateway.JsonValue
import McpGateway.JsonEncoding
import McpGateway.ConfigReload
import McpGateway.WebhookDispatcher
import McpGateway.WebhookDeliveries
import McpGateway.EventIds
import McpGateway.WebhookReceipts

/-!
# Event bodies

A body is the rendered payload with its members in their order, and a
signature is one of the body alone. Equal bodies come from payloads with the
same names and the same texts, so a body names the second and the place of its
event, and among the events of one dispatcher it belongs to one of them.
-/

namespace McpGateway.EventBodies

open StepRun PyDict JsonValue JsonEncoding ConfigReload WebhookDispatcher WebhookDeliveries
open EventIds WebhookReceipts

section Encoding

variable {repr : ℚ→String}

mutual

/-- The spelling of a value with its members in their order. -/
def transcribe (repr : ℚ→String) : Json→Spelled
  | .arr items => .arr (transcribeItems repr items)
  | .obj fields => .obj (transcribeFields repr fields)
  | leaf => spell repr leaf

/-- Transcribed items in order. -/
def transcribeItems (repr : ℚ→String) : List Json→List Spelled
  | [] => []
  | v::vs => transcribe repr v::transcribeItems repr vs

/-- Transcribed members in order. -/
def transcribeFields (repr : ℚ→String) : List (String×Json)→List (String×Spelled)
  | [] => []
  | (k,v)::vs => (k,transcribe repr v)::transcribeFields repr vs

end

/-- One transcription for each element. -/
theorem transcribeItems_map (items : List Json) :
    transcribeItems repr items=items.map (transcribe repr) := by
  induction items with
  | nil => rfl
  | cons v vs ih => rw [transcribeItems,ih,List.map_cons]

/-- One for each member. -/
theorem transcribeFields_map (fields : List (String×Json)) :
    transcribeFields repr fields=fields.map (fun m => (m.1,transcribe repr m.2)) := by
  induction fields with
  | nil => rfl
  | cons m ms ih =>
    obtain ⟨k,v⟩ := m
    rw [transcribeFields,ih,List.map_cons]

/-- Encoding prints the transcription. -/
theorem encode_eq_print (v : Json) : encode repr v=(transcribe repr v).print := by
  induction v using Json.induction with
  | null => rfl
  | bool b => cases b <;> rfl
  | int n => rfl
  | float x => rfl
  | str s => rfl
  | arr items ih =>
    have hitems : encodeItems repr items=Spelled.printItems (transcribeItems repr items) := by
      induction items with
      | nil => rfl
      | cons v vs ihv =>
        have hhead := ih v List.mem_cons_self
        have htail := ihv (fun u hu => ih u (List.mem_cons_of_mem _ hu))
        rw [encodeItems,transcribeItems,Spelled.printItems,hhead,htail]
    rw [encode,transcribe,Spelled.print,hitems]
  | obj fields ih =>
    have hfields : encodeFields repr fields=
        Spelled.printFields (transcribeFields repr fields) := by
      induction fields with
      | nil => rfl
      | cons m ms ihm =>
        obtain ⟨k,v⟩ := m
        have hhead := ih (k,v) List.mem_cons_self
        have htail := ihm (fun u hu => ih u (List.mem_cons_of_mem _ hu))
        rw [encodeFields,transcribeFields,Spelled.printFields,hhead,htail]
    rw [encode,transcribe,Spelled.print,hfields]

/-- With numbers printed as numbers, transcriptions are clean. -/
theorem transcribe_clean (hrepr : ∀ q, Json.Numeral (repr q).toList) (v : Json) :
    Clean (transcribe repr v) := by
  induction v using Json.induction with
  | null => exact spell_clean hrepr .null
  | bool b => exact spell_clean hrepr (.bool b)
  | int n => exact spell_clean hrepr (.int n)
  | float x => exact spell_clean hrepr (.float x)
  | str s => exact spell_clean hrepr (.str s)
  | arr items ih =>
    refine .arr _ ?_
    rw [transcribeItems_map]
    exact List.forall_mem_map.mpr ih
  | obj fields ih =>
    refine .obj _ ?_
    rw [transcribeFields_map]
    exact List.forall_mem_map.mpr ih

/-- Values with one encoding have one transcription. -/
theorem encode_inj (hrepr : ∀ q, Json.Numeral (repr q).toList) {a b : Json}
    (h : encode repr a=encode repr b) : transcribe repr a=transcribe repr b := by
  have hends : Ends [] := fun c hc => (by cases hc)
  rw [encode_eq_print,encode_eq_print] at h
  exact (print_inj (transcribe repr a) (transcribe repr b) [] [] (transcribe_clean hrepr a)
    (transcribe_clean hrepr b) hends hends (by rw [h])).1

/-- Only a text is transcribed as a text. -/
theorem transcribe_str {v : Json} {text : String} (h : transcribe repr v=.str text) :
    v=.str text := by
  cases v with
  | null => cases h
  | bool b => cases b <;> cases h
  | int n => cases h
  | float x => cases h
  | str s =>
    cases h
    rfl
  | arr items => cases h
  | obj fields => cases h

/-- Two payloads with the same names, in their order, and the same texts. -/
structure SameTexts (a b : Dict String Json) : Prop where
  /-- The names. -/
  names : a.keys=b.keys
  /-- The texts. -/
  texts : ∀ name text, a.get? name=some (.str text) ↔ b.get? name=some (.str text)

/-- A member of a mapped list. -/
theorem find_transcribed (items : List (String×Json)) (name : String) :
    Dict.find (items.map (fun m => (m.1,transcribe repr m.2))) name=
      (Dict.find items name).map (transcribe repr) := by
  induction items with
  | nil => rfl
  | cons m ms ih =>
    rw [List.map_cons,Dict.find,Dict.find]
    split
    · rfl
    · exact ih

/-- Payloads with one encoding have the same texts. -/
theorem sameTexts_of_encode (hrepr : ∀ q, Json.Numeral (repr q).toList) {a b : Dict String Json}
    (h : encode repr (.obj a.items)=encode repr (.obj b.items)) : SameTexts a b := by
  have hfields := Spelled.obj.inj (encode_inj hrepr h)
  rw [transcribeFields_map,transcribeFields_map] at hfields
  have hfound : ∀ name,
      (a.get? name).map (transcribe repr)=(b.get? name).map (transcribe repr) := by
    intro name
    have hfind := congrArg (fun items => Dict.find items name) hfields
    rwa [find_transcribed,find_transcribed] at hfind
  have hone : ∀ {x y : Option Json} {text : String},
      x.map (transcribe repr)=y.map (transcribe repr)→
      x=some (.str text)→y=some (.str text) := by
    intro x y text hsame hx
    rw [hx] at hsame
    obtain ⟨v,hv,hspelled⟩ := Option.map_eq_some_iff.mp hsame.symm
    rw [hv,transcribe_str hspelled]
  refine ⟨?_,fun name text => ⟨hone (hfound name),hone (hfound name).symm⟩⟩
  have hnames := congrArg (List.map Prod.fst) hfields
  rwa [List.map_map,List.map_map] at hnames

/-- Payloads with the same texts carry one id. -/
theorem deliveryId_same {a b : Dict String Json} (h : SameTexts a b) {second seq : ℕ}
    (hid : deliveryId a=.str (eventId second seq)) : deliveryId b=.str (eventId second seq) := by
  have hne : eventId second seq≠"" := by
    intro hempty
    have hchars := congrArg String.toList hempty
    rw [eventId,String.toList_append,String.toList_append,String.toList_append] at hchars
    cases hchars
  have hfound : a.get? "event_id"=some (.str (eventId second seq)) := by
    unfold deliveryId at hid
    cases hget : a.get? "event_id" with
    | none =>
      rw [hget] at hid
      exact absurd (Json.str.inj hid).symm hne
    | some v =>
      rw [hget] at hid
      exact congrArg some hid
  unfold deliveryId
  rw [(h.texts _ _).mp hfound]
  rfl

end Encoding

section Types

variable {w : DeliveryWorld} {s : WebhookRun}

/-- The data of an event leaves the type to the dispatcher. -/
def Untyped : WebhookAction→Prop
  | .dispatch _ data => data.fields.contains "event_type"=false
  | _ => True

/-- Every payload names the type of its event. -/
def Typed (s : WebhookRun) : Prop :=
  ∀ event∈s.accepted, event.payload.get? "event_type"=some (.str event.eventType)

/-- A payload carries the type that it is made with. -/
theorem eventType_payload (id eventType timestamp : String) {data : Dict String Json}
    (h : data.contains "event_type"=false) :
    (payload id eventType timestamp data).get? "event_type"=some (.str eventType) := by
  rw [Dict.contains,Option.isSome_eq_false_iff,Option.isNone_iff_eq_none] at h
  rw [payload,Dict.ofItems,List.foldl_append,Dict.get?_foldl_set (Dict.find_eq_none.mp h)]
  rfl

/-- One action. -/
theorem typed_step (h : Typed s) {a : WebhookAction} (ha : Untyped a) :
    Typed (WebhookDispatcher.step w s a) := by
  rcases accepted_step w s a with ⟨hsame,-⟩ | ⟨eventType,data,rfl,-,hadded⟩
  · intro event he
    exact h event (hsame ▸ he)
  · intro event he
    rw [hadded] at he
    rcases List.mem_append.mp he with he | he
    · exact h event he
    · cases List.mem_singleton.mp he
      exact eventType_payload _ _ _ ha

/-- Every run whose events leave the type to the dispatcher. -/
theorem typed_run (w : DeliveryWorld) (configs : List WebhookConfig) (now : ℚ≥0)
    {actions : List WebhookAction} (h : ∀ a∈actions, Untyped a) :
    Typed (final (WebhookDispatcher.step w) (boot configs now) actions) := by
  have hboot : Typed (boot configs now) := fun _ he => absurd he List.not_mem_nil
  exact meets_invariant (I:=Typed) (C:=fun _ => Untyped) (fun _ _ hs ha => typed_step hs ha) hboot
    (meets_of_forall (fun _ => h) _)

end Types

/-- In every run, requests with one body are about payloads with the same names
and texts, of events with one second and one place, about events of one type
when the data of no event brings a type of its own, and about one event when
one dispatcher made them. -/
theorem bodies_identify (w : DeliveryWorld) (configs : List WebhookConfig) (now : ℚ≥0)
    (actions : List WebhookAction) :
    let s := final (WebhookDispatcher.step w) (boot configs now) actions
    ∀ receipt∈s.received, ∀ other∈s.received, receipt.request.body=other.request.body→
      SameTexts receipt.event.payload other.event.payload ∧
      receipt.event.second=other.event.second ∧ receipt.event.ordinal=other.event.ordinal ∧
      ((∀ a∈actions, Untyped a)→ receipt.event.eventType=other.event.eventType) ∧
      (receipt.event.dispatcher=other.event.dispatcher→ receipt.event=other.event) := by
  intro s receipt hr other ho hbody
  obtain ⟨hnumbered,hbudgeted⟩ := budgeted_run w configs now actions
  have htraced := traced_run w configs now actions
  obtain ⟨hentrusted,time,-,-,hrequest⟩ := htraced.received receipt hr
  obtain ⟨hentrusted',time',-,-,hrequest'⟩ := htraced.received other ho
  have htexts : SameTexts receipt.event.payload other.event.payload := by
    rw [hrequest,hrequest'] at hbody
    exact sameTexts_of_encode w.runtime.reprFloat_numeral (String.ofList_inj.mp hbody)
  have hown := hnumbered.id _ hentrusted.accepted
  have hid := deliveryId_same htexts hown
  rw [hnumbered.id _ hentrusted'.accepted] at hid
  obtain ⟨hsecond,hordinal⟩ := eventId_inj (Json.str.inj hid.symm)
  refine ⟨htexts,hsecond,hordinal,fun huntyped => ?_,fun huid => ?_⟩
  · have htyped := typed_run w configs now huntyped
    have htype := (htexts.texts _ _).mp (htyped _ hentrusted.accepted)
    rw [htyped _ hentrusted'.accepted] at htype
    exact (Json.str.inj (Option.some.inj htype)).symm
  · exact List.inj_on_of_nodup_map hbudgeted.apart hentrusted.accepted hentrusted'.accepted
      (Prod.ext huid hordinal)

/-- A delivery whose first request is answered with 503. -/
def slowAnswer : List WebhookAction :=
  [.dispatch "tool_call_ok" toolData,.attempt 0,.respond 0 (.response 503),.tick 1,.attempt 0,
    .respond 0 (.response 200)]

/-- The process after it. -/
def retried : WebhookRun :=
  final (WebhookDispatcher.step plainDeliveryWorld) (boot [collector] 0) slowAnswer

/-- Both requests are about one event. -/
theorem bodies_identify_retried :
    ∃ first second, retried.received=[first,second] ∧ first.event=second.event := by
  have hlength : retried.received.length=2 := by decide +kernel
  obtain ⟨first,second,hreceived⟩ := List.length_eq_two.mp hlength
  have hbodies : retried.received.map (fun receipt => receipt.request.body)=
      List.replicate 2 ((retried.received.map (fun receipt => receipt.request.body)).headD "") := by
    decide +kernel
  have hplaces : retried.received.map (fun receipt => receipt.event.dispatcher)=[0,0] := by
    decide +kernel
  rw [hreceived] at hbodies hplaces
  have hbody : first.request.body=second.request.body := by
    simpa using hbodies.symm
  have huid : first.event.dispatcher=second.event.dispatcher := by
    simp at hplaces
    rw [hplaces.1,hplaces.2]
  have hfirst : first∈retried.received := hreceived ▸ List.mem_cons_self
  have hsecond : second∈retried.received :=
    hreceived ▸ List.mem_cons_of_mem _ (List.mem_singleton_self _)
  have hsame := bodies_identify plainDeliveryWorld [collector] 0 slowAnswer first hfirst second
    hsecond hbody
  exact ⟨first,second,hreceived,hsame.2.2.2.2 huid⟩

end McpGateway.EventBodies
