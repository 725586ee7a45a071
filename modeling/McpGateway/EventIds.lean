import Mathlib
import McpGateway.StepRun
import McpGateway.PyDict
import McpGateway.JsonValue
import McpGateway.AuthProviders
import McpGateway.ConfigReload
import McpGateway.WebhookDispatcher
import McpGateway.WebhookDeliveries

/-!
# Event ids across reloads

An id names a second and the place of an event among those of its dispatcher.
Each dispatcher counts from one, so the ids of a process stay apart exactly
when no two dispatchers accept their events of one place in one second.
-/

namespace McpGateway.EventIds

open StepRun PyDict JsonValue AuthProviders ConfigReload WebhookDispatcher WebhookDeliveries

section Rendering

/-- A printed number has no underscore. -/
theorem underscore_notMem (n : ℕ) : '_'∉n.repr.toList := by
  intro h
  rw [Nat.toList_repr] at h
  have hdigit := Nat.isDigit_of_mem_toDigits (by decide) (by decide) h
  exact absurd hdigit (by decide)

/-- An id determines its second and its number. -/
theorem eventId_inj {second seq second' seq' : ℕ} (h : eventId second seq=eventId second' seq') :
    second=second' ∧ seq=seq' := by
  have hchars : ∀ second seq : ℕ, (eventId second seq).toList=
      "evt_".toList++(second.repr.toList++ '_'::seq.repr.toList) := by
    intro second seq
    rw [eventId,String.toList_append,String.toList_append,String.toList_append,List.append_assoc,
      List.append_assoc]
    rfl
  have hlist := congrArg String.toList h
  rw [hchars,hchars,List.append_cancel_left_eq] at hlist
  obtain ⟨hsecond,-,hseq⟩ := (List.append_cons_inj_of_notMem (underscore_notMem second)
    (underscore_notMem seq)).mp hlist
  exact ⟨Nat.repr_injective (String.toList_injective hsecond),
    Nat.repr_injective (String.toList_injective hseq)⟩

/-- A payload carries the id that the dispatcher made. -/
theorem deliveryId_payload (id eventType timestamp : String) (data : EventData) :
    deliveryId (payload id eventType timestamp data.fields)=.str id := by
  have hkey : "event_id"∉data.fields.items.map Prod.fst := by
    have hfree := data.noId
    rw [Dict.contains,Option.isSome_eq_false_iff,Option.isNone_iff_eq_none] at hfree
    exact Dict.find_eq_none.mp hfree
  rw [deliveryId,payload,Dict.ofItems,List.foldl_append,Dict.get?_foldl_set hkey]
  rfl

/-- A request carries the id of its payload. -/
theorem header_deliveryId (w : DeliveryWorld) (now : ℚ≥0) (cfg : WebhookConfig)
    (eventType : String) (payload : Dict String Json) :
    (buildRequest w now cfg eventType payload).headers.get? "X-MCP-Delivery"=
      some (deliveryId payload) := by
  unfold buildRequest
  dsimp only
  split
  · rfl
  · rw [Dict.get?_set_other _ (by decide)]
    rfl

end Rendering

section Definitions

/-- The ids of the accepted events differ, and requests with one
`X-MCP-Delivery` are about one event. -/
structure UniqueIds (s : WebhookRun) : Prop where
  /-- The ids in the payloads. -/
  ids : (s.accepted.map (fun event => deliveryId event.payload)).Nodup
  /-- The ids in the headers. -/
  headers : ∀ receipt∈s.received, ∀ other∈s.received,
    receipt.request.headers.get? "X-MCP-Delivery"=other.request.headers.get? "X-MCP-Delivery"→
    receipt.event=other.event

/-- A dispatcher accepts its next event in another second than any other
dispatcher accepted its event of the same place. -/
def Apart (s : WebhookRun) : WebhookAction→Prop
  | .dispatch _ _ => s.dispatcher.configs≠[]→∀ event∈s.accepted,
    event.dispatcher≠s.dispatcher.uid→
    event.ordinal=(s.acceptedBy s.dispatcher.uid).length+1→event.second≠⌊s.clock⌋₊
  | _ => True

/-- A request is about its event. -/
def About (s : WebhookRun) (event : WebhookEvent) (request : Option WebhookRequest) : Prop :=
  event∈s.accepted ∧ ∀ sent∈request,
    sent.headers.get? "X-MCP-Delivery"=some (deliveryId event.payload)

/-- What every reachable state keeps about its events. -/
structure Numbered (s : WebhookRun) : Prop where
  /-- The dispatcher is not a future one. -/
  current : s.dispatcher.uid<s.nextUid
  /-- Nor is that of an event. -/
  past : ∀ event∈s.accepted, event.dispatcher<s.nextUid
  /-- The counter of the dispatcher counts its events. -/
  seq : s.dispatcher.seq=(s.acceptedBy s.dispatcher.uid).length
  /-- The id of an event. -/
  id : ∀ event∈s.accepted, deliveryId event.payload=.str (eventId event.second event.ordinal)
  /-- The place of an event. -/
  place : ∀ event∈s.accepted, event.ordinal≤(s.acceptedBy event.dispatcher).length
  /-- The requests of the deliveries. -/
  deliveries : ∀ delivery∈s.deliveries, About s delivery.event delivery.phase.request
  /-- The requests that were received. -/
  received : ∀ receipt∈s.received, About s receipt.event (some receipt.request)

end Definitions

section Steps

variable {w : DeliveryWorld} {s s' : WebhookRun}

/-- Events whose ids differ are told apart by the headers. -/
theorem Numbered.unique (h : Numbered s)
    (hn : (s.accepted.map (fun event => deliveryId event.payload)).Nodup) : UniqueIds s := by
  refine ⟨hn,fun receipt hr other ho hsame => ?_⟩
  obtain ⟨hevent,hid⟩ := h.received receipt hr
  obtain ⟨hevent',hid'⟩ := h.received other ho
  rw [hid _ rfl,hid' _ rfl] at hsame
  exact List.inj_on_of_nodup_map hn hevent hevent' (Option.some.inj hsame)

/-- A delivery that goes on keeps the events. -/
theorem numbered_resumes (h : Numbered s) (hr : Resumes w s s') : Numbered s' := by
  obtain ⟨i,delivery,request,hi,hrequest,ha⟩ := hr
  have habout : ∀ {event : WebhookEvent} {request : Option WebhookRequest},
      About s event request→About s' event request := by
    rintro event request ⟨hevent,hid⟩
    exact ⟨ha.accepted ▸ hevent,hid⟩
  have hby : ∀ uid, s'.acceptedBy uid=s.acceptedBy uid := by
    intro uid
    rw [WebhookRun.acceptedBy,ha.accepted,WebhookRun.acceptedBy]
  have hown := h.deliveries delivery (List.mem_of_getElem? hi)
  have hsent : About s delivery.event (some request) := by
    refine ⟨hown.1,fun sent hs => ?_⟩
    cases hs
    rcases hrequest with hrequest | hrequest
    · exact hown.2 request hrequest
    · rw [hrequest]
      exact header_deliveryId w s.clock delivery.config delivery.event.eventType _
  refine ⟨?_,?_,?_,?_,?_,?_,?_⟩
  · rw [ha.dispatcher,ha.nextUid]
    exact h.current
  · rw [ha.accepted,ha.nextUid]
    exact h.past
  · rw [ha.dispatcher,hby]
    exact h.seq
  · rw [ha.accepted]
    exact h.id
  · intro event he
    rw [hby]
    exact h.place event (ha.accepted ▸ he)
  · intro next hn
    rcases ha.origin hn with hn | ⟨phase,hp,rfl⟩
    · exact habout (h.deliveries next hn)
    · dsimp only
      rw [hp]
      exact habout hsent
  · intro receipt hr
    rcases ha.received with he | he
    · exact habout (h.received receipt (he ▸ hr))
    · rw [he] at hr
      rcases List.mem_append.mp hr with hr | hr
      · exact habout (h.received receipt hr)
      · cases List.mem_singleton.mp hr
        exact habout hsent

/-- The id of the event that is accepted next. -/
theorem newEvent_id (h : Numbered s) (eventType : String) (data : EventData) :
    deliveryId (newEvent w s eventType data).payload=
      .str (eventId ⌊s.clock⌋₊ ((s.acceptedBy s.dispatcher.uid).length+1)) := by
  rw [newEvent,deliveryId_payload,h.seq]

/-- The events of a dispatcher after a dispatch. -/
theorem acceptedBy_append (s : WebhookRun) (event : WebhookEvent) (uid : ℕ) :
    ({s with accepted := s.accepted++[event]} : WebhookRun).acceptedBy uid=
      s.acceptedBy uid++if event.dispatcher=uid then [event] else [] := by
  simp only [WebhookRun.acceptedBy,List.filter_append,List.filter_singleton,
    Bool.cond_decide]

/-- A dispatch. -/
theorem numbered_dispatched (h : Numbered s) (eventType : String) (data : EventData) :
    Numbered (dispatched w s eventType data) := by
  unfold dispatched
  split
  · exact h
  · dsimp only
    have habout : ∀ {event : WebhookEvent} {request : Option WebhookRequest},
        About s event request→event∈s.accepted++[newEvent w s eventType data] ∧
          ∀ sent∈request, sent.headers.get? "X-MCP-Delivery"=some (deliveryId event.payload) :=
      fun hb => ⟨List.mem_append_left _ hb.1,hb.2⟩
    have hby := acceptedBy_append s (newEvent w s eventType data)
    have hself : (newEvent w s eventType data).dispatcher=s.dispatcher.uid := rfl
    refine ⟨h.current,?_,?_,?_,?_,?_,?_⟩
    · intro event he
      rcases List.mem_append.mp he with he | he
      · exact h.past event he
      · cases List.mem_singleton.mp he
        exact h.current
    · refine Eq.trans ?_ (congrArg List.length (hby s.dispatcher.uid)).symm
      rw [if_pos hself,List.length_append,List.length_singleton,←h.seq]
    · intro event he
      rcases List.mem_append.mp he with he | he
      · exact h.id event he
      · cases List.mem_singleton.mp he
        exact newEvent_id h eventType data
    · intro event he
      refine le_of_le_of_eq ?_ (congrArg List.length (hby event.dispatcher)).symm
      rw [List.length_append]
      rcases List.mem_append.mp he with he | he
      · exact Nat.le_add_right_of_le (h.place event he)
      · cases List.mem_singleton.mp he
        rw [if_pos rfl]
        exact le_rfl
    · intro delivery hd
      rcases List.mem_append.mp hd with hd | hd
      · exact habout (h.deliveries delivery hd)
      · obtain ⟨cfg,-,rfl⟩ := List.mem_map.mp hd
        refine ⟨List.mem_append_right _ (List.mem_singleton_self _),fun sent hs => ?_⟩
        cases hs
    · exact fun receipt hr => habout (h.received receipt hr)

/-- One action. -/
theorem numbered_step (h : Numbered s) (a : WebhookAction) :
    Numbered (WebhookDispatcher.step w s a) := by
  cases a with
  | tick elapsed => exact ⟨h.current,h.past,h.seq,h.id,h.place,h.deliveries,h.received⟩
  | dispatch eventType data => exact numbered_dispatched h eventType data
  | attempt i =>
    rcases attempt_cases w s i with hsame | hresumes
    · rw [hsame]
      exact h
    · exact numbered_resumes h hresumes
  | respond i outcome =>
    rcases respond_cases w s i outcome with hsame | hresumes
    · rw [hsame]
      exact h
    · exact numbered_resumes h hresumes
  | close webhooks => exact ⟨h.current,h.past,h.seq,h.id,h.place,h.deliveries,h.received⟩
  | install i =>
    simp only [WebhookDispatcher.step,installed]
    split
    · have hnone : s.acceptedBy s.nextUid=[] := by
        refine List.filter_eq_nil_iff.mpr fun event he hd => ?_
        have hpast := h.past event he
        rw [of_decide_eq_true hd] at hpast
        exact absurd hpast (lt_irrefl _)
      refine ⟨Nat.lt_succ_self _,fun event he => Nat.lt_succ_of_lt (h.past event he),?_,h.id,
        h.place,h.deliveries,h.received⟩
      exact (congrArg List.length hnone).symm
    · exact h

/-- An action accepts nothing and has nothing to keep apart, or it accepts the
next event. -/
theorem accepted_step (w : DeliveryWorld) (s : WebhookRun) (a : WebhookAction) :
    ((WebhookDispatcher.step w s a).accepted=s.accepted ∧ Apart s a) ∨
      ∃ eventType data, a=.dispatch eventType data ∧ s.dispatcher.configs≠[] ∧
        (WebhookDispatcher.step w s a).accepted=s.accepted++[newEvent w s eventType data] := by
  cases a with
  | tick elapsed => exact .inl ⟨rfl,trivial⟩
  | dispatch eventType data =>
    simp only [WebhookDispatcher.step,dispatched]
    split
    · rename_i hconfigs
      exact .inl ⟨rfl,fun hne => absurd hconfigs hne⟩
    · rename_i hconfigs
      exact .inr ⟨eventType,data,rfl,hconfigs,rfl⟩
  | attempt i =>
    refine .inl ⟨?_,trivial⟩
    rcases attempt_cases w s i with hsame | ⟨_,_,_,_,_,ha⟩
    · rw [hsame]
    · exact ha.accepted
  | respond i outcome =>
    refine .inl ⟨?_,trivial⟩
    rcases respond_cases w s i outcome with hsame | ⟨_,_,_,_,_,ha⟩
    · rw [hsame]
    · exact ha.accepted
  | close webhooks => exact .inl ⟨rfl,trivial⟩
  | install i =>
    refine .inl ⟨?_,trivial⟩
    simp only [WebhookDispatcher.step,installed]
    split <;> rfl

/-- The next event has an id of its own exactly when no other dispatcher has
accepted its event of that place in this second. -/
theorem newEvent_fresh (h : Numbered s) (eventType : String) (data : EventData) :
    (∀ event∈s.accepted, deliveryId event.payload≠
      deliveryId (newEvent w s eventType data).payload) ↔
    ∀ event∈s.accepted, event.dispatcher≠s.dispatcher.uid→
      event.ordinal=(s.acceptedBy s.dispatcher.uid).length+1→event.second≠⌊s.clock⌋₊ := by
  rw [newEvent_id h]
  constructor
  · intro hfresh event he _ hordinal hsecond
    refine hfresh event he ?_
    rw [h.id event he,hsecond,hordinal]
  · intro hapart event he hsame
    rw [h.id event he] at hsame
    obtain ⟨hsecond,hordinal⟩ := eventId_inj (Json.str.inj hsame)
    by_cases hown : event.dispatcher=s.dispatcher.uid
    · have hplace := h.place event he
      rw [hown,hordinal] at hplace
      exact absurd hplace (Nat.not_succ_le_self _)
    · exact hapart event he hown hordinal hsecond

/-- One action keeps the ids unique exactly when it keeps the dispatchers
apart. -/
theorem uniqueIds_step (w : DeliveryWorld) (h : Numbered s) (hu : UniqueIds s)
    (a : WebhookAction) : UniqueIds (WebhookDispatcher.step w s a) ↔ Apart s a := by
  have hnext := numbered_step (w:=w) h a
  rcases accepted_step w s a with ⟨hsame,hapart⟩ | ⟨eventType,data,rfl,hconfigs,hadded⟩
  · exact ⟨fun _ => hapart,fun _ => hnext.unique (hsame ▸ hu.ids)⟩
  · have hfresh := newEvent_fresh (w:=w) h eventType data
    have hids : ((WebhookDispatcher.step w s (.dispatch eventType data)).accepted.map
        (fun event => deliveryId event.payload)).Nodup ↔ ∀ event∈s.accepted,
          deliveryId event.payload≠deliveryId (newEvent w s eventType data).payload := by
      rw [hadded,List.map_append,List.map_singleton,List.nodup_append]
      constructor
      · rintro ⟨-,-,hne⟩ event he
        exact hne _ (List.mem_map_of_mem he) _ (List.mem_singleton_self _)
      · intro hne
        refine ⟨hu.ids,List.nodup_singleton _,?_⟩
        intro id hid other hother
        obtain ⟨event,he,rfl⟩ := List.mem_map.mp hid
        rw [List.mem_singleton.mp hother]
        exact hne event he
    constructor
    · exact fun hunique _ => hfresh.mp (hids.mp hunique.ids)
    · exact fun hapart => hnext.unique (hids.mpr (hfresh.mpr (hapart hconfigs)))

end Steps

/-- In every run of dispatches, deliveries and reloads, at any clock readings
that do not decrease, the ids in payloads and headers tell the accepted events
apart throughout, exactly when no two dispatchers accept their events of one
place in the same second. -/
theorem uniqueIds_iff (w : DeliveryWorld) (configs : List WebhookConfig) (now : ℚ≥0)
    (actions : List WebhookAction) :
    Always (WebhookDispatcher.step w) UniqueIds (boot configs now) actions ↔
      Meets (WebhookDispatcher.step w) Apart (boot configs now) actions := by
  have hboot : Numbered (boot configs now) := by
    refine ⟨Nat.zero_lt_one,?_,rfl,?_,?_,?_,?_⟩
    all_goals exact fun _ h => absurd h List.not_mem_nil
  exact always_iff_meets (I:=Numbered) (fun s a h => numbered_step h a)
    (fun s a h hu => uniqueIds_step w h hu a) hboot (hboot.unique List.nodup_nil) actions

/-- A reload between two events within one second. -/
def quickReload : List WebhookAction :=
  [.dispatch "tool_call_ok" toolData,.close [collector],.install 0,
    .dispatch "tool_call_error" toolData]

/-- Both events carry one id. -/
theorem id_repeated :
    (final (WebhookDispatcher.step plainDeliveryWorld) (boot [collector] 5)
      quickReload).accepted.map (fun event => (event.eventType,deliveryId event.payload))=
        [("tool_call_ok",.str "evt_5_1"),("tool_call_error",.str "evt_5_1")] ∧
    ¬Always (WebhookDispatcher.step plainDeliveryWorld) UniqueIds (boot [collector] 5)
      quickReload := by
  refine ⟨by decide +kernel,fun h => ?_⟩
  have hdistinct := h.final.ids
  revert hdistinct
  decide +kernel

end McpGateway.EventIds
