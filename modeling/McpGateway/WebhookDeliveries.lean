import Mathlib
import McpGateway.StepRun
import McpGateway.TaskPool
import McpGateway.PyDict
import McpGateway.JsonValue
import McpGateway.PyRuntime
import McpGateway.AuthProviders
import McpGateway.ConfigReload
import McpGateway.WebhookDispatcher

/-!
# Webhook deliveries across a reload

A delivery whose first request is in flight, or whose client is open, reaches
an endpoint that answers. A reload breaks this only for deliveries that have
not posted when it closes their client, for requests that the close breaks
off, and for events accepted before the next dispatcher is installed.
-/

namespace McpGateway.WebhookDeliveries

open StepRun TaskPool PyDict JsonValue PyRuntime AuthProviders ConfigReload WebhookDispatcher

section Definitions

/-- An endpoint that answers below 500 to every request it is sent, as those at
the given addresses do, and that is tried at least once. -/
def Reliable (answers : String→Prop) (cfg : WebhookConfig) : Prop :=
  answers cfg.url ∧ 1≤cfg.maxRetries

/-- The endpoint has received the event. -/
def Received (s : WebhookRun) (event : WebhookEvent) (cfg : WebhookConfig) : Prop :=
  ∃ receipt∈s.received, receipt.event=event ∧ receipt.config=cfg

/-- A request of the delivery is in flight, or its first one will be sent on an
open client. -/
def OnItsWay (s : WebhookRun) (delivery : Delivery) : Prop :=
  match delivery.phase with
  | .created => delivery.client∉s.closed
  | .posting _ _ => True
  | .sleeping _ _ _ => False

/-- Every endpoint that is interested in an accepted event, answers and is
tried at all has received it or is about to. -/
def Carried (answers : String→Prop) (s : WebhookRun) : Prop :=
  ∀ event∈s.accepted, ∀ cfg∈event.endpoints, interested event.eventType cfg=true→
    Reliable answers cfg→Received s event cfg ∨
      ∃ delivery∈s.deliveries, delivery.event=event ∧ delivery.config=cfg ∧ OnItsWay s delivery

/-- Every endpoint that is interested in an accepted event, answers and is
tried at all has received it, or receives it with the next two steps of an
outstanding delivery. Once no delivery is outstanding it has received it. -/
def Delivered (answers : String→Prop) (w : DeliveryWorld) (s : WebhookRun) : Prop :=
  ∀ event∈s.accepted, ∀ cfg∈event.endpoints, interested event.eventType cfg=true→
    Reliable answers cfg→Received s event cfg ∨
      ∃ i delivery, s.deliveries[i]?=some delivery ∧ delivery.event=event ∧ delivery.config=cfg ∧
        ∀ status, Received (final (WebhookDispatcher.step w) s
          [.attempt i,.respond i (.response status)]) event cfg

/-- An endpoint that answers does so to every request sent on an open
client. -/
def Answered (answers : String→Prop) (s : WebhookRun) : WebhookAction→Prop
  | .respond i outcome => ∀ delivery, s.deliveries[i]?=some delivery→
    answers delivery.config.url→
    match outcome with
    | .response status => status<500
    | .raised _ => delivery.client∈s.closed
  | _ => True

/-- For the endpoints that answer: nothing is dispatched to them on a closed
client, a client is closed only when each of its deliveries to them has its
request in flight, and the close breaks none of these requests off before it
reaches its endpoint. -/
def Unbroken (answers : String→Prop) (s : WebhookRun) : WebhookAction→Prop
  | .dispatch eventType _ => s.dispatcher.uid∈s.closed→
    ∀ cfg∈s.dispatcher.configs, interested eventType cfg=true→¬Reliable answers cfg
  | .close _ => s.dispatcher.uid∉s.closed→
    ∀ delivery∈s.deliveries, delivery.client=s.dispatcher.uid→Reliable answers delivery.config→
      ∃ request attempt, delivery.phase=.posting request attempt
  | .respond i outcome => ∀ delivery, s.deliveries[i]?=some delivery→
    Reliable answers delivery.config→delivery.client∈s.closed→ outcome≠.raised false
  | _ => True

end Definitions

section Steps

variable {answers : String→Prop} {w : DeliveryWorld} {s s' : WebhookRun} {i : ℕ}

/-- Events stay on their way when each delivery on its way does, or has
arrived. -/
theorem Carried.frame (h : Carried answers s) (haccepted : s'.accepted=s.accepted)
    (hreceived : ∀ receipt∈s.received, receipt∈s'.received)
    (hway : ∀ delivery∈s.deliveries, Reliable answers delivery.config→ OnItsWay s delivery→
      Received s' delivery.event delivery.config ∨ ∃ next∈s'.deliveries,
        next.event=delivery.event ∧ next.config=delivery.config ∧ OnItsWay s' next) :
    Carried answers s' := by
  intro event he cfg hcfg hinterested hreliable
  rw [haccepted] at he
  rcases h event he cfg hcfg hinterested hreliable with ⟨receipt,hr,hmatch⟩ | hrest
  · exact .inl ⟨receipt,hreceived receipt hr,hmatch⟩
  · obtain ⟨delivery,hd,rfl,rfl,hon⟩ := hrest
    exact hway delivery hd hreliable hon

/-- Nothing changes for a delivery when no client is closed. -/
theorem onItsWay_congr (hclosed : s'.closed=s.closed) (delivery : Delivery) :
    OnItsWay s' delivery ↔ OnItsWay s delivery := by
  unfold OnItsWay
  rw [hclosed]

/-- A step of one delivery keeps the others on their way. -/
theorem carried_advances (h : Carried answers s) {delivery : Delivery} {request : WebhookRequest}
    (hi : s.deliveries[i]?=some delivery) (ha : Advances s i delivery request s')
    (hown : Reliable answers delivery.config→ OnItsWay s delivery→
      Received s' delivery.event delivery.config ∨ ∃ next∈s'.deliveries,
        next.event=delivery.event ∧ next.config=delivery.config ∧ OnItsWay s' next) :
    Carried answers s' := by
  refine h.frame ha.accepted (fun _ hr => ha.mem_received hr) (fun other ho hreliable hon => ?_)
  rcases ha.others hi ho with rfl | ho
  · exact hown hreliable hon
  · exact .inr ⟨other,ho,rfl,rfl,(onItsWay_congr ha.closed other).mpr hon⟩

/-- A delivery that is resumed on its way sends its request or has it in
flight. -/
theorem attempted_posts {delivery : Delivery} (hi : s.deliveries[i]?=some delivery)
    (hreliable : Reliable answers delivery.config) (hon : OnItsWay s delivery) :
    ∃ request attempt, (attempted w s i delivery).deliveries[i]?=
      some {delivery with phase := .posting request attempt} := by
  unfold OnItsWay at hon
  cases hp : delivery.phase with
  | created =>
    rw [hp] at hon
    have hone := hreliable.2
    have hsent : attempted w s i delivery=move s i delivery (.posting (buildRequest w s.clock
        delivery.config delivery.event.eventType delivery.event.payload) 0) := by
      unfold attempted post
      rw [hp]
      dsimp only
      rw [if_neg (by omega),if_neg hon]
    obtain ⟨hlt,-⟩ := List.getElem?_eq_some_iff.mp hi
    rw [hsent]
    exact ⟨_,0,List.getElem?_set_self hlt⟩
  | posting request attempt =>
    have hsame : attempted w s i delivery=s := by
      unfold attempted
      rw [hp]
    have hself : {delivery with phase := .posting request attempt}=delivery := by
      rw [←hp]
    refine ⟨request,attempt,?_⟩
    rw [hsame,hself]
    exact hi
  | sleeping request attempt wake =>
    rw [hp] at hon
    exact hon.elim

/-- An answered request has arrived. -/
theorem responded_receives {delivery : Delivery} {request : WebhookRequest} {attempt : ℕ}
    (hp : delivery.phase=.posting request attempt) {outcome : PostOutcome}
    (hreached : outcome≠.raised false) :
    Received (responded s i delivery outcome) delivery.event delivery.config := by
  have hreceived : (responded s i delivery outcome).received=
      (reach s delivery request).received := by
    unfold responded
    rw [hp]
    cases outcome with
    | response status =>
      dsimp only
      split
      · rfl
      · exact retry_received _ _ _ _ _
    | raised reached =>
      cases reached with
      | true => exact retry_received _ _ _ _ _
      | false => exact absurd rfl hreached
  refine ⟨⟨delivery.event,delivery.config,request⟩,?_,rfl,rfl⟩
  rw [hreceived]
  exact List.mem_append_right _ (List.mem_singleton_self _)

/-- Resuming a delivery. -/
theorem carried_attempted (h : Carried answers s) {delivery : Delivery}
    (hi : s.deliveries[i]?=some delivery) : Carried answers (attempted w s i delivery) := by
  rcases attempted_cases w s i delivery with hsame | ⟨request,-,ha⟩
  · rw [hsame]
    exact h
  · refine carried_advances h hi ha (fun hreliable hon => ?_)
    obtain ⟨sent,attempt,hsent⟩ := attempted_posts (w:=w) hi hreliable hon
    exact .inr ⟨_,List.mem_of_getElem? hsent,rfl,rfl,trivial⟩

/-- The end of a request. -/
theorem carried_responded (h : Carried answers s) {delivery : Delivery}
    (hi : s.deliveries[i]?=some delivery) {outcome : PostOutcome}
    (hanswered : Answered answers s (.respond i outcome))
    (hunbroken : Unbroken answers s (.respond i outcome)) :
    Carried answers (responded s i delivery outcome) := by
  rcases responded_cases s i delivery outcome with hsame | ⟨request,hrequest,ha⟩
  · rw [hsame]
    exact h
  · refine carried_advances h hi ha (fun hreliable hon => ?_)
    cases hp : delivery.phase with
    | created =>
      rw [hp] at hrequest
      cases hrequest
    | sleeping request attempt wake =>
      unfold OnItsWay at hon
      rw [hp] at hon
      exact hon.elim
    | posting request attempt =>
      refine .inl (responded_receives hp fun hbroken => ?_)
      have hclosed := hanswered delivery hi hreliable.1
      rw [hbroken] at hclosed
      exact hunbroken delivery hi hreliable hclosed hbroken

/-- A dispatch. -/
theorem carried_dispatched (h : Carried answers s) {eventType : String} {data : EventData}
    (hunbroken : Unbroken answers s (.dispatch eventType data)) :
    Carried answers (dispatched w s eventType data) := by
  unfold dispatched
  split
  · exact h
  · dsimp only
    intro event he cfg hcfg hinterested hreliable
    rcases List.mem_append.mp he with hold | hnew
    · rcases h event hold cfg hcfg hinterested hreliable with hr | ⟨delivery,hd,hmatch⟩
      · exact .inl hr
      · exact .inr ⟨delivery,List.mem_append_left _ hd,hmatch⟩
    · cases List.mem_singleton.mp hnew
      have hopen : s.dispatcher.uid∉s.closed := fun hclosed =>
        hunbroken hclosed cfg hcfg hinterested hreliable
      refine .inr ⟨_,List.mem_append_right _ (List.mem_map.mpr ⟨cfg,?_,rfl⟩),rfl,rfl,hopen⟩
      exact List.mem_filter.mpr ⟨hcfg,hinterested⟩

/-- The closing of a dispatcher. -/
theorem carried_closing (h : Carried answers s) {webhooks : List WebhookConfig}
    (hunbroken : Unbroken answers s (.close webhooks)) : Carried answers (closing s webhooks) := by
  refine h.frame rfl (fun _ hr => hr) (fun delivery hd hreliable hon => ?_)
  refine .inr ⟨delivery,hd,rfl,rfl,?_⟩
  unfold OnItsWay at hon ⊢
  cases hp : delivery.phase with
  | created =>
    rw [hp] at hon
    intro hclosed
    rcases List.mem_cons.mp hclosed with hclient | hclosed
    · obtain ⟨request,attempt,hposting⟩ :=
        hunbroken (hclient ▸ hon) delivery hd hclient hreliable
      cases hp.symm.trans hposting
    · exact hon hclosed
  | posting request attempt => trivial
  | sleeping request attempt wake =>
    rw [hp] at hon
    exact hon

/-- One action under the condition. -/
theorem carried_step (h : Carried answers s) {a : WebhookAction} (hanswered : Answered answers s a)
    (hunbroken : Unbroken answers s a) : Carried answers (WebhookDispatcher.step w s a) := by
  have hact : ∀ (i : ℕ) (act : Delivery→WebhookRun),
      (∀ delivery, s.deliveries[i]?=some delivery→Carried answers (act delivery))→
      Carried answers (onDelivery s i act) := by
    intro i act ha
    unfold onDelivery
    split
    · rename_i delivery hi
      exact ha delivery hi
    · exact h
  cases a with
  | tick elapsed => exact h
  | dispatch eventType data => exact carried_dispatched h hunbroken
  | attempt i => exact hact i _ (fun delivery hi => carried_attempted h hi)
  | respond i outcome =>
    exact hact i _ (fun delivery hi => carried_responded h hi hanswered hunbroken)
  | close webhooks => exact carried_closing h hunbroken
  | install i =>
    simp only [WebhookDispatcher.step,installed]
    split
    · exact h
    · exact h

/-- A delivery on its way reaches its endpoint with its next two steps. -/
theorem onItsWay_reaches {delivery : Delivery} (hi : s.deliveries[i]?=some delivery)
    (hreliable : Reliable answers delivery.config) (hon : OnItsWay s delivery) (status : ℕ) :
    Received (final (WebhookDispatcher.step w) s [.attempt i,.respond i (.response status)])
      delivery.event delivery.config := by
  obtain ⟨request,attempt,hsent⟩ := attempted_posts (w:=w) hi hreliable hon
  have hfirst : WebhookDispatcher.step w s (.attempt i)=attempted w s i delivery := by
    simp only [WebhookDispatcher.step,onDelivery,hi]
  have hsecond : final (WebhookDispatcher.step w) s [.attempt i,.respond i (.response status)]=
      responded (attempted w s i delivery) i {delivery with phase := .posting request attempt}
        (.response status) := by
    rw [final,List.foldl_cons,hfirst,List.foldl_cons,List.foldl_nil]
    simp only [WebhookDispatcher.step,onDelivery,hsent]
  rw [hsecond]
  exact responded_receives rfl (fun h => by cases h)

/-- Events that are on their way are delivered. -/
theorem Carried.delivered (h : Carried answers s) (w : DeliveryWorld) : Delivered answers w s := by
  intro event he cfg hcfg hinterested hreliable
  rcases h event he cfg hcfg hinterested hreliable with hr | ⟨delivery,hd,rfl,rfl,hon⟩
  · exact .inl hr
  · obtain ⟨i,hi⟩ := List.mem_iff_getElem?.mp hd
    exact .inr ⟨i,delivery,hi,rfl,rfl,onItsWay_reaches hi hreliable hon⟩

/-- Once no delivery is outstanding, every interested endpoint that answers and
is tried at all has received every accepted event. -/
theorem Delivered.settled (h : Delivered answers w s) (hd : s.deliveries=[]) {event : WebhookEvent}
    (he : event∈s.accepted) {cfg : WebhookConfig} (hcfg : cfg∈event.endpoints)
    (hinterested : interested event.eventType cfg=true) (hreliable : Reliable answers cfg) :
    Received s event cfg := by
  rcases h event he cfg hcfg hinterested hreliable with hr | ⟨i,delivery,hi,-⟩
  · exact hr
  · rw [hd] at hi
    cases hi

end Steps

section Progress

variable {s : WebhookRun} {i : ℕ} {delivery : Delivery}

/-- A bound on the steps that a delivery still takes. -/
def stepsLeft (delivery : Delivery) : ℕ :=
  match delivery.phase with
  | .created => 2*delivery.config.maxRetries.toNat+2
  | .posting _ attempt => 2*(delivery.config.maxRetries.toNat-attempt)+1
  | .sleeping _ attempt _ => 2*(delivery.config.maxRetries.toNat-(attempt+1))+2

/-- The same for all deliveries together. -/
def work (s : WebhookRun) : ℕ := (s.deliveries.map stepsLeft).sum

/-- A delivery takes its steps beside those that are left when it ends. -/
theorem work_split (hi : s.deliveries[i]?=some delivery) :
    work s=stepsLeft delivery+work (finish s i) := sum_erase stepsLeft hi

/-- A delivery that stands elsewhere. -/
theorem work_move (hi : s.deliveries[i]?=some delivery) (phase : DeliveryPhase) :
    work (move s i delivery phase)=stepsLeft {delivery with phase := phase}+work (finish s i) :=
  sum_set stepsLeft hi _

/-- A failed attempt leaves fewer steps than the request in flight had. -/
theorem work_retry (hi : s.deliveries[i]?=some delivery) (request : WebhookRequest)
    (attempt : ℕ) : work (retry s i delivery request attempt)<
      2*(delivery.config.maxRetries.toNat-attempt)+1+work (finish s i) := by
  unfold retry
  split
  · rename_i hmore
    rw [work_move hi]
    simp only [stepsLeft]
    omega
  · omega

/-- A post. -/
theorem work_post (hi : s.deliveries[i]?=some delivery) (request : WebhookRequest)
    (attempt : ℕ) : work (post s i delivery request attempt)≤
      2*(delivery.config.maxRetries.toNat-attempt)+1+work (finish s i) := by
  unfold post
  split
  · exact (work_retry hi request attempt).le
  · exact (work_move hi _).le

/-- A resumed delivery does nothing or has fewer steps left. -/
theorem attempted_work (w : DeliveryWorld) (hi : s.deliveries[i]?=some delivery) :
    attempted w s i delivery=s ∨ work (attempted w s i delivery)<work s := by
  have hsplit := work_split hi
  unfold attempted
  cases hp : delivery.phase with
  | created =>
    simp only [stepsLeft,hp] at hsplit
    dsimp only
    right
    split
    · omega
    · have hpost := work_post hi (buildRequest w s.clock delivery.config delivery.event.eventType
        delivery.event.payload) 0
      omega
  | posting request attempt => exact .inl rfl
  | sleeping request attempt wake =>
    simp only [stepsLeft,hp] at hsplit
    dsimp only
    split
    · have hpost := work_post hi request (attempt+1)
      exact .inr (by omega)
    · exact .inl rfl

/-- So does a delivery whose request ends. -/
theorem responded_work (hi : s.deliveries[i]?=some delivery) (outcome : PostOutcome) :
    responded s i delivery outcome=s ∨ work (responded s i delivery outcome)<work s := by
  have hsplit := work_split hi
  unfold responded
  cases hp : delivery.phase with
  | created => exact .inl rfl
  | sleeping request attempt wake => exact .inl rfl
  | posting request attempt =>
    simp only [stepsLeft,hp] at hsplit
    have hfail := work_retry hi request attempt
    have hreached := work_retry (s:=reach s delivery request) hi request attempt
    have hothers : work (finish (reach s delivery request) i)=work (finish s i) := rfl
    right
    cases outcome with
    | response status =>
      dsimp only
      split <;> omega
    | raised reached =>
      cases reached with
      | true => exact (by dsimp only; omega)
      | false => exact (by dsimp only; omega)

/-- Deliveries end: each step of one does nothing or leaves fewer steps to all
of them. -/
theorem delivery_work (w : DeliveryWorld) (s : WebhookRun) (i : ℕ) (outcome : PostOutcome) :
    (WebhookDispatcher.step w s (.attempt i)=s ∨
      work (WebhookDispatcher.step w s (.attempt i))<work s) ∧
    (WebhookDispatcher.step w s (.respond i outcome)=s ∨
      work (WebhookDispatcher.step w s (.respond i outcome))<work s) := by
  simp only [WebhookDispatcher.step,onDelivery]
  cases hi : s.deliveries[i]? with
  | none => exact ⟨.inl rfl,.inl rfl⟩
  | some delivery => exact ⟨attempted_work w hi,responded_work hi outcome⟩

end Progress

/-- In every run in which answering endpoints answer and no step breaks their
deliveries, every accepted event reaches each of them that is interested and
tried at all, in every state reached: it has arrived, or an outstanding
delivery brings it with its next two steps. -/
theorem deliveries_survive (answers : String→Prop) (w : DeliveryWorld)
    (configs : List WebhookConfig) (now : ℚ≥0) (actions : List WebhookAction)
    (h : Meets (WebhookDispatcher.step w) (fun s a => Answered answers s a ∧ Unbroken answers s a)
      (boot configs now) actions) :
    Delivered answers w (final (WebhookDispatcher.step w) (boot configs now) actions) := by
  have hboot : Carried answers (boot configs now) := fun event he => absurd he List.not_mem_nil
  have hcarried : Carried answers (final (WebhookDispatcher.step w) (boot configs now) actions) :=
    meets_invariant (I:=Carried answers) (fun s a hs hc => carried_step hs hc.1 hc.2) hboot h
  exact hcarried.delivered w

/-- An endpoint. -/
def collector : WebhookConfig := {url := "https://siem.example.com/mcp-events"}

/-- Deliveries without a secret. -/
def plainDeliveryWorld : DeliveryWorld where
  runtime := asciiRuntime
  environ := fun _ => none
  hmacSha256 := fun _ _ => ""
  isoformat := fun _ => "1970-01-01T00:00:00+00:00"

/-- The data of an event about one tool. -/
def toolData : EventData := ⟨Dict.ofItems [("tool",.str "search")],rfl⟩

/-- A reload that closes the client while the request is in flight. -/
theorem deliveries_survive_posted :
    Delivered (fun _ => True) plainDeliveryWorld
      (final (WebhookDispatcher.step plainDeliveryWorld) (boot [collector] 0)
        [.dispatch "tool_call_ok" toolData,.attempt 0,.close [collector],.respond 0 (.response 200),
          .install 0]) := by
  refine deliveries_survive (fun _ => True) plainDeliveryWorld [collector] 0 _
    ⟨⟨trivial,?_⟩,⟨trivial,trivial⟩,⟨trivial,?_⟩,⟨?_,?_⟩,⟨trivial,trivial⟩,trivial⟩
  · exact fun hclosed => absurd hclosed List.not_mem_nil
  · intro _ delivery hd _ _
    cases List.mem_singleton.mp hd
    exact ⟨_,_,rfl⟩
  · intro delivery _ _
    exact (by decide : 200<500)
  · intro delivery _ _ _ h
    cases h

/-- A reload that closes the client before the delivery has posted, with all
three attempts on the closed client. -/
def overtaken : List WebhookAction :=
  [.dispatch "tool_call_ok" toolData,.close [collector],.install 0,.attempt 0,.tick 1,.attempt 0,
    .tick 1,.attempt 0]

/-- The process after it. -/
def overtakenRun : WebhookRun :=
  final (WebhookDispatcher.step plainDeliveryWorld) (boot [collector] 0) overtaken

/-- No delivery is left, and the endpoint has received nothing. -/
theorem event_lost :
    Meets (WebhookDispatcher.step plainDeliveryWorld) (Answered (fun _ => True))
      (boot [collector] 0) overtaken ∧
    overtakenRun.deliveries=[] ∧ overtakenRun.received=[] ∧
    ¬Delivered (fun _ => True) plainDeliveryWorld overtakenRun := by
  have hended : overtakenRun.deliveries=[] := List.isEmpty_iff.mp (by decide +kernel)
  have hnothing : overtakenRun.received=[] := List.isEmpty_iff.mp (by decide +kernel)
  have haccepted : ([collector],"tool_call_ok")∈
      overtakenRun.accepted.map (fun event => (event.endpoints,event.eventType)) := by
    decide +kernel
  refine ⟨⟨trivial,trivial,trivial,trivial,trivial,trivial,trivial,trivial,trivial⟩,hended,
    hnothing,fun h => ?_⟩
  obtain ⟨event,he,hevent⟩ := List.mem_map.mp haccepted
  obtain ⟨hendpoints,htype⟩ := Prod.mk.inj hevent
  have hcfg : collector∈event.endpoints := hendpoints ▸ List.mem_singleton_self _
  obtain ⟨receipt,hr,-⟩ := h.settled hended he hcfg (htype ▸ rfl) ⟨trivial,by decide⟩
  rw [hnothing] at hr
  exact absurd hr List.not_mem_nil

end McpGateway.WebhookDeliveries
