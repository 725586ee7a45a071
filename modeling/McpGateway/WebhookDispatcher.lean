import Mathlib
import McpGateway.StepRun
import McpGateway.TaskPool
import McpGateway.PyDict
import McpGateway.PyText
import McpGateway.JsonValue
import McpGateway.PyRuntime
import McpGateway.AuthProviders
import McpGateway.UpstreamContent
import McpGateway.ToolOrchestrator
import McpGateway.CallMediation
import McpGateway.ConfigReload

/-!
# The webhook dispatcher

An accepted event gets an id from the clock and the counter of its
dispatcher, and one background delivery for each interested endpoint. The
deliveries of a dispatcher share its client. A reload closes that client and
installs the next dispatcher only after a suspension, and deliveries,
dispatches and reloads interleave in any order.
-/

namespace McpGateway.WebhookDispatcher

open StepRun TaskPool PyDict PyText JsonValue PyRuntime AuthProviders ToolOrchestrator CallMediation
open UpstreamContent ConfigReload

section Payloads

mutual

/-- Characters of `json.dumps(value)`, with the members in their order. -/
def encode (repr : ℚ→String) : Json→List Char
  | .null => "null".toList
  | .bool true => "true".toList
  | .bool false => "false".toList
  | .int n => (toString n).toList
  | .float x => Json.renderFloat repr x
  | .str s => Json.renderString s
  | .arr items => '['::Json.commaJoin (encodeItems repr items)++[']']
  | .obj fields => '\x7b'::Json.commaJoin (encodeFields repr fields)++['\x7d']

/-- Encoded list elements in order. -/
def encodeItems (repr : ℚ→String) : List Json→List (List Char)
  | [] => []
  | v::vs => encode repr v::encodeItems repr vs

/-- Encoded members in order. -/
def encodeFields (repr : ℚ→String) : List (String×Json)→List (List Char)
  | [] => []
  | (k,v)::vs => (Json.renderString k++[':',' ']++encode repr v)::encodeFields repr vs

end

/-- The fields that an event brings, none of which is an id of its own. -/
structure EventData where
  /-- Fields by name. -/
  fields : Dict String Json
  /-- The id is left to the dispatcher. -/
  noId : fields.contains "event_id"=false

/-- `f"evt_{int(time.time())}_{self._seq}"`. -/
def eventId (second seq : ℕ) : String := "evt_"++toString second++"_"++toString seq

/-- The payload of an event: three fields of the dispatcher, then its data. -/
def payload (id eventType timestamp : String) (data : Dict String Json) : Dict String Json :=
  Dict.ofItems ([("event_id",.str id),("event_type",.str eventType),
    ("timestamp",.str timestamp)]++data.items)

/-- `payload.get("event_id", "")`. -/
def deliveryId (payload : Dict String Json) : Json := (payload.get? "event_id").getD (.str "")

/-- What the deliveries of a process read. -/
structure DeliveryWorld where
  /-- Library functions. -/
  runtime : Runtime
  /-- Environment variables. -/
  environ : Environ
  /-- Hexadecimal HMAC-SHA256 under a secret. -/
  hmacSha256 : String→String→String
  /-- `isoformat` of a time. -/
  isoformat : ℚ≥0→String

/-- `_sign`. -/
def sign (w : DeliveryWorld) (body secret : String) : String :=
  "sha256="++w.hmacSha256 secret body

/-- The signing secret of an endpoint, empty when there is none. -/
def signingSecret (w : DeliveryWorld) (cfg : WebhookConfig) : String :=
  if present cfg.secretEnv=true then (w.environ (orText cfg.secretEnv "")).getD "" else ""

/-- What one delivery posts, each time it tries. -/
structure WebhookRequest where
  /-- Address. -/
  url : String
  /-- Body. -/
  body : String
  /-- Headers. -/
  headers : Dict String Json
  /-- Seconds per attempt. -/
  timeout : ℚ

/-- The request of a delivery that starts at the given time. -/
def buildRequest (w : DeliveryWorld) (now : ℚ≥0) (cfg : WebhookConfig) (eventType : String)
    (payload : Dict String Json) : WebhookRequest :=
  let body := String.ofList (encode w.runtime.reprFloat (.obj payload.items))
  let headers : Dict String Json := Dict.ofItems [("Content-Type",.str "application/json"),
    ("X-MCP-Event",.str eventType),("X-MCP-Delivery",deliveryId payload),
    ("X-MCP-Timestamp",.str (toString ⌊now⌋₊))]
  let secret := signingSecret w cfg
  let signed := if secret="" then headers
    else headers.set "X-MCP-Signature-256" (.str (sign w body secret))
  ⟨cfg.url,body,signed,cfg.timeout⟩

end Payloads

section States

/-- An accepted event. -/
structure WebhookEvent where
  /-- Identity of the dispatcher that accepted it. -/
  dispatcher : ℕ
  /-- Endpoints of that dispatcher. -/
  endpoints : List WebhookConfig
  /-- Its place among the events of that dispatcher, from one on. -/
  ordinal : ℕ
  /-- The second in which it was accepted. -/
  second : ℕ
  /-- Its type. -/
  eventType : String
  /-- Its payload. -/
  payload : Dict String Json

/-- `not cfg.events or event_type in cfg.events`. -/
def interested (eventType : String) (cfg : WebhookConfig) : Bool :=
  decide (cfg.events=[]) || decide (eventType∈cfg.events)

/-- A dispatcher. Its identity is also that of its client. -/
structure Dispatcher where
  /-- Identity. -/
  uid : ℕ
  /-- `_configs`. -/
  configs : List WebhookConfig
  /-- `_seq`. -/
  seq : ℕ := 0

/-- Where a background delivery stands. -/
inductive DeliveryPhase where
  /-- Its task has not run yet. -/
  | created
  /-- A request is in flight. -/
  | posting (request : WebhookRequest) (attempt : ℕ)
  /-- It waits for its next attempt. -/
  | sleeping (request : WebhookRequest) (attempt : ℕ) (wake : ℚ≥0)

/-- The request that a delivery has built. -/
def DeliveryPhase.request : DeliveryPhase→Option WebhookRequest
  | .created => none
  | .posting request _ => some request
  | .sleeping request _ _ => some request

/-- A background delivery. -/
structure Delivery where
  /-- Its event. -/
  event : WebhookEvent
  /-- Its endpoint. -/
  config : WebhookConfig
  /-- Identity of the client it posts with. -/
  client : ℕ
  /-- Where it stands. -/
  phase : DeliveryPhase

/-- How a request in flight ends. -/
inductive PostOutcome where
  /-- The endpoint answers. -/
  | response (status : ℕ)
  /-- An exception, with the request at its endpoint or not. -/
  | raised (reached : Bool)

/-- A request that reached its endpoint. -/
structure Receipt where
  /-- The event. -/
  event : WebhookEvent
  /-- The endpoint. -/
  config : WebhookConfig
  /-- The request. -/
  request : WebhookRequest

/-- The webhook part of a process. -/
structure WebhookRun where
  /-- The clock. -/
  clock : ℚ≥0
  /-- `orchestrator.webhook_dispatcher`. -/
  dispatcher : Dispatcher
  /-- Identity of the next dispatcher. -/
  nextUid : ℕ
  /-- Closed clients. -/
  closed : List ℕ := []
  /-- Endpoints of the reloads whose `close` has not returned yet. -/
  reloads : List (List WebhookConfig) := []
  /-- Background deliveries. -/
  deliveries : List Delivery := []
  /-- Accepted events, oldest first. -/
  accepted : List WebhookEvent := []
  /-- Requests that reached their endpoints. -/
  received : List Receipt := []

/-- The process after its start. -/
def boot (configs : List WebhookConfig) (now : ℚ≥0) : WebhookRun :=
  {clock := now,dispatcher := ⟨0,configs,0⟩,nextUid := 1}

/-- One thing that can happen next. -/
inductive WebhookAction where
  /-- The passing of time. -/
  | tick (elapsed : ℚ≥0)
  /-- `dispatch`. -/
  | dispatch (eventType : String) (data : EventData)
  /-- A delivery is resumed between two requests. -/
  | attempt (index : ℕ)
  /-- A request in flight ends. -/
  | respond (index : ℕ) (outcome : PostOutcome)
  /-- A reload begins to close the dispatcher it finds. -/
  | close (webhooks : List WebhookConfig)
  /-- The `close` of a reload returns, and the reload installs its dispatcher. -/
  | install (index : ℕ)

end States

section Steps

variable (w : DeliveryWorld) (s : WebhookRun) (i : ℕ) (delivery : Delivery)

/-- Events that a dispatcher has accepted. -/
def WebhookRun.acceptedBy (uid : ℕ) : List WebhookEvent :=
  s.accepted.filter (fun event => decide (event.dispatcher=uid))

/-- The event that the installed dispatcher makes of its arguments. -/
def newEvent (eventType : String) (data : EventData) : WebhookEvent where
  dispatcher := s.dispatcher.uid
  endpoints := s.dispatcher.configs
  ordinal := (s.acceptedBy s.dispatcher.uid).length+1
  second := ⌊s.clock⌋₊
  eventType := eventType
  payload := payload (eventId ⌊s.clock⌋₊ (s.dispatcher.seq+1)) eventType (w.isoformat s.clock)
    data.fields

/-- `dispatch`, which ignores everything without endpoints. -/
def dispatched (eventType : String) (data : EventData) : WebhookRun :=
  if s.dispatcher.configs=[] then s
  else
    let event := newEvent w s eventType data
    let tasks := (s.dispatcher.configs.filter (interested eventType)).map
      (fun cfg => (⟨event,cfg,s.dispatcher.uid,.created⟩ : Delivery))
    {s with
      dispatcher := {s.dispatcher with seq := s.dispatcher.seq+1}
      deliveries := s.deliveries++tasks
      accepted := s.accepted++[event]}

/-- The delivery stands elsewhere. -/
def move (phase : DeliveryPhase) : WebhookRun :=
  {s with deliveries := s.deliveries.set i {delivery with phase := phase}}

/-- The delivery ends. -/
def finish : WebhookRun := {s with deliveries := s.deliveries.eraseIdx i}

/-- What follows a failed attempt: a pause that doubles, or the end. -/
def retry (request : WebhookRequest) (attempt : ℕ) : WebhookRun :=
  if (attempt : ℤ)<delivery.config.maxRetries-1 then
    move s i delivery (.sleeping request attempt (s.clock+1/2*2^attempt))
  else finish s i

/-- `client.post`, which raises when the client is closed. -/
def post (request : WebhookRequest) (attempt : ℕ) : WebhookRun :=
  if delivery.client∈s.closed then retry s i delivery request attempt
  else move s i delivery (.posting request attempt)

/-- A delivery is resumed. -/
def attempted : WebhookRun :=
  match delivery.phase with
  | .created =>
    let request := buildRequest w s.clock delivery.config delivery.event.eventType
      delivery.event.payload
    if delivery.config.maxRetries≤0 then finish s i else post s i delivery request 0
  | .posting _ _ => s
  | .sleeping request attempt wake =>
    if wake≤ s.clock then post s i delivery request (attempt+1) else s

/-- The request has reached its endpoint. -/
def reach (request : WebhookRequest) : WebhookRun :=
  {s with received := s.received++[⟨delivery.event,delivery.config,request⟩]}

/-- A request ends. -/
def responded (outcome : PostOutcome) : WebhookRun :=
  match delivery.phase,outcome with
  | .posting request attempt,.response status =>
    if status<500 then finish (reach s delivery request) i
    else retry (reach s delivery request) i delivery request attempt
  | .posting request attempt,.raised true =>
    retry (reach s delivery request) i delivery request attempt
  | .posting request attempt,.raised false => retry s i delivery request attempt
  | _,_ => s

/-- Acting on a delivery that exists. -/
def onDelivery (act : Delivery→WebhookRun) : WebhookRun :=
  match s.deliveries[i]? with
  | some delivery => act delivery
  | none => s

/-- A reload closes the client of the dispatcher it finds. -/
def closing (webhooks : List WebhookConfig) : WebhookRun :=
  {s with closed := s.dispatcher.uid::s.closed,reloads := s.reloads++[webhooks]}

/-- A reload installs its dispatcher. -/
def installed : WebhookRun :=
  match s.reloads[i]? with
  | some webhooks => {s with
      dispatcher := ⟨s.nextUid,webhooks,0⟩
      nextUid := s.nextUid+1
      reloads := s.reloads.eraseIdx i}
  | none => s

/-- One step. -/
def step : WebhookAction→WebhookRun
  | .tick elapsed => {s with clock := s.clock+elapsed}
  | .dispatch eventType data => dispatched w s eventType data
  | .attempt i => onDelivery s i (attempted w s i)
  | .respond i outcome => onDelivery s i (fun delivery => responded s i delivery outcome)
  | .close webhooks => closing s webhooks
  | .install i => installed s i

end Steps

section Frames

variable {s s' : WebhookRun} {i : ℕ} {delivery : Delivery} {request : WebhookRequest}

/-- One delivery ends or goes on with a request, which may have reached its
endpoint; events and dispatchers stay as they are. -/
structure Advances (s : WebhookRun) (i : ℕ) (delivery : Delivery) (request : WebhookRequest)
    (s' : WebhookRun) : Prop where
  /-- The dispatcher. -/
  dispatcher : s'.dispatcher=s.dispatcher
  /-- The next identity. -/
  nextUid : s'.nextUid=s.nextUid
  /-- The closed clients. -/
  closed : s'.closed=s.closed
  /-- The accepted events. -/
  accepted : s'.accepted=s.accepted
  /-- The other deliveries. -/
  deliveries : s'.deliveries=s.deliveries.eraseIdx i ∨ ∃ phase, phase.request=some request ∧
    s'.deliveries=s.deliveries.set i {delivery with phase := phase}
  /-- What was received. -/
  received : s'.received=s.received ∨
    s'.received=s.received++[⟨delivery.event,delivery.config,request⟩]

/-- The end of a delivery. -/
theorem advances_finish (s : WebhookRun) (i : ℕ) (delivery : Delivery) (request : WebhookRequest) :
    Advances s i delivery request (finish s i) := ⟨rfl,rfl,rfl,rfl,.inl rfl,.inl rfl⟩

/-- A delivery that stands elsewhere. -/
theorem advances_move (s : WebhookRun) (i : ℕ) (delivery : Delivery) {phase : DeliveryPhase}
    (hp : phase.request=some request) : Advances s i delivery request (move s i delivery phase) :=
  ⟨rfl,rfl,rfl,rfl,.inr ⟨phase,hp,rfl⟩,.inl rfl⟩

/-- A failed attempt. -/
theorem advances_retry (s : WebhookRun) (i : ℕ) (delivery : Delivery) (request : WebhookRequest)
    (attempt : ℕ) : Advances s i delivery request (retry s i delivery request attempt) := by
  unfold retry
  split
  · exact advances_move s i delivery rfl
  · exact advances_finish s i delivery request

/-- A post. -/
theorem advances_post (s : WebhookRun) (i : ℕ) (delivery : Delivery) (request : WebhookRequest)
    (attempt : ℕ) : Advances s i delivery request (post s i delivery request attempt) := by
  unfold post
  split
  · exact advances_retry s i delivery request attempt
  · exact advances_move s i delivery rfl

/-- A step of a delivery after its request has reached the endpoint. -/
theorem Advances.reached (h : Advances (reach s delivery request) i delivery request s')
    (hr : s'.received=(reach s delivery request).received) : Advances s i delivery request s' :=
  ⟨h.dispatcher,h.nextUid,h.closed,h.accepted,h.deliveries,.inr hr⟩

/-- A failed attempt receives nothing. -/
theorem retry_received (s : WebhookRun) (i : ℕ) (delivery : Delivery) (request : WebhookRequest)
    (attempt : ℕ) : (retry s i delivery request attempt).received=s.received := by
  unfold retry
  split <;> rfl

/-- A resumed delivery does nothing or goes on, with the request that it has
built or with a new one. -/
theorem attempted_cases (w : DeliveryWorld) (s : WebhookRun) (i : ℕ) (delivery : Delivery) :
    attempted w s i delivery=s ∨ ∃ request,
      (delivery.phase.request=some request ∨ request=buildRequest w s.clock delivery.config
        delivery.event.eventType delivery.event.payload) ∧
      Advances s i delivery request (attempted w s i delivery) := by
  unfold attempted
  cases hp : delivery.phase with
  | created =>
    dsimp only
    split
    · exact .inr ⟨_,.inr rfl,advances_finish s i delivery _⟩
    · exact .inr ⟨_,.inr rfl,advances_post s i delivery _ 0⟩
  | posting request attempt => exact .inl rfl
  | sleeping request attempt wake =>
    dsimp only
    split
    · exact .inr ⟨request,.inl rfl,advances_post s i delivery request (attempt+1)⟩
    · exact .inl rfl

/-- The end of a request does nothing or goes on with it. -/
theorem responded_cases (s : WebhookRun) (i : ℕ) (delivery : Delivery) (outcome : PostOutcome) :
    responded s i delivery outcome=s ∨ ∃ request, delivery.phase.request=some request ∧
      Advances s i delivery request (responded s i delivery outcome) := by
  unfold responded
  cases hp : delivery.phase with
  | created => exact .inl rfl
  | sleeping request attempt wake => exact .inl rfl
  | posting request attempt =>
    refine .inr ⟨request,rfl,?_⟩
    cases outcome with
    | response status =>
      dsimp only
      split
      · exact (advances_finish _ i delivery request).reached rfl
      · exact (advances_retry _ i delivery request attempt).reached (retry_received _ _ _ _ _)
    | raised reached =>
      cases reached with
      | true =>
        exact (advances_retry _ i delivery request attempt).reached (retry_received _ _ _ _ _)
      | false => exact advances_retry s i delivery request attempt

/-- A delivery goes on, with the request that it has built or with a new
one. -/
def Resumes (w : DeliveryWorld) (s s' : WebhookRun) : Prop :=
  ∃ i delivery request, s.deliveries[i]?=some delivery ∧
    (delivery.phase.request=some request ∨ request=buildRequest w s.clock delivery.config
      delivery.event.eventType delivery.event.payload) ∧ Advances s i delivery request s'

/-- What the resuming of a delivery does. -/
theorem attempt_cases (w : DeliveryWorld) (s : WebhookRun) (i : ℕ) :
    step w s (.attempt i)=s ∨ Resumes w s (step w s (.attempt i)) := by
  simp only [step,onDelivery]
  cases hi : s.deliveries[i]? with
  | none => exact .inl rfl
  | some delivery =>
    exact (attempted_cases w s i delivery).imp id
      (fun ⟨request,hrequest,ha⟩ => ⟨i,delivery,request,hi,hrequest,ha⟩)

/-- What the end of a request does. -/
theorem respond_cases (w : DeliveryWorld) (s : WebhookRun) (i : ℕ) (outcome : PostOutcome) :
    step w s (.respond i outcome)=s ∨ Resumes w s (step w s (.respond i outcome)) := by
  simp only [step,onDelivery]
  cases hi : s.deliveries[i]? with
  | none => exact .inl rfl
  | some delivery =>
    exact (responded_cases s i delivery outcome).imp id
      (fun ⟨request,hrequest,ha⟩ => ⟨i,delivery,request,hi,.inl hrequest,ha⟩)

/-- The other deliveries stay. -/
theorem Advances.others (h : Advances s i delivery request s') (hi : s.deliveries[i]?=some delivery)
    {other : Delivery} (ho : other∈s.deliveries) : other=delivery ∨ other∈s'.deliveries := by
  rcases h.deliveries with hd | ⟨phase,-,hd⟩
  · rw [hd]
    exact mem_erase_other hi ho
  · rw [hd]
    exact mem_set_other hi ho

/-- The deliveries are those from before, and the one that goes on. -/
theorem Advances.origin (h : Advances s i delivery request s') {next : Delivery}
    (hn : next∈s'.deliveries) : next∈s.deliveries ∨
      ∃ phase, phase.request=some request ∧ next={delivery with phase := phase} := by
  rcases h.deliveries with hd | ⟨phase,hp,hd⟩
  · rw [hd] at hn
    exact .inl (List.mem_of_mem_eraseIdx hn)
  · rw [hd] at hn
    rcases List.mem_or_eq_of_mem_set hn with hn | hn
    · exact .inl hn
    · exact .inr ⟨phase,hp,hn⟩

/-- What was received stays received. -/
theorem Advances.mem_received (h : Advances s i delivery request s') {receipt : Receipt}
    (hr : receipt∈s.received) : receipt∈s'.received := by
  rcases h.received with he | he
  · rw [he]
    exact hr
  · rw [he]
    exact List.mem_append_left _ hr

end Frames

section Reports

variable {rt : Runtime} {o : Orchestrator} {now : ℚ} {f : CallFrame} {call : PendingCall}

/-- An event handed to the dispatcher comes with data that leaves the id to
it. -/
def LeavesId (e : Effect) : Prop :=
  ∀ event payload, e=.webhook event payload→∃ data : EventData, payload=.obj data.fields.items

/-- Any other effect. -/
theorem leavesId_of_ne {e : Effect} (h : ∀ event payload, e≠.webhook event payload) :
    LeavesId e := fun event payload he => absurd he (h event payload)

/-- Own fields under distinct names, other than the common ones and the id,
make the data of an event. -/
theorem dispatch_leavesId (names : List String)
    (hn : (["agent_id","server_id","tool"]++names).Nodup)
    (hid : "event_id"∉["agent_id","server_id","tool"]++names) {event : String}
    {fields : List (String×Json)} (hnames : fields.map Prod.fst=names) {e : Effect}
    (h : e∈dispatch o f event fields) : LeavesId e := by
  intro name payload he
  rw [dispatch_mem h] at he
  obtain ⟨-,rfl⟩ := Effect.webhook.inj he
  subst hnames
  refine ⟨⟨⟨_,?_⟩,?_⟩,rfl⟩
  · rw [List.map_append]
    exact hn
  · refine Bool.eq_false_iff.mpr fun hc => hid ?_
    obtain ⟨value,hv⟩ := Option.isSome_iff_exists.mp hc
    have hm := List.mem_map_of_mem (f:=Prod.fst) (Dict.mem_items_iff.mpr hv)
    rw [List.map_append] at hm
    exact hm

/-- Neither counters nor audit records bring an id. -/
theorem counted_leavesId {status : String} {record : AuditRecord} {e : Effect}
    (h : e∈f.toolCall status::emitAudit o record) : LeavesId e := by
  refine leavesId_of_ne fun event payload he => ?_
  rcases List.mem_cons.mp h with h | h
  · rw [h] at he
    cases he
  · rw [emitAudit_mem h] at he
    cases he

/-- A refused call leaves the id to the dispatcher. -/
theorem refusalEffects_leavesId {refusal : Refusal} {e : Effect}
    (h : e∈refusalEffects o f refusal) : LeavesId e := by
  cases refusal with
  | crash text => exact absurd h List.not_mem_nil
  | authorization error => exact counted_leavesId h
  | rateLimit scope => exact counted_leavesId h
  | guardrail violation =>
    rcases List.mem_append.mp h with h | h
    · exact counted_leavesId h
    · exact dispatch_leavesId ["reason"] (by decide) (by decide) rfl h
  | schema error =>
    rcases List.mem_append.mp h with h | h
    · exact counted_leavesId h
    · exact dispatch_leavesId ["errors"] (by decide) (by decide) rfl h

/-- So does a failed request. -/
theorem failureEffects_leavesId {status text : String} {e : Effect}
    (h : e∈failureEffects o call now status text) : LeavesId e := by
  rcases List.mem_append.mp h with h | h
  · exact counted_leavesId h
  · exact dispatch_leavesId ["error","latency_ms"] (by decide) (by decide) rfl h

/-- So does the first half of a call. -/
theorem startCall_leavesId {request : CallRequest} {e : Effect}
    (h : e∈(startCall rt o now request).effects) : LeavesId e := by
  unfold startCall at h
  split at h
  · exact absurd h List.not_mem_nil
  · split at h
    · exact absurd h List.not_mem_nil
    · dsimp only at h
      split at h
      · exact refusalEffects_leavesId h
      · split at h
        · exact absurd h List.not_mem_nil
        · rw [List.mem_singleton.mp h]
          exact leavesId_of_ne (fun _ _ he => by cases he)

/-- So does the second. -/
theorem finishCall_leavesId {answer : UpstreamAnswer} {e : Effect}
    (h : e∈(finishCall rt o now call answer).effects) : LeavesId e := by
  cases answer with
  | upstreamError error => exact failureEffects_leavesId h
  | exception text => exact failureEffects_leavesId h
  | cancelled => exact absurd h List.not_mem_nil
  | content value =>
    unfold finishCall at h
    dsimp only at h
    split at h
    · rw [List.mem_singleton.mp h]
      exact leavesId_of_ne (fun _ _ he => by cases he)
    · rcases List.mem_append.mp h with h | h
      · refine leavesId_of_ne fun event payload he => ?_
        subst he
        rcases List.mem_append.mp h with h | h
        · rcases List.mem_cons.mp h with h | h
          · cases h
          · cases storeResult_mem h
        · cases emitAudit_mem h
      · exact dispatch_leavesId ["latency_ms"] (by decide) (by decide) rfl h

/-- Every event that a call hands to the dispatcher comes with data that leaves
the id to it. -/
theorem callTool_leavesId {request : CallRequest} {interlude : Interlude} {e : Effect}
    (h : e∈(callTool rt o now request interlude).effects) : LeavesId e := by
  unfold callTool at h
  dsimp only at h
  split at h
  · exact startCall_leavesId h
  · rcases List.mem_append.mp h with h | h
    · exact startCall_leavesId h
    · exact finishCall_leavesId h

end Reports

end McpGateway.WebhookDispatcher
