import Mathlib
import McpGateway.StepRun
import McpGateway.TaskPool
import McpGateway.PyDict
import McpGateway.JsonValue
import McpGateway.AuthProviders
import McpGateway.ConfigReload
import McpGateway.WebhookDispatcher
import McpGateway.WebhookDeliveries
import McpGateway.EventIds

/-!
# What endpoints receive

A request that reaches an endpoint is about an accepted event, was built for
that endpoint at one moment and repeats its bytes, its signature and its id
with every attempt. An attempt is paid from the allowance of its delivery, so
the requests of an event at an endpoint are bounded along every run.
-/

namespace McpGateway.WebhookReceipts

open StepRun TaskPool PyDict JsonValue AuthProviders ConfigReload WebhookDispatcher
open WebhookDeliveries EventIds

section Definitions

/-- The endpoint is one of an accepted event, and interested in it. -/
structure Entrusted (s : WebhookRun) (event : WebhookEvent) (cfg : WebhookConfig) : Prop where
  /-- The event was accepted. -/
  accepted : event∈s.accepted
  /-- Its dispatcher had the endpoint. -/
  endpoint : cfg∈event.endpoints
  /-- The endpoint takes its type. -/
  interested : interested event.eventType cfg=true

/-- The request was built for the endpoint at a moment behind the event. -/
def Built (w : DeliveryWorld) (s : WebhookRun) (event : WebhookEvent) (cfg : WebhookConfig)
    (request : WebhookRequest) : Prop :=
  ∃ time, time≤ s.clock ∧ event.second≤⌊time⌋₊ ∧
    request=buildRequest w time cfg event.eventType event.payload

/-- Endpoints come from the configurations of the run, and requests from their
events. -/
structure Traced (configured : List WebhookConfig→Prop) (w : DeliveryWorld) (s : WebhookRun) :
    Prop where
  /-- The endpoints of the dispatcher. -/
  installed : configured s.dispatcher.configs
  /-- Those of the reloads. -/
  reloading : ∀ webhooks∈s.reloads, configured webhooks
  /-- Those of the events, none of which is ahead of the clock. -/
  events : ∀ event∈s.accepted, configured event.endpoints ∧ event.second≤⌊s.clock⌋₊
  /-- The deliveries. -/
  deliveries : ∀ delivery∈s.deliveries, Entrusted s delivery.event delivery.config ∧
    ∀ request∈delivery.phase.request, Built w s delivery.event delivery.config request
  /-- What was received. -/
  received : ∀ receipt∈s.received, Entrusted s receipt.event receipt.config ∧
    Built w s receipt.event receipt.config receipt.request

/-- Dispatcher and place tell the events of a process apart. -/
def key (event : WebhookEvent) : ℕ×ℕ := (event.dispatcher,event.ordinal)

/-- How often an interested endpoint is listed for an event. -/
def copies (event : WebhookEvent) (cfg : WebhookConfig) : ℕ :=
  (event.endpoints.filter (interested event.eventType)).count cfg

/-- Attempts that a delivery may still make. -/
def attemptsLeft (delivery : Delivery) : ℕ :=
  match delivery.phase with
  | .created => delivery.config.maxRetries.toNat
  | .posting _ attempt => delivery.config.maxRetries.toNat-attempt
  | .sleeping _ attempt _ => delivery.config.maxRetries.toNat-(attempt+1)

/-- An attempt in flight, and the one that a pause precedes, are among those
allowed. -/
def InTime (delivery : Delivery) : Prop :=
  match delivery.phase with
  | .created => True
  | .posting _ attempt => attempt<delivery.config.maxRetries.toNat
  | .sleeping _ attempt _ => attempt+1<delivery.config.maxRetries.toNat

/-- An amount that counts for one event and endpoint. -/
def share (k : ℕ×ℕ) (cfg : WebhookConfig) (event : WebhookEvent) (own : WebhookConfig)
    (n : ℕ) : ℕ :=
  if key event=k ∧ own=cfg then n else 0

/-- Requests about an event that reached an endpoint. -/
def reached (k : ℕ×ℕ) (cfg : WebhookConfig) (received : List Receipt) : ℕ :=
  (received.map (fun receipt => share k cfg receipt.event receipt.config 1)).sum

/-- What a delivery may still send about it. -/
def due (k : ℕ×ℕ) (cfg : WebhookConfig) (delivery : Delivery) : ℕ :=
  share k cfg delivery.event delivery.config (attemptsLeft delivery)

/-- Attempts that are still to come. -/
def outstanding (k : ℕ×ℕ) (cfg : WebhookConfig) (s : WebhookRun) : ℕ :=
  (s.deliveries.map (due k cfg)).sum

/-- Deliveries that the accepted events call for. -/
def called (k : ℕ×ℕ) (cfg : WebhookConfig) (accepted : List WebhookEvent) : ℕ :=
  (accepted.map (fun event => if key event=k then copies event cfg else 0)).sum

/-- Every attempt is paid for by an accepted event. -/
structure Budgeted (s : WebhookRun) : Prop where
  /-- Events have places of their own. -/
  apart : (s.accepted.map key).Nodup
  /-- Attempts are among those allowed. -/
  inTime : ∀ delivery∈s.deliveries, InTime delivery
  /-- Requests that arrived and attempts to come are called for. -/
  paid : ∀ k cfg, reached k cfg s.received+outstanding k cfg s≤
    cfg.maxRetries.toNat*called k cfg s.accepted

end Definitions

section Traces

variable {configured : List WebhookConfig→Prop} {w : DeliveryWorld} {s s' : WebhookRun} {i : ℕ}
variable {delivery : Delivery}

/-- Clock and reloads stay as they are. -/
def Kept (s s' : WebhookRun) : Prop := s'.clock=s.clock ∧ s'.reloads=s.reloads

/-- A failed attempt keeps them. -/
theorem kept_retry (s : WebhookRun) (i : ℕ) (delivery : Delivery) (request : WebhookRequest)
    (attempt : ℕ) : Kept s (retry s i delivery request attempt) := by
  unfold retry
  split <;> exact ⟨rfl,rfl⟩

/-- So does a post. -/
theorem kept_post (s : WebhookRun) (i : ℕ) (delivery : Delivery) (request : WebhookRequest)
    (attempt : ℕ) : Kept s (post s i delivery request attempt) := by
  unfold post
  split
  · exact kept_retry s i delivery request attempt
  · exact ⟨rfl,rfl⟩

/-- So does a delivery that is resumed. -/
theorem kept_attempted (w : DeliveryWorld) (s : WebhookRun) (i : ℕ) (delivery : Delivery) :
    Kept s (attempted w s i delivery) := by
  unfold attempted
  cases delivery.phase with
  | created =>
    dsimp only
    split
    · exact ⟨rfl,rfl⟩
    · exact kept_post s i delivery _ 0
  | posting request attempt => exact ⟨rfl,rfl⟩
  | sleeping request attempt wake =>
    dsimp only
    split
    · exact kept_post s i delivery request (attempt+1)
    · exact ⟨rfl,rfl⟩

/-- So does the end of a request. -/
theorem kept_responded (s : WebhookRun) (i : ℕ) (delivery : Delivery) (outcome : PostOutcome) :
    Kept s (responded s i delivery outcome) := by
  unfold responded
  cases delivery.phase with
  | created => exact ⟨rfl,rfl⟩
  | sleeping request attempt wake => exact ⟨rfl,rfl⟩
  | posting request attempt =>
    cases outcome with
    | response status =>
      dsimp only
      split
      · exact ⟨rfl,rfl⟩
      · exact kept_retry (reach s delivery request) i delivery request attempt
    | raised reached =>
      cases reached with
      | true => exact kept_retry (reach s delivery request) i delivery request attempt
      | false => exact kept_retry s i delivery request attempt

/-- Acting on a delivery keeps what each of the acts keeps. -/
theorem kept_onDelivery {act : Delivery→WebhookRun} (h : ∀ delivery, Kept s (act delivery)) :
    Kept s (onDelivery s i act) := by
  unfold onDelivery
  split
  · exact h _
  · exact ⟨rfl,rfl⟩

/-- A later state traces no less. -/
theorem Entrusted.mono {event : WebhookEvent} {cfg : WebhookConfig} (h : Entrusted s event cfg)
    (hsub : s.accepted⊆s'.accepted) : Entrusted s' event cfg :=
  ⟨hsub h.accepted,h.endpoint,h.interested⟩

/-- A later clock neither. -/
theorem Built.mono {event : WebhookEvent} {cfg : WebhookConfig} {request : WebhookRequest}
    (h : Built w s event cfg request) (hclock : s.clock≤ s'.clock) :
    Built w s' event cfg request := by
  obtain ⟨time,htime,hrest⟩ := h
  exact ⟨time,htime.trans hclock,hrest⟩

/-- A delivery that goes on keeps the traces. -/
theorem traced_resumes (h : Traced configured w s) (hr : Resumes w s s') (hkept : Kept s s') :
    Traced configured w s' := by
  obtain ⟨i,delivery,request,hi,hrequest,ha⟩ := hr
  have hsub : s.accepted⊆s'.accepted := fun _ he => ha.accepted.symm ▸ he
  have hclock : s.clock≤ s'.clock := hkept.1.ge
  obtain ⟨hown,hbuilt⟩ := h.deliveries delivery (List.mem_of_getElem? hi)
  have hsent : Built w s' delivery.event delivery.config request := by
    rcases hrequest with hrequest | hrequest
    · exact (hbuilt request hrequest).mono hclock
    · exact ⟨s.clock,hclock,(h.events _ hown.accepted).2,hrequest⟩
  refine ⟨?_,?_,?_,?_,?_⟩
  · rw [ha.dispatcher]
    exact h.installed
  · rw [hkept.2]
    exact h.reloading
  · rw [ha.accepted,hkept.1]
    exact h.events
  · intro next hn
    rcases ha.origin hn with hn | ⟨phase,hp,rfl⟩
    · obtain ⟨hentrusted,hrequests⟩ := h.deliveries next hn
      exact ⟨hentrusted.mono hsub,fun sent hs => (hrequests sent hs).mono hclock⟩
    · refine ⟨hown.mono hsub,fun sent hs => ?_⟩
      rw [hp] at hs
      cases hs
      exact hsent
  · intro receipt hm
    have hold : receipt∈s.received→Entrusted s' receipt.event receipt.config ∧
        Built w s' receipt.event receipt.config receipt.request := by
      intro hm
      obtain ⟨hentrusted,hrequest⟩ := h.received receipt hm
      exact ⟨hentrusted.mono hsub,hrequest.mono hclock⟩
    rcases ha.received with he | he
    · exact hold (he ▸ hm)
    · rw [he] at hm
      rcases List.mem_append.mp hm with hm | hm
      · exact hold hm
      · cases List.mem_singleton.mp hm
        exact ⟨hown.mono hsub,hsent⟩

/-- A dispatch entrusts its event to the interested endpoints. -/
theorem traced_dispatched (h : Traced configured w s) (eventType : String) (data : EventData) :
    Traced configured w (dispatched w s eventType data) := by
  unfold dispatched
  split
  · exact h
  · dsimp only
    have hsub : s.accepted⊆s.accepted++[newEvent w s eventType data] :=
      List.subset_append_left _ _
    refine ⟨h.installed,h.reloading,?_,?_,?_⟩
    · intro event he
      rcases List.mem_append.mp he with he | he
      · exact h.events event he
      · cases List.mem_singleton.mp he
        exact ⟨h.installed,le_refl _⟩
    · intro delivery hd
      rcases List.mem_append.mp hd with hd | hd
      · obtain ⟨hentrusted,hrequests⟩ := h.deliveries delivery hd
        exact ⟨hentrusted.mono hsub,hrequests⟩
      · obtain ⟨cfg,hcfg,rfl⟩ := List.mem_map.mp hd
        obtain ⟨hlisted,hinterested⟩ := List.mem_filter.mp hcfg
        refine ⟨⟨List.mem_append_right _ (List.mem_singleton_self _),hlisted,hinterested⟩,?_⟩
        exact fun request hr => (by cases hr)
    · intro receipt hm
      obtain ⟨hentrusted,hrequest⟩ := h.received receipt hm
      exact ⟨hentrusted.mono hsub,hrequest⟩

/-- Neither time that passes nor other endpoints of the run change what was
traced. -/
theorem Traced.frame (h : Traced configured w s) (haccepted : s'.accepted=s.accepted)
    (hclock : s.clock≤ s'.clock) (hdeliveries : s'.deliveries=s.deliveries)
    (hreceived : s'.received=s.received) (hinstalled : configured s'.dispatcher.configs)
    (hreloading : ∀ webhooks∈s'.reloads, configured webhooks) : Traced configured w s' := by
  have hsub : s.accepted⊆s'.accepted := fun _ he => haccepted.symm ▸ he
  refine ⟨hinstalled,hreloading,fun event he => ?_,fun delivery hd => ?_,fun receipt hm => ?_⟩
  · obtain ⟨hconfigured,hsecond⟩ := h.events event (haccepted ▸ he)
    exact ⟨hconfigured,hsecond.trans (Nat.floor_mono hclock)⟩
  · obtain ⟨hentrusted,hrequests⟩ := h.deliveries delivery (hdeliveries ▸ hd)
    exact ⟨hentrusted.mono hsub,fun request hr => (hrequests request hr).mono hclock⟩
  · obtain ⟨hentrusted,hrequest⟩ := h.received receipt (hreceived ▸ hm)
    exact ⟨hentrusted.mono hsub,hrequest.mono hclock⟩

/-- A reload brings endpoints of a configuration of the run. -/
def Configured (configured : List WebhookConfig→Prop) : WebhookAction→Prop
  | .close webhooks => configured webhooks
  | _ => True

/-- One action. -/
theorem traced_step (h : Traced configured w s) {a : WebhookAction}
    (ha : Configured configured a) : Traced configured w (WebhookDispatcher.step w s a) := by
  cases a with
  | tick elapsed => exact h.frame rfl le_self_add rfl rfl h.installed h.reloading
  | dispatch eventType data => exact traced_dispatched h eventType data
  | attempt i =>
    rcases attempt_cases w s i with hsame | hresumes
    · rw [hsame]
      exact h
    · exact traced_resumes h hresumes
        (kept_onDelivery fun delivery => kept_attempted w s i delivery)
  | respond i outcome =>
    rcases respond_cases w s i outcome with hsame | hresumes
    · rw [hsame]
      exact h
    · exact traced_resumes h hresumes
        (kept_onDelivery fun delivery => kept_responded s i delivery outcome)
  | close webhooks =>
    refine h.frame rfl (le_refl _) rfl rfl h.installed (fun other ho => ?_)
    rcases List.mem_append.mp ho with ho | ho
    · exact h.reloading other ho
    · cases List.mem_singleton.mp ho
      exact ha
  | install i =>
    simp only [WebhookDispatcher.step,installed]
    split
    · rename_i webhooks hi
      refine h.frame rfl (le_refl _) rfl rfl (h.reloading webhooks (List.mem_of_getElem? hi))
        (fun other ho => ?_)
      exact h.reloading other (List.mem_of_mem_eraseIdx ho)
    · exact h

end Traces

section Budgets

variable {w : DeliveryWorld} {s : WebhookRun} {i : ℕ} {delivery : Delivery} (k : ℕ×ℕ)
variable (cfg : WebhookConfig) {own : WebhookConfig} {event : WebhookEvent}

/-- A larger amount has no smaller share. -/
theorem share_mono {m n : ℕ} (h : m≤n) : share k cfg event own m≤ share k cfg event own n := by
  unfold share
  split
  · exact h
  · exact le_refl 0

/-- Shares add up. -/
theorem share_add (m n : ℕ) :
    share k cfg event own (m+n)=share k cfg event own m+share k cfg event own n := by
  unfold share
  split
  · rfl
  · rfl

/-- The attempts of a delivery are outstanding beside those that are when it
ends. -/
theorem outstanding_split (hi : s.deliveries[i]?=some delivery) :
    outstanding k cfg s=due k cfg delivery+outstanding k cfg (finish s i) := sum_erase _ hi

/-- A delivery that stands elsewhere. -/
theorem outstanding_move (hi : s.deliveries[i]?=some delivery) (phase : DeliveryPhase) :
    outstanding k cfg (move s i delivery phase)=
      due k cfg {delivery with phase := phase}+outstanding k cfg (finish s i) := sum_set _ hi _

/-- A failed attempt leaves the attempts behind it. -/
theorem outstanding_retry (hi : s.deliveries[i]?=some delivery) (request : WebhookRequest)
    (attempt : ℕ) : outstanding k cfg (retry s i delivery request attempt)≤
      share k cfg delivery.event delivery.config (delivery.config.maxRetries.toNat-(attempt+1))+
        outstanding k cfg (finish s i) := by
  unfold retry
  split
  · exact (outstanding_move k cfg hi _).le
  · exact Nat.le_add_left _ _

/-- A post leaves its own attempt and those behind it. -/
theorem outstanding_post (hi : s.deliveries[i]?=some delivery) (request : WebhookRequest)
    (attempt : ℕ) : outstanding k cfg (post s i delivery request attempt)≤
      share k cfg delivery.event delivery.config (delivery.config.maxRetries.toNat-attempt)+
        outstanding k cfg (finish s i) := by
  unfold post
  split
  · have hless : delivery.config.maxRetries.toNat-(attempt+1)≤
        delivery.config.maxRetries.toNat-attempt := by omega
    exact (outstanding_retry k cfg hi request attempt).trans
      (Nat.add_le_add_right (share_mono k cfg hless) _)
  · exact (outstanding_move k cfg hi _).le

/-- A resumed delivery makes no attempt that was not outstanding. -/
theorem outstanding_attempted (w : DeliveryWorld) (hi : s.deliveries[i]?=some delivery) :
    outstanding k cfg (attempted w s i delivery)≤ outstanding k cfg s := by
  have hsplit := outstanding_split k cfg hi
  unfold attempted
  cases hp : delivery.phase with
  | created =>
    simp only [due,attemptsLeft,hp] at hsplit
    dsimp only
    split
    · rw [hsplit]
      exact Nat.le_add_left _ _
    · rw [hsplit]
      exact outstanding_post k cfg hi _ 0
  | posting request attempt => exact le_refl _
  | sleeping request attempt wake =>
    simp only [due,attemptsLeft,hp] at hsplit
    dsimp only
    split
    · rw [hsplit]
      exact outstanding_post k cfg hi request (attempt+1)
    · exact le_refl _

/-- Nothing arrives while a delivery is resumed. -/
theorem reached_attempted (w : DeliveryWorld) (s : WebhookRun) (i : ℕ) (delivery : Delivery) :
    (attempted w s i delivery).received=s.received := by
  unfold attempted post
  cases delivery.phase with
  | created =>
    dsimp only
    split
    · rfl
    · split
      · exact retry_received s i delivery _ 0
      · rfl
  | posting request attempt => rfl
  | sleeping request attempt wake =>
    dsimp only
    split
    · split
      · exact retry_received s i delivery request (attempt+1)
      · rfl
    · rfl

/-- An arrival counts once. -/
theorem reached_reach (s : WebhookRun) (delivery : Delivery) (request : WebhookRequest) :
    reached k cfg (reach s delivery request).received=
      reached k cfg s.received+share k cfg delivery.event delivery.config 1 := by
  unfold reached reach
  rw [List.map_append,List.sum_append]
  rfl

/-- What arrives with the end of a request was outstanding. -/
theorem paid_responded (hi : s.deliveries[i]?=some delivery) (htime : InTime delivery)
    (outcome : PostOutcome) : reached k cfg (responded s i delivery outcome).received+
      outstanding k cfg (responded s i delivery outcome)≤
        reached k cfg s.received+outstanding k cfg s := by
  have hsplit := outstanding_split k cfg hi
  unfold responded
  cases hp : delivery.phase with
  | created => exact le_refl _
  | sleeping request attempt wake => exact le_refl _
  | posting request attempt =>
    simp only [due,attemptsLeft,hp] at hsplit
    simp only [InTime,hp] at htime
    have hleft : delivery.config.maxRetries.toNat-attempt=
        1+(delivery.config.maxRetries.toNat-(attempt+1)) := by omega
    rw [hleft,share_add k cfg] at hsplit
    have harrived := reached_reach k cfg s delivery request
    have hagain : reached k cfg (retry (reach s delivery request) i delivery request
          attempt).received+
        outstanding k cfg (retry (reach s delivery request) i delivery request attempt)≤
        reached k cfg s.received+outstanding k cfg s := by
      have hfuture := outstanding_retry k cfg (s:=reach s delivery request) hi request attempt
      have hothers : outstanding k cfg (finish (reach s delivery request) i)=
        outstanding k cfg (finish s i) := rfl
      rw [retry_received]
      omega
    cases outcome with
    | response status =>
      dsimp only
      split
      · have hdone : outstanding k cfg (finish (reach s delivery request) i)=
          outstanding k cfg (finish s i) := rfl
        have hkept : (finish (reach s delivery request) i).received=
          (reach s delivery request).received := rfl
        rw [hkept]
        omega
      · exact hagain
    | raised arrived =>
      cases arrived with
      | true => exact hagain
      | false =>
        have hfuture := outstanding_retry k cfg hi request attempt
        dsimp only
        rw [retry_received]
        omega

/-- A failed attempt is followed by one that is allowed, or by none. -/
theorem inTime_retry (h : ∀ d∈s.deliveries, InTime d) (request : WebhookRequest) (attempt : ℕ) :
    ∀ d∈(retry s i delivery request attempt).deliveries, InTime d := by
  intro d hd
  unfold retry at hd
  split at hd
  · rename_i hmore
    rcases List.mem_or_eq_of_mem_set hd with hd | rfl
    · exact h d hd
    · unfold InTime
      dsimp only
      omega
  · exact h d (List.mem_of_mem_eraseIdx hd)

/-- A post that is allowed. -/
theorem inTime_post (h : ∀ d∈s.deliveries, InTime d) (request : WebhookRequest) {attempt : ℕ}
    (ha : attempt<delivery.config.maxRetries.toNat) :
    ∀ d∈(post s i delivery request attempt).deliveries, InTime d := by
  intro d hd
  unfold post at hd
  split at hd
  · exact inTime_retry h request attempt d hd
  · rcases List.mem_or_eq_of_mem_set hd with hd | rfl
    · exact h d hd
    · exact ha

/-- A resumed delivery makes an attempt that is allowed. -/
theorem inTime_attempted (w : DeliveryWorld) (h : ∀ d∈s.deliveries, InTime d)
    (hi : s.deliveries[i]?=some delivery) :
    ∀ d∈(attempted w s i delivery).deliveries, InTime d := by
  have hown := h delivery (List.mem_of_getElem? hi)
  unfold attempted
  cases hp : delivery.phase with
  | created =>
    dsimp only
    split
    · exact fun d hd => h d (List.mem_of_mem_eraseIdx hd)
    · exact inTime_post h _ (by omega)
  | posting request attempt => exact h
  | sleeping request attempt wake =>
    simp only [InTime,hp] at hown
    dsimp only
    split
    · exact inTime_post h request hown
    · exact h

/-- So is what follows the end of a request. -/
theorem inTime_responded (h : ∀ d∈s.deliveries, InTime d) (outcome : PostOutcome) :
    ∀ d∈(responded s i delivery outcome).deliveries, InTime d := by
  unfold responded
  cases delivery.phase with
  | created => exact h
  | sleeping request attempt wake => exact h
  | posting request attempt =>
    have hagain : ∀ d∈(retry (reach s delivery request) i delivery request attempt).deliveries,
        InTime d := inTime_retry (s:=reach s delivery request) h request attempt
    cases outcome with
    | response status =>
      dsimp only
      split
      · exact fun d hd => h d (List.mem_of_mem_eraseIdx hd)
      · exact hagain
    | raised arrived =>
      cases arrived with
      | true => exact hagain
      | false => exact inTime_retry h request attempt

/-- The deliveries of a new event may send what the event calls for. -/
theorem due_new (event : WebhookEvent) (uid : ℕ) (endpoints : List WebhookConfig) :
    ((endpoints.map (fun own => (⟨event,own,uid,.created⟩ : Delivery))).map (due k cfg)).sum=
      cfg.maxRetries.toNat*if key event=k then endpoints.count cfg else 0 := by
  induction endpoints with
  | nil => simp
  | cons own rest ih =>
    rw [List.map_cons,List.map_cons,List.sum_cons,ih,List.count_cons]
    unfold due share attemptsLeft
    by_cases hk : key event=k
    · by_cases hown : own=cfg
      · subst hown
        simp only [hk,and_self,if_true,beq_self_eq_true]
        ring
      · simp only [hk,hown,and_false,if_false,if_true,beq_eq_false_iff_ne.mpr hown]
        simp
    · simp only [hk,false_and,if_false]
      simp

/-- A dispatch pays for its deliveries. -/
theorem budgeted_dispatched (h : Budgeted s) (hn : Numbered s) (eventType : String)
    (data : EventData) : Budgeted (dispatched w s eventType data) := by
  unfold dispatched
  split
  · exact h
  · dsimp only
    refine ⟨?_,?_,fun k cfg => ?_⟩
    · rw [List.map_append,List.map_singleton,List.nodup_append]
      refine ⟨h.apart,List.nodup_singleton _,?_⟩
      intro own hown other hother hsame
      obtain ⟨event,he,rfl⟩ := List.mem_map.mp hown
      rw [List.mem_singleton.mp hother] at hsame
      obtain ⟨huid,hordinal⟩ := Prod.mk.inj hsame
      have hplace := hn.place event he
      rw [huid,hordinal] at hplace
      exact absurd hplace (Nat.not_succ_le_self _)
    · intro d hd
      rcases List.mem_append.mp hd with hd | hd
      · exact h.inTime d hd
      · obtain ⟨own,-,rfl⟩ := List.mem_map.mp hd
        exact trivial
    · have hnew := due_new k cfg (newEvent w s eventType data) s.dispatcher.uid
        (s.dispatcher.configs.filter (interested eventType))
      have hpaid := h.paid k cfg
      unfold outstanding called at hpaid ⊢
      rw [List.map_append,List.sum_append,List.map_append,List.sum_append,hnew,Nat.mul_add,
        List.map_singleton,List.sum_singleton,←Nat.add_assoc]
      exact Nat.add_le_add_right hpaid _

/-- A delivery that goes on is paid for. -/
theorem budgeted_onDelivery (h : Budgeted s) {act : Delivery→WebhookRun}
    (haccepted : ∀ delivery, (act delivery).accepted=s.accepted)
    (htime : ∀ delivery, s.deliveries[i]?=some delivery→∀ d∈(act delivery).deliveries, InTime d)
    (hpaid : ∀ k cfg delivery, s.deliveries[i]?=some delivery→
      reached k cfg (act delivery).received+outstanding k cfg (act delivery)≤
        reached k cfg s.received+outstanding k cfg s) : Budgeted (onDelivery s i act) := by
  unfold onDelivery
  split
  · rename_i delivery hi
    refine ⟨?_,htime delivery hi,fun k cfg => ?_⟩
    · rw [haccepted]
      exact h.apart
    · rw [haccepted]
      exact (hpaid k cfg delivery hi).trans (h.paid k cfg)
  · exact h

/-- One action. -/
theorem budgeted_step (h : Budgeted s) (hn : Numbered s) (a : WebhookAction) :
    Budgeted (WebhookDispatcher.step w s a) := by
  cases a with
  | tick elapsed => exact ⟨h.apart,h.inTime,h.paid⟩
  | dispatch eventType data => exact budgeted_dispatched h hn eventType data
  | attempt i =>
    refine budgeted_onDelivery h (fun delivery => ?_)
      (fun delivery hi => inTime_attempted w h.inTime hi) (fun k cfg delivery hi => ?_)
    · rcases attempted_cases w s i delivery with hsame | ⟨_,_,ha⟩
      · rw [hsame]
      · exact ha.accepted
    · rw [reached_attempted]
      exact Nat.add_le_add_left (outstanding_attempted k cfg w hi) _
  | respond i outcome =>
    refine budgeted_onDelivery h (fun delivery => ?_)
      (fun delivery _ => inTime_responded h.inTime outcome)
      (fun k cfg delivery hi =>
        paid_responded k cfg hi (h.inTime delivery (List.mem_of_getElem? hi)) outcome)
    rcases responded_cases s i delivery outcome with hsame | ⟨_,_,ha⟩
    · rw [hsame]
    · exact ha.accepted
  | close webhooks => exact ⟨h.apart,h.inTime,h.paid⟩
  | install i =>
    simp only [WebhookDispatcher.step,installed]
    split
    · exact ⟨h.apart,h.inTime,h.paid⟩
    · exact h

/-- An accepted event calls for its own copies only. -/
theorem called_accepted (h : (s.accepted.map key).Nodup) (he : event∈s.accepted) :
    called (key event) cfg s.accepted=copies event cfg := by
  unfold called
  generalize s.accepted=accepted at h he
  induction accepted with
  | nil => exact absurd he List.not_mem_nil
  | cons first rest ih =>
    rw [List.map_cons] at h
    obtain ⟨hfirst,hrest⟩ := List.nodup_cons.mp h
    rw [List.map_cons,List.sum_cons]
    rcases List.mem_cons.mp he with rfl | he
    · have hnone : (rest.map (fun other => if key other=key event then copies other cfg else
          0)).sum=0 := by
        refine List.sum_eq_zero fun n hn => ?_
        obtain ⟨other,ho,rfl⟩ := List.mem_map.mp hn
        have hother : key other≠key event := fun hsame =>
          hfirst (hsame ▸ List.mem_map_of_mem ho)
        exact if_neg hother
      rw [if_pos rfl,hnone]
      exact Nat.add_zero _
    · have hother : key first≠key event := fun hsame => hfirst (hsame ▸ List.mem_map_of_mem he)
      rw [if_neg hother,Nat.zero_add]
      exact ih hrest he

end Budgets

section Runs

variable {w : DeliveryWorld} {s : WebhookRun}

/-- The signature of a request is that of its body. -/
theorem header_signature (w : DeliveryWorld) (time : ℚ≥0) (cfg : WebhookConfig)
    (eventType : String) (payload : Dict String Json) :
    (buildRequest w time cfg eventType payload).headers.get? "X-MCP-Signature-256"=
      if signingSecret w cfg="" then none
      else some (.str (sign w (buildRequest w time cfg eventType payload).body
        (signingSecret w cfg))) := by
  unfold buildRequest
  dsimp only
  split
  · rfl
  · exact Dict.get?_set_self _ _ _

/-- A request names the type of its event. -/
theorem header_eventType (w : DeliveryWorld) (time : ℚ≥0) (cfg : WebhookConfig)
    (eventType : String) (payload : Dict String Json) :
    (buildRequest w time cfg eventType payload).headers.get? "X-MCP-Event"=
      some (.str eventType) := by
  unfold buildRequest
  dsimp only
  split
  · rfl
  · rw [Dict.get?_set_other _ (by decide)]
    rfl

/-- What an endpoint can rely on. -/
structure Authentic (w : DeliveryWorld) (s : WebhookRun) (receipt : Receipt) : Prop where
  /-- The event was accepted for it. -/
  entrusted : Entrusted s receipt.event receipt.config
  /-- The request was built for it, behind the event. -/
  built : Built w s receipt.event receipt.config receipt.request
  /-- It was posted to the address of the endpoint. -/
  addressed : receipt.request.url=receipt.config.url
  /-- The body encodes the payload of the event. -/
  rendered : receipt.request.body=
    String.ofList (encode w.runtime.reprFloat (.obj receipt.event.payload.items))
  /-- The type in the headers is that of the event. -/
  typed : receipt.request.headers.get? "X-MCP-Event"=some (.str receipt.event.eventType)
  /-- The id in the headers is that of the event. -/
  identified : receipt.request.headers.get? "X-MCP-Delivery"=
    some (deliveryId receipt.event.payload)
  /-- The signature is that of the body, under the secret of the endpoint. -/
  signed : receipt.request.headers.get? "X-MCP-Signature-256"=
    if signingSecret w receipt.config="" then none
    else some (.str (sign w receipt.request.body (signingSecret w receipt.config)))

/-- A traced receipt is authentic. -/
theorem Traced.authentic {configured : List WebhookConfig→Prop} (h : Traced configured w s)
    {receipt : Receipt} (hr : receipt∈s.received) : Authentic w s receipt := by
  obtain ⟨hentrusted,hbuilt⟩ := h.received receipt hr
  obtain ⟨time,-,-,hrequest⟩ := id hbuilt
  refine ⟨hentrusted,hbuilt,?_,?_,?_,?_,?_⟩
  all_goals rw [hrequest]
  · rfl
  · rfl
  · exact header_eventType w time receipt.config receipt.event.eventType receipt.event.payload
  · exact header_deliveryId w time receipt.config receipt.event.eventType receipt.event.payload
  · exact header_signature w time receipt.config receipt.event.eventType receipt.event.payload

/-- A process starts without events. -/
theorem numbered_boot (configs : List WebhookConfig) (now : ℚ≥0) :
    Numbered (boot configs now) := by
  refine ⟨Nat.zero_lt_one,?_,rfl,?_,?_,?_,?_⟩
  all_goals exact fun _ h => absurd h List.not_mem_nil

/-- Every reached state is traced to the configurations of its run. -/
theorem traced_run (w : DeliveryWorld) (configs : List WebhookConfig) (now : ℚ≥0)
    (actions : List WebhookAction) :
    Traced (fun webhooks => webhooks=configs ∨ .close webhooks∈actions) w
      (final (WebhookDispatcher.step w) (boot configs now) actions) := by
  have hboot : Traced (fun webhooks => webhooks=configs ∨ .close webhooks∈actions) w
      (boot configs now) := by
    refine ⟨.inl rfl,?_,?_,?_,?_⟩
    all_goals exact fun _ h => absurd h List.not_mem_nil
  have hconfigured : Meets (WebhookDispatcher.step w)
      (fun _ => Configured (fun webhooks => webhooks=configs ∨ .close webhooks∈actions))
      (boot configs now) actions := by
    refine meets_of_forall (fun _ a ha => ?_) _
    cases a with
    | close webhooks => exact .inr ha
    | tick elapsed => trivial
    | dispatch eventType data => trivial
    | attempt i => trivial
    | respond i outcome => trivial
    | install i => trivial
  exact meets_invariant (I:=Traced (fun webhooks => webhooks=configs ∨ .close webhooks∈actions) w)
    (fun s a hs ha => traced_step hs ha) hboot hconfigured

/-- Every reached state stays within its allowances. -/
theorem budgeted_run (w : DeliveryWorld) (configs : List WebhookConfig) (now : ℚ≥0)
    (actions : List WebhookAction) :
    Numbered (final (WebhookDispatcher.step w) (boot configs now) actions) ∧
      Budgeted (final (WebhookDispatcher.step w) (boot configs now) actions) := by
  have hboot : Budgeted (boot configs now) :=
    ⟨List.nodup_nil,fun _ h => absurd h List.not_mem_nil,fun _ _ => Nat.zero_le _⟩
  exact final_invariant (I:=fun s => Numbered s ∧ Budgeted s)
    (fun s a h => ⟨numbered_step h.1 a,budgeted_step h.2 h.1 a⟩)
    ⟨numbered_boot configs now,hboot⟩ actions

/-- Whatever the dispatches, deliveries, failures and reloads: every request
that reached an endpoint is authentic, its endpoint stems from a configuration
of the run, and an event sends each endpoint no more requests than the
endpoint's attempts allow for each time that it is listed. -/
theorem receipts_authentic (w : DeliveryWorld) (configs : List WebhookConfig) (now : ℚ≥0)
    (actions : List WebhookAction) :
    let s := final (WebhookDispatcher.step w) (boot configs now) actions
    (∀ receipt∈s.received, Authentic w s receipt ∧
      (receipt.event.endpoints=configs ∨ .close receipt.event.endpoints∈actions)) ∧
    (s.accepted.map key).Nodup ∧
    ∀ event∈s.accepted, ∀ cfg,
      reached (key event) cfg s.received≤cfg.maxRetries.toNat*copies event cfg := by
  intro s
  have htraced := traced_run w configs now actions
  obtain ⟨-,hbudgeted⟩ := budgeted_run w configs now actions
  refine ⟨fun receipt hr => ⟨htraced.authentic hr,?_⟩,hbudgeted.apart,fun event he cfg => ?_⟩
  · exact (htraced.events _ (htraced.received receipt hr).1.accepted).1
  · have hpaid := hbudgeted.paid (key event) cfg
    rw [called_accepted cfg hbudgeted.apart he] at hpaid
    exact (Nat.le_add_right _ _).trans hpaid

end Runs

end McpGateway.WebhookReceipts
