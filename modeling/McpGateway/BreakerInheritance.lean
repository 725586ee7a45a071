import Mathlib
import McpGateway.PyDict
import McpGateway.StepRun
import McpGateway.GatewaySettings
import McpGateway.CircuitBreakers
import McpGateway.ToolNaming
import McpGateway.ServerRegistry
import McpGateway.BreakerRuns
import McpGateway.RegistryRuns

/-!
# Breakers across registrations

A client receives the breaker that the table holds under its server id, and
the table is not changed by removals. Clients of one id, of whatever
registration, therefore act on one breaker, and its state is determined by
their operations alone.
-/

namespace McpGateway.BreakerInheritance

open PyDict StepRun GatewaySettings CircuitBreakers ToolNaming ServerRegistry BreakerRuns
open RegistryRuns (plainServer)

/-- A registry with the clients it has built and their calls. -/
structure ClientCalls where
  /-- Current registry. -/
  registry : Registry
  /-- Every client built so far; those of removed entries may still be in use. -/
  clients : List ClientRef := []
  /-- The client of each admitted call that has not reported. -/
  outstanding : List ClientRef := []

/-- A registration, a removal, or an operation of a client. -/
inductive ClientAction where
  /-- `register`, without its synchronization. -/
  | register (server : UpstreamServer)
  /-- `deregister`. -/
  | deregister (serverId : String)
  /-- A client asks for the admission of a call or a synchronization. -/
  | beforeCall (client : ℕ) (time : ℚ)
  /-- An admitted one reports its outcome. -/
  | report (index : ℕ) (succeeded : Bool) (time : ℚ)

/-- `_cb` of a client: none when breakers are disabled. -/
def breakerOf (reg : Registry) (serverId : String) : Option CircuitBreaker :=
  if reg.cbRegistry.policy.enabled=true then reg.cbRegistry.breakers.get? serverId else none

/-- `_gate`: without a breaker every call passes. -/
def passes (reg : Registry) (client : ClientRef) (time : ℚ) : Bool :=
  match breakerOf reg client.server.id with
  | none => true
  | some breaker =>
    match breaker.beforeCall time with
    | .ok _ => true
    | .error _ => false

/-- The registry after an operation on the breaker of a client. -/
def operate (reg : Registry) (client : ClientRef) (a : TimedOperation) : Registry :=
  if reg.cbRegistry.policy.enabled=true then
    {reg with cbRegistry := {reg.cbRegistry with
      breakers := reg.cbRegistry.breakers.modify client.server.id (fun b => BreakerRuns.step b a)}}
  else reg

/-- The operation that reports an outcome. -/
def outcome (succeeded : Bool) (time : ℚ) : TimedOperation :=
  ⟨time,if succeeded=true then .onSuccess else .onFailure⟩

/-- One action, with the operation on a breaker that it makes. -/
def observe (s : ClientCalls) : ClientAction→ClientCalls×Option (String×TimedOperation)
  | .register server =>
    ({s with
      registry := s.registry.register server
      clients := s.clients++[⟨s.registry.nextUid,server⟩]},none)
  | .deregister serverId => ({s with registry := s.registry.deregister serverId},none)
  | .beforeCall index time =>
    match s.clients[index]? with
    | none => (s,none)
    | some client =>
      ({s with
        registry := operate s.registry client ⟨time,.beforeCall⟩
        outstanding := if passes s.registry client time=true then s.outstanding++[client]
          else s.outstanding},some (client.server.id,⟨time,.beforeCall⟩))
  | .report index succeeded time =>
    match s.outstanding[index]? with
    | none => (s,none)
    | some client =>
      ({s with
        registry := operate s.registry client (outcome succeeded time)
        outstanding := s.outstanding.eraseIdx index},
        some (client.server.id,outcome succeeded time))

/-- The state after an action. -/
def step (s : ClientCalls) (a : ClientAction) : ClientCalls := (observe s a).1

/-- An empty registry with these thresholds. -/
def start (policy : CircuitBreakerPolicy) : ClientCalls :=
  ⟨{cbRegistry := {policy := policy}},[],[]⟩

/-- Operations of the clients of one id, in order. -/
def operationsOn (serverId : String) (h : List (String×TimedOperation)) : List TimedOperation :=
  h.filterMap (fun e => if e.1=serverId then some e.2 else none)

/-- A new breaker of a table. -/
def newBreaker (policy : CircuitBreakerPolicy) (serverId : String) : CircuitBreaker :=
  new serverId policy.failureThreshold policy.recoveryTimeout policy.probeSuccesses

/-- One more operation counts for its own id. -/
theorem operationsOn_append (serverId : String) (h : List (String×TimedOperation))
    (e : String×TimedOperation) : operationsOn serverId (h++[e])=
      operationsOn serverId h++if e.1=serverId then [e.2] else [] := by
  unfold operationsOn
  rw [List.filterMap_append]
  split <;> simp [*]

/-- Every breaker of the table is the one that the operations on its id make
of a new one, and every client has one. -/
structure Shared (policy : CircuitBreakerPolicy) (s : ClientCalls)
    (h : List (String×TimedOperation)) : Prop where
  /-- The thresholds are fixed. -/
  thresholds : s.registry.cbRegistry.policy=policy
  /-- Each breaker follows the operations on its id. -/
  followed : ∀ sid b, s.registry.cbRegistry.breakers.get? sid=some b→
    b=final BreakerRuns.step (newBreaker policy sid) (operationsOn sid h)
  /-- Without a breaker there were no operations. -/
  untouched : ∀ sid, s.registry.cbRegistry.breakers.get? sid=none→ operationsOn sid h=[]
  /-- Clients have breakers. -/
  clients : ∀ client∈s.clients, ∃ b,
    s.registry.cbRegistry.breakers.get? client.server.id=some b
  /-- Calls are made by clients. -/
  callers : ∀ client∈s.outstanding, client∈s.clients

/-- Nothing is registered yet. -/
theorem shared_start (policy : CircuitBreakerPolicy) : Shared policy (start policy) [] where
  thresholds := rfl
  followed _ _ h := by cases h
  untouched _ _ := rfl
  clients _ h := absurd h List.not_mem_nil
  callers _ h := absurd h List.not_mem_nil

section Steps

variable {policy : CircuitBreakerPolicy} {s : ClientCalls} {h : List (String×TimedOperation)}

/-- A registration gives its id a breaker and leaves every existing one. -/
theorem register_breakers (he : policy.enabled=true) (hs : Shared policy s h)
    (server : UpstreamServer) (sid : String) :
    (s.registry.register server).cbRegistry.breakers.get? sid=
      if server.id=sid then
        some ((s.registry.cbRegistry.breakers.get? sid).getD (newBreaker policy sid))
      else s.registry.cbRegistry.breakers.get? sid := by
  have htable : (s.registry.register server).cbRegistry=
      (s.registry.cbRegistry.get server.id).1 := by
    exact if_pos (hs.thresholds.symm ▸ he)
  rw [htable]
  unfold CircuitBreakerRegistry.get
  cases hb : s.registry.cbRegistry.breakers.get? server.id with
  | some b =>
    dsimp only
    split
    · rename_i hid
      rw [←hid,hb,Option.getD_some]
    · rfl
  | none =>
    dsimp only
    rw [Dict.get?_set]
    split
    · rename_i hid
      rw [←hid,hb,Option.getD_none,hs.thresholds]
      rfl
    · rfl

/-- A registration keeps the breakers shared. -/
theorem shared_register (he : policy.enabled=true) (hs : Shared policy s h)
    (server : UpstreamServer) : Shared policy (observe s (.register server)).1 h := by
  have hbreakers := register_breakers he hs server
  have hpolicy : (s.registry.register server).cbRegistry.policy=s.registry.cbRegistry.policy := by
    have htable : (s.registry.register server).cbRegistry=
        (s.registry.cbRegistry.get server.id).1 := if_pos (hs.thresholds.symm ▸ he)
    rw [htable]
    unfold CircuitBreakerRegistry.get
    split <;> rfl
  refine ⟨hpolicy.trans hs.thresholds,?_,?_,?_,?_⟩
  · intro sid b hb
    have hread := (hbreakers sid).symm.trans hb
    split at hread
    · cases hold : s.registry.cbRegistry.breakers.get? sid with
      | some old =>
        rw [hold] at hread
        cases hread
        exact hs.followed sid _ hold
      | none =>
        rw [hold] at hread
        cases hread
        rw [hs.untouched sid hold]
        rfl
    · exact hs.followed sid b hread
  · intro sid hb
    have hread := (hbreakers sid).symm.trans hb
    split at hread
    · cases hread
    · exact hs.untouched sid hread
  · intro client hc
    rcases List.mem_append.mp hc with hc | hc
    · obtain ⟨b,hb⟩ := hs.clients client hc
      refine ⟨b,(hbreakers _).trans ?_⟩
      split
      · rw [hb,Option.getD_some]
      · exact hb
    · cases List.mem_singleton.mp hc
      exact ⟨_,(hbreakers server.id).trans (if_pos rfl)⟩
  · exact fun client hc => List.mem_append_left _ (hs.callers client hc)

/-- An operation of a client moves the breaker of its id. -/
theorem operate_breakers (he : policy.enabled=true) (hs : Shared policy s h) (client : ClientRef)
    (a : TimedOperation) (sid : String) :
    (operate s.registry client a).cbRegistry.breakers.get? sid=
      if client.server.id=sid then
        (s.registry.cbRegistry.breakers.get? sid).map (fun b => BreakerRuns.step b a)
      else s.registry.cbRegistry.breakers.get? sid := by
  rw [operate,if_pos (hs.thresholds.symm ▸ he)]
  refine (Dict.get?_modify s.registry.cbRegistry.breakers client.server.id sid _).trans ?_
  by_cases hid : client.server.id=sid
  · rw [if_pos hid,if_pos hid,hid]
  · rw [if_neg hid,if_neg hid]

/-- An operation of a client keeps the breakers shared. -/
theorem shared_operate (he : policy.enabled=true) (hs : Shared policy s h) {client : ClientRef}
    (hc : client∈s.clients) (a : TimedOperation) {outstanding : List ClientRef}
    (ho : ∀ c∈outstanding, c∈s.clients) :
    Shared policy {s with registry := operate s.registry client a,outstanding := outstanding}
      (h++[(client.server.id,a)]) := by
  have hbreakers := operate_breakers he hs client a
  have hpolicy : (operate s.registry client a).cbRegistry.policy=policy := by
    rw [operate,if_pos (hs.thresholds.symm ▸ he)]
    exact hs.thresholds
  refine ⟨hpolicy,?_,?_,?_,ho⟩
  · intro sid b hb
    have hread := (hbreakers sid).symm.trans hb
    rw [operationsOn_append]
    split at hread
    · rename_i hid
      obtain ⟨old,hold,rfl⟩ := Option.map_eq_some_iff.mp hread
      rw [if_pos hid,final,List.foldl_append,hs.followed sid old hold]
      rfl
    · rename_i hid
      rw [if_neg hid,List.append_nil]
      exact hs.followed sid b hread
  · intro sid hb
    have hread := (hbreakers sid).symm.trans hb
    rw [operationsOn_append]
    split at hread
    · rename_i hid
      obtain ⟨b,hclient⟩ := hs.clients client hc
      rw [hid] at hclient
      rw [hclient] at hread
      cases hread
    · rename_i hid
      rw [if_neg hid,List.append_nil]
      exact hs.untouched sid hread
  · intro other hother
    obtain ⟨b,hb⟩ := hs.clients other hother
    by_cases hid : client.server.id=other.server.id
    · exact ⟨_,(hbreakers _).trans ((if_pos hid).trans (by rw [hb]; rfl))⟩
    · exact ⟨b,(hbreakers _).trans ((if_neg hid).trans hb)⟩

/-- A removal keeps the breakers shared. -/
theorem shared_deregister (hs : Shared policy s h) (serverId : String) :
    Shared policy (step s (.deregister serverId)) h := by
  obtain ⟨-,-,htable,-⟩ := deregister_frame s.registry serverId
  have hsame : (step s (.deregister serverId)).registry.cbRegistry=s.registry.cbRegistry := htable
  refine ⟨?_,?_,?_,?_,hs.callers⟩
  · rw [hsame]
    exact hs.thresholds
  · rw [hsame]
    exact hs.followed
  · rw [hsame]
    exact hs.untouched
  · rw [hsame]
    exact hs.clients

/-- Every action keeps the breakers shared. -/
theorem shared_step (he : policy.enabled=true) (hs : Shared policy s h) (a : ClientAction) :
    Shared policy (observe s a).1 (h++(observe s a).2.toList) := by
  cases a with
  | register server =>
    have hsame : h++(observe s (.register server)).2.toList=h := List.append_nil h
    rw [hsame]
    exact shared_register he hs server
  | deregister serverId =>
    have hsame : h++(observe s (.deregister serverId)).2.toList=h := List.append_nil h
    rw [hsame]
    exact shared_deregister hs serverId
  | beforeCall index time =>
    cases hi : s.clients[index]? with
    | none =>
      simp only [observe,hi,Option.toList_none,List.append_nil]
      exact hs
    | some client =>
      have hc := List.mem_of_getElem? hi
      simp only [observe,hi]
      refine shared_operate he hs hc _ ?_
      split
      · intro c hmem
        rcases List.mem_append.mp hmem with hmem | hmem
        · exact hs.callers c hmem
        · exact List.mem_singleton.mp hmem ▸ hc
      · exact hs.callers
  | report index succeeded time =>
    cases hi : s.outstanding[index]? with
    | none =>
      simp only [observe,hi,Option.toList_none,List.append_nil]
      exact hs
    | some client =>
      have hc := hs.callers client (List.mem_of_getElem? hi)
      simp only [observe,hi]
      exact shared_operate he hs hc _ fun c hmem => hs.callers c (List.mem_of_mem_eraseIdx hmem)

end Steps

/-- After every run the breakers are shared. -/
theorem shared_run {policy : CircuitBreakerPolicy} (he : policy.enabled=true)
    (actions : List ClientAction) :
    Shared policy (run observe (start policy) actions).1 (run observe (start policy) actions).2 :=
  run_invariant (J:=Shared policy) (fun _ _ a hs => shared_step he hs a) (shared_start policy)
    actions

/-- The breaker that the clients of an id have left: a new one, changed by
their operations as the module documentation says. -/
def left (policy : CircuitBreakerPolicy) (serverId : String) (h : List (String×TimedOperation)) :
    CircuitBreaker :=
  final BreakerRuns.step (newBreaker policy serverId) (operationsOn serverId h)

/-- An id is removed and registered again, with any actions before and in
between. -/
def reregistration (before between : List ClientAction) (server : UpstreamServer) :
    List ClientAction := before++.deregister server.id::between++[.register server]

/-- A registration continues a breaker. -/
structure Inherits (s : ClientCalls) (server : UpstreamServer) (b : CircuitBreaker) : Prop where
  /-- The new entry's client has this breaker. -/
  inherited : breakerOf s.registry server.id=some b
  /-- Its first synchronization is refused exactly during the quarantine of
  the breaker. -/
  attempted : ∀ client time, client.server.id=server.id→
    (passes s.registry client time=false ↔ b.state=.isOpen ∧ 0<remaining b time)
  /-- Outcomes of calls that earlier clients have outstanding change the
  breaker like those of new ones. -/
  late : ∀ (index : ℕ) client succeeded time, s.outstanding[index]?=some client→
    client.server.id=server.id→
    breakerOf (step s (.report index succeeded time)).registry server.id=
      some (BreakerRuns.step b (outcome succeeded time))

/-- A refusal is the quarantine of an open breaker. -/
theorem beforeCall_refused_iff (b : CircuitBreaker) (time : ℚ) :
    (∃ error, b.beforeCall time=.error error) ↔ b.state=.isOpen ∧ 0<remaining b time := by
  constructor
  · rintro ⟨error,he⟩
    by_cases hs : b.state=.isOpen
    · refine ⟨hs,?_⟩
      by_contra hr
      rw [beforeCall_probe hs (not_lt.mp hr)] at he
      cases he
    · have hpass : b.beforeCall time=.ok b := if_neg hs
      rw [hpass] at he
      cases he
  · rintro ⟨hs,hr⟩
    exact beforeCall_refused hs hr

section Inheritance

variable {policy : CircuitBreakerPolicy} {s : ClientCalls} {h : List (String×TimedOperation)}

/-- With breakers enabled, the breaker of a client is that of the table. -/
theorem breakerOf_shared (he : policy.enabled=true) (hs : Shared policy s h) (sid : String) :
    breakerOf s.registry sid=s.registry.cbRegistry.breakers.get? sid :=
  if_pos (hs.thresholds.symm ▸ he)

/-- A registered id has the breaker that its clients have left. -/
theorem inherits_of_registered (he : policy.enabled=true) (hs : Shared policy s h)
    {server : UpstreamServer} {uid : ℕ} (hc : ⟨uid,server⟩∈s.clients) :
    Inherits s server (left policy server.id h) := by
  obtain ⟨b,hb⟩ := hs.clients _ hc
  have hleft : b=left policy server.id h := hs.followed server.id b hb
  have hinherited := (breakerOf_shared he hs server.id).trans hb
  rw [hleft] at hb hinherited
  refine ⟨hinherited,?_,?_⟩
  · intro client time hid
    rw [passes,hid,hinherited,←beforeCall_refused_iff]
    dsimp only
    cases (left policy server.id h).beforeCall time with
    | ok admitted => simp
    | error error => simp
  · intro index client succeeded time hi hid
    have hclient := hs.callers client (List.mem_of_getElem? hi)
    have hreported := shared_operate he hs hclient (outcome succeeded time)
      (fun c hmem => hs.callers c (List.mem_of_mem_eraseIdx (l:=s.outstanding) (i:=index) hmem))
    have hstep : step s (.report index succeeded time)=
        {s with
          registry := operate s.registry client (outcome succeeded time)
          outstanding := s.outstanding.eraseIdx index} := by
      simp only [step,observe,hi]
    have hmoved := operate_breakers he hs client (outcome succeeded time) server.id
    rw [if_pos hid,hb] at hmoved
    rw [hstep,breakerOf_shared he hreported]
    exact hmoved

end Inheritance

/-- In every run, an id that is removed and registered again keeps its
breaker: the new entry has the one that all clients of the id have left, its
first synchronization is refused exactly during that breaker's quarantine,
and late outcomes of earlier clients act on it. -/
theorem breaker_inherited {policy : CircuitBreakerPolicy} (he : policy.enabled=true)
    (before between : List ClientAction) (server : UpstreamServer) :
    Inherits (run observe (start policy) (reregistration before between server)).1 server
      (left policy server.id
        (run observe (start policy) (reregistration before between server)).2) := by
  have hs := shared_run he (reregistration before between server)
  have hlast : (run observe (start policy) (reregistration before between server)).1=
      step (run observe (start policy) (before++.deregister server.id::between)).1
        (.register server) := by
    rw [run_state,run_state,reregistration,final,List.foldl_append]
    rfl
  rw [hlast] at hs ⊢
  exact inherits_of_registered he hs (List.mem_append_right _ List.mem_cons_self)

/-- Two calls of `pg` are admitted and one fails, which opens its breaker. -/
def outage : List ClientAction :=
  [.register (plainServer "pg"),.beforeCall 0 0,.beforeCall 0 0,.report 0 false 0]

theorem breaker_inherited_outage :
    Inherits (run observe (start {failureThreshold := 1})
        (reregistration outage [] (plainServer "pg"))).1 (plainServer "pg")
      (left {failureThreshold := 1} "pg" (run observe (start {failureThreshold := 1})
        (reregistration outage [] (plainServer "pg"))).2) :=
  breaker_inherited rfl outage [] (plainServer "pg")

/-- The server that replaces it finds the breaker open, its first
synchronization is refused, and the failure of the old client's other call is
counted. -/
theorem breaker_outlives :
    ((breakerOf (run observe (start {failureThreshold := 1})
        (reregistration outage [] (plainServer "pg"))).1.registry "pg").map
      (fun b => (b.state,b.failures)))=some (.isOpen,1) ∧
    passes (run observe (start {failureThreshold := 1})
      (reregistration outage [] (plainServer "pg"))).1.registry ⟨1,plainServer "pg"⟩ 1=false ∧
    ((breakerOf (step (run observe (start {failureThreshold := 1})
        (reregistration outage [] (plainServer "pg"))).1 (.report 0 false 1)).registry "pg").map
      (fun b => b.failures))=some 2 :=
  ⟨by decide +kernel,by decide +kernel,by decide +kernel⟩

end McpGateway.BreakerInheritance
