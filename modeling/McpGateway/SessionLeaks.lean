import Mathlib
import McpGateway.StepRun
import McpGateway.TaskPool
import McpGateway.JsonValue
import McpGateway.GatewaySettings
import McpGateway.CircuitBreakers
import McpGateway.BreakerRuns
import McpGateway.RegistryRuns
import McpGateway.PyRuntime
import McpGateway.AuthProviders
import McpGateway.McpClient
import McpGateway.ClientRuns
import McpGateway.AgentAttribution

/-!
# Leaked sessions

An opening enters its transport and its session context on a stack of its
own, which the client gets only when `initialize` has answered. At most one
operation opens or closes at a time. The contexts that are entered are those
of the client's stack, between openings and closings, exactly when no opening
ends while its own stack has contexts.
-/

namespace McpGateway.SessionLeaks

open StepRun TaskPool JsonValue GatewaySettings CircuitBreakers RegistryRuns PyRuntime AuthProviders
open McpClient ClientRuns AgentAttribution
open BreakerRuns (TimedOperation)

section Definitions

/-- The operations that are opening or closing. -/
def holders (s : ClientRun) : List ClientTask := s.tasks.filter (fun task => task.phase.holdsLock)

/-- While nothing is opened or closed, the entered contexts are those of the
client's stack, and none are when it has no stack. -/
structure Held (s : ClientRun) : Prop where
  /-- Entered contexts are held, and held ones are entered. -/
  held : s.locked=false→∀ context, context∈s.live ↔ context∈s.client.stack.getD []
  /-- Without a stack nothing is entered. -/
  none : s.locked=false→s.client.stack=none→s.live=[]

/-- The opening has entered a context on its own stack. -/
def Entered : Phase→Prop
  | .handshaking _ _ => True
  | .initializing _ _ => True
  | _ => False

/-- No opening ends, by an exception or by cancellation, after it has entered
its transport. -/
def ClosesOpening (s : ClientRun) : ClientAction→Prop
  | .progress i (.error _) => ∀ task, s.tasks[i]?=some task→¬Entered task.phase
  | .cancel i => ∀ task, s.tasks[i]?=some task→¬Entered task.phase
  | _ => True

/-- Between openings and closings. -/
structure Idle (s : ClientRun) : Prop where
  /-- The client's stack holds what is entered. -/
  held : s.live=s.client.stack.getD []
  /-- Without a session the stack is empty. -/
  dropped : s.client.session=none→s.client.stack.getD []=[]

/-- During an opening or closing: a closing still holds everything, an opening
holds what it entered itself. -/
def Custody (s : ClientRun) : Phase→Prop
  | .closing _ => s.live=s.client.stack.getD []
  | .handshaking _ contexts => s.client.stack.getD []=[] ∧ s.live=contexts ∧ contexts≠[]
  | .initializing _ contexts => s.client.stack.getD []=[] ∧ s.live=contexts ∧ contexts≠[]
  | _ => s.client.stack.getD []=[] ∧ s.live=[]

/-- At most one operation opens or closes, without a session, and it or the
client holds what is entered. -/
def Accounted (s : ClientRun) : Prop :=
  match holders s with
  | [] => Idle s
  | [task] => s.client.session=none ∧ Custody s task.phase
  | _ => False

end Definitions

section Parts

variable {s s' : ClientRun} {i : ℕ} {task : ClientTask}

/-- The lock is free when nobody opens or closes. -/
theorem locked_iff (s : ClientRun) : s.locked=false ↔ holders s=[] := by
  unfold ClientRun.locked holders
  rw [List.any_eq_false,List.filter_eq_nil_iff]

/-- With nobody opening or closing, what is entered is accounted for when the
client holds it. -/
theorem accounted_idle (hh : holders s=[]) : Accounted s ↔ Idle s := by
  unfold Accounted
  rw [hh]

/-- What is entered is held in an accounted state. -/
theorem Accounted.holds (h : Accounted s) : Held s := by
  refine ⟨fun hl context => ?_,fun hl hstack => ?_⟩
  · have hidle := (accounted_idle ((locked_iff s).mp hl)).mp h
    rw [hidle.held]
  · have hidle := (accounted_idle ((locked_iff s).mp hl)).mp h
    rw [hidle.held,hstack]
    rfl

/-- Two states with the same session, stack and entered contexts. -/
structure SameCustody (s s' : ClientRun) : Prop where
  /-- The session. -/
  session : s'.client.session=s.client.session
  /-- The stack. -/
  stack : s'.client.stack=s.client.stack
  /-- What is entered. -/
  live : s'.live=s.live

/-- They are idle together. -/
theorem SameCustody.idle (h : SameCustody s s') (hi : Idle s) : Idle s' := by
  refine ⟨?_,fun hs => ?_⟩
  · rw [h.live,h.stack]
    exact hi.held
  · rw [h.stack]
    exact hi.dropped (h.session ▸ hs)

/-- They have the same custody. -/
theorem SameCustody.custody (h : SameCustody s s') {phase : Phase} (hc : Custody s phase) :
    Custody s' phase := by
  unfold Custody at hc ⊢
  rw [h.live,h.stack]
  exact hc

/-- They are accounted together when the same operations open or close. -/
theorem SameCustody.accounted (h : SameCustody s s') (hh : holders s'=holders s)
    (ha : Accounted s) : Accounted s' := by
  unfold Accounted at ha ⊢
  rw [hh]
  split at ha
  · exact h.idle ha
  · exact ⟨h.session.trans ha.1,h.custody ha.2⟩
  · exact ha

/-- The operation at an index ends or goes on without the lock, and only that. -/
structure Releases (s : ClientRun) (i : ℕ) (s' : ClientRun) : Prop where
  /-- Session, stack and contexts are kept. -/
  same : SameCustody s s'
  /-- The operation does not hold the lock. -/
  tasks : s'.tasks=s.tasks.eraseIdx i ∨
    ∃ task', task'.phase.holdsLock=false ∧ s'.tasks=s.tasks.set i task'

/-- An operation without the lock releases nothing. -/
theorem Releases.holders_free (h : Releases s i s') (ht : s.tasks[i]?=some task)
    (hf : task.phase.holdsLock=false) : holders s'=holders s := by
  unfold holders
  rcases h.tasks with htasks | ⟨task',hf',htasks⟩
  · rw [htasks]
    exact filter_erase_neutral ht hf
  · rw [htasks]
    exact filter_set_neutral ht hf hf'

/-- The only operation with the lock releases it. -/
theorem Releases.holders_held (h : Releases s i s') (ht : s.tasks[i]?=some task)
    (hl : task.phase.holdsLock=true) {other : ClientTask} (honly : holders s=[other]) :
    holders s'=[] := by
  obtain ⟨-,herase,hset⟩ := filter_only ht hl honly
  unfold holders
  rcases h.tasks with htasks | ⟨task',hf',htasks⟩
  · rw [htasks]
    exact herase
  · rw [htasks,hset task',if_neg (by rw [hf']; exact Bool.noConfusion)]

/-- The end of an operation. -/
theorem releases_finish (hs : SameCustody s s') (htasks : s'.tasks=s.tasks)
    (result : OperationResult) : Releases s i (finish s' i task result).1 :=
  ⟨⟨hs.session,hs.stack,hs.live⟩,.inl (congrArg (List.eraseIdx · i) htasks)⟩

/-- An operation that goes on without the lock. -/
theorem releases_move (hs : SameCustody s s') (htasks : s'.tasks=s.tasks) {phase : Phase}
    (hp : phase.holdsLock=false) : Releases s i (move s' i task phase) :=
  ⟨⟨hs.session,hs.stack,hs.live⟩,.inr ⟨_,hp,congrArg (List.set · i _) htasks⟩⟩

/-- The end of an attempt. -/
theorem releases_endAttempt (hs : SameCustody s s') (htasks : s'.tasks=s.tasks)
    (result : Except ClientException OperationResult) :
    Releases s i (endAttempt s' i task result).1 := by
  have hok : ∀ calls, SameCustody s {s' with client := s'.client.onOk,breakerCalls := calls} :=
    fun _ => ⟨hs.session,hs.stack,hs.live⟩
  have herr : ∀ calls, SameCustody s
      {s' with client := s'.client.onErr s'.clock,breakerCalls := calls} :=
    fun _ => ⟨hs.session,hs.stack,hs.live⟩
  unfold endAttempt
  split
  · split
    · exact releases_finish hs htasks _
    · exact releases_finish (hok _) htasks _
  · split
    · exact releases_move hs htasks rfl
    · split
      · exact releases_move hs htasks rfl
      · dsimp only
        split
        · exact releases_finish (herr _) htasks _
        · exact releases_move (herr _) htasks rfl

/-- What follows a reset. -/
theorem releases_proceed (hs : SameCustody s s') (htasks : s'.tasks=s.tasks) (next : AfterReset) :
    Releases s i (proceed s' i task next).1 := by
  cases next with
  | retry => exact releases_move hs htasks rfl
  | ended result => exact releases_finish hs htasks result

/-- A state has its own custody. -/
theorem SameCustody.refl (s : ClientRun) : SameCustody s s := ⟨rfl,rfl,rfl⟩

/-- A part that releases nothing. -/
theorem accounted_free (h : Accounted s) (ht : s.tasks[i]?=some task)
    (hf : task.phase.holdsLock=false) (hr : Releases s i s') : Accounted s' :=
  hr.same.accounted (hr.holders_free ht hf) h

/-- The custody of the operation that holds the lock. -/
theorem accounted_holder (h : Accounted s) (ht : s.tasks[i]?=some task)
    (hl : task.phase.holdsLock=true) :
    holders s=[task] ∧ s.client.session=none ∧ Custody s task.phase := by
  have hm : task∈holders s := List.mem_filter.mpr ⟨List.mem_of_getElem? ht,hl⟩
  unfold Accounted at h
  split at h
  · rename_i hnone
    rw [hnone] at hm
    exact absurd hm List.not_mem_nil
  · rename_i other hone
    rw [hone] at hm
    cases List.mem_singleton.mp hm
    exact ⟨hone,h⟩
  · exact h.elim

/-- The holder of the lock goes on with it. -/
theorem accounted_keeps (h : Accounted s) (ht : s.tasks[i]?=some task)
    (hl : task.phase.holdsLock=true) {task' : ClientTask} (htasks : s'.tasks=s.tasks.set i task')
    (hl' : task'.phase.holdsLock=true) (hsession : s'.client.session=none)
    (hc : Custody s' task'.phase) : Accounted s' := by
  obtain ⟨hone,-,-⟩ := accounted_holder h ht hl
  obtain ⟨-,-,hset⟩ := filter_only ht hl hone
  have hholders : holders s'=[task'] := by
    unfold holders
    rw [htasks,hset task',if_pos hl']
  unfold Accounted
  rw [hholders]
  exact ⟨hsession,hc⟩

/-- The holder of the lock releases it, after a change of the client. -/
theorem accounted_releases (changed : ClientRun) (h : Accounted s) (ht : s.tasks[i]?=some task)
    (hl : task.phase.holdsLock=true) (htasks : changed.tasks=s.tasks)
    (hr : Releases changed i s') (hi : Idle changed) : Accounted s' := by
  obtain ⟨hone,-,-⟩ := accounted_holder h ht hl
  have hone' : holders changed=[task] := by
    unfold holders at hone ⊢
    rw [htasks]
    exact hone
  have ht' : changed.tasks[i]?=some task := by
    rw [htasks]
    exact ht
  exact (accounted_idle (hr.holders_held ht' hl hone')).mpr (hr.same.idle hi)

/-- An operation takes the free lock. -/
theorem accounted_takes (hfree : holders s=[]) (ht : s.tasks[i]?=some task)
    {task' : ClientTask} (htasks : s'.tasks=s.tasks.set i task') (hl' : task'.phase.holdsLock=true)
    (hsession : s'.client.session=none) (hc : Custody s' task'.phase) : Accounted s' := by
  have hholders : holders s'=[task'] := by
    unfold holders
    rw [htasks]
    exact filter_set_first ht hfree hl'
  unfold Accounted
  rw [hholders]
  exact ⟨hsession,hc⟩

/-- An opening that has entered nothing yet leaves nothing behind. -/
theorem idle_of_empty (hstack : s.client.stack.getD []=[]) (hlive : s.live=[]) : Idle s :=
  ⟨hlive.trans hstack.symm,fun _ => hstack⟩

/-- Exiting a stack that holds everything leaves nothing entered. -/
theorem exited_live (hlive : s.live=s.client.stack.getD []) (stack : Option (List Context)) :
    (exitStack s stack).live=[] := by
  refine List.filter_eq_nil_iff.mpr fun context hc => ?_
  rw [hlive] at hc
  simp only [hc,not_true,decide_false]
  exact Bool.noConfusion

end Parts

section Steps

variable {s : ClientRun} {i : ℕ} {task : ClientTask}

/-- The lock is granted. -/
theorem accounted_granted (h : Accounted s) (hfree : holders s=[])
    (ht : s.tasks[i]?=some task) : Accounted (granted s i task).1 := by
  have hidle := (accounted_idle hfree).mp h
  unfold granted
  split
  · rename_i hp
    have hf : task.phase.holdsLock=false := by
      rw [hp]
      rfl
    split
    · exact accounted_free h ht hf (releases_move (SameCustody.refl s) rfl rfl)
    · rename_i hsession
      have hstack := hidle.dropped hsession
      exact accounted_takes hfree ht rfl rfl hsession ⟨hstack,hidle.held.trans hstack⟩
  · rename_i next hp
    have hf : task.phase.holdsLock=false := by
      rw [hp]
      rfl
    dsimp only
    split
    · rename_i hstack
      have hfree' : holders {s with client := {s.client with session := none}}=[] := hfree
      have hempty : s.client.stack.getD []=[] := by
        rw [hstack]
        rfl
      have hdropped : Accounted {s with client := {s.client with session := none}} :=
        (accounted_idle hfree').mpr (idle_of_empty hempty (hidle.held.trans hempty))
      exact accounted_free hdropped ht hf (releases_proceed (SameCustody.refl _) rfl next)
    · exact accounted_takes hfree ht rfl rfl rfl hidle.held
  · exact h

/-- Resolving headers touches neither session nor stack. -/
theorem resolveHeaders_custody (c : MCPClient) (w : World) (agentId : Option String) :
    (c.resolveHeaders w agentId).1.session=c.session ∧
      (c.resolveHeaders w agentId).1.stack=c.stack := by
  unfold MCPClient.resolveHeaders
  cases c.authProvider <;> exact ⟨rfl,rfl⟩

/-- Headers are resolved or not. -/
theorem accounted_resolved (h : Accounted s) (ht : s.tasks[i]?=some task) (world : World) :
    Accounted (resolved s i task world).1 := by
  unfold resolved
  split
  · rename_i hp
    have hl : task.phase.holdsLock=true := by
      rw [hp]
      rfl
    obtain ⟨-,hsession,hcustody⟩ := accounted_holder h ht hl
    rw [hp] at hcustody
    obtain ⟨hkept,hstack⟩ := resolveHeaders_custody s.client world task.operation.agentId
    have hempty : (s.client.resolveHeaders world task.operation.agentId).1.stack.getD []=[] := by
      rw [hstack]
      exact hcustody.1
    dsimp only
    split
    · exact accounted_releases
        {s with client := (s.client.resolveHeaders world task.operation.agentId).1} h ht hl rfl
        (releases_endAttempt (SameCustody.refl _) rfl _) (idle_of_empty hempty hcustody.2)
    · exact accounted_keeps h ht hl rfl rfl (hkept.trans hsession) ⟨hempty,hcustody.2⟩
  · exact h

/-- An opening or closing progresses; an opening that fails has entered
nothing. -/
theorem accounted_progressed (h : Accounted s) (ht : s.tasks[i]?=some task)
    (result : Except ClientException Unit)
    (hcloses : ∀ error, result=.error error→¬Entered task.phase) :
    Accounted (progressed s i task result).1 := by
  have hlock : ∀ {phase : Phase}, task.phase=phase→phase.holdsLock=true→
      s.client.session=none ∧ Custody s phase := by
    intro phase hp hl
    have hholder := accounted_holder h ht (by rw [hp]; exact hl)
    rw [hp] at hholder
    exact hholder.2
  have hheld : ∀ {phase : Phase}, task.phase=phase→phase.holdsLock=true→
      task.phase.holdsLock=true := by
    intro phase hp hl
    rw [hp]
    exact hl
  unfold progressed
  split
  · rename_i session error hp
    obtain ⟨-,hstack,hlive⟩ := hlock hp rfl
    exact accounted_releases s h ht (hheld hp rfl) rfl
      (releases_endAttempt (SameCustody.refl s) rfl _) (idle_of_empty hstack hlive)
  · rename_i session _ hp
    obtain ⟨hsession,hstack,hlive⟩ := hlock hp rfl
    refine accounted_keeps h ht (hheld hp rfl) rfl rfl hsession ⟨hstack,?_,List.cons_ne_nil _ _⟩
    exact congrArg (·++[_]) hlive
  · rename_i session contexts error hp
    exact absurd (hp ▸ trivial) (hcloses error rfl)
  · rename_i session contexts _ hp
    obtain ⟨hsession,hstack,hlive,hne⟩ := hlock hp rfl
    refine accounted_keeps h ht (hheld hp rfl) rfl rfl hsession ⟨hstack,?_,?_⟩
    · exact congrArg (·++[_]) hlive
    · exact List.append_ne_nil_of_left_ne_nil hne _
  · rename_i session contexts error hp
    exact absurd (hp ▸ trivial) (hcloses error rfl)
  · rename_i session contexts _ hp
    obtain ⟨-,-,hlive,-⟩ := hlock hp rfl
    exact accounted_releases
      {s with client := {s.client with session := some session,stack := some contexts}} h ht
      (hheld hp rfl) rfl (releases_move (SameCustody.refl _) rfl rfl)
      ⟨hlive,fun hs => (by cases hs)⟩
  · rename_i next hp
    obtain ⟨-,hlive⟩ := hlock hp rfl
    exact accounted_releases (exitStack s none) h ht (hheld hp rfl) rfl
      (releases_proceed (SameCustody.refl _) rfl next) (idle_of_empty rfl (exited_live hlive none))
  · exact h

/-- A request ends. -/
theorem accounted_responded (h : Accounted s) (ht : s.tasks[i]?=some task) (rt : Runtime)
    (reply : Reply) : Accounted (responded s i task rt reply).1 := by
  have hended : ∀ session, task.phase=.requesting session→∀ result,
      Accounted (endAttempt s i task result).1 := by
    intro session hp result
    have hf : task.phase.holdsLock=false := by
      rw [hp]
      rfl
    exact accounted_free h ht hf (releases_endAttempt (SameCustody.refl s) rfl result)
  unfold responded
  split
  · rename_i session error hp
    exact hended session hp _
  · rename_i session _ _ _ result hp _
    split <;> exact hended session hp _
  · rename_i session list hp _
    exact hended session hp _
  · rename_i session hp _
    exact hended session hp _
  · exact h

/-- A pause ends. -/
theorem accounted_woken (h : Accounted s) (ht : s.tasks[i]?=some task) :
    Accounted (woken s i task).1 := by
  unfold woken
  split
  · rename_i hp
    have hf : task.phase.holdsLock=false := by
      rw [hp]
      rfl
    exact accounted_free h ht hf ⟨⟨rfl,rfl,rfl⟩,.inr ⟨_,rfl,rfl⟩⟩
  · exact h

/-- An operation that is cancelled is not an opening that has entered
something. -/
theorem accounted_cancelled (h : Accounted s) (ht : s.tasks[i]?=some task)
    (hcloses : ¬Entered task.phase) : Accounted (cancelled s i task).1 := by
  unfold cancelled
  split
  · rename_i next hp
    have hl : task.phase.holdsLock=true := by
      rw [hp]
      rfl
    obtain ⟨-,-,hcustody⟩ := accounted_holder h ht hl
    rw [hp] at hcustody
    have hlive : s.live=s.client.stack.getD [] := hcustody
    exact accounted_releases (exitStack s (some [])) h ht hl rfl
      (releases_finish (SameCustody.refl _) rfl _) (idle_of_empty rfl (exited_live hlive _))
  · have hreleases : Releases s i (finish s i task .cancelled).1 :=
      releases_finish (SameCustody.refl s) rfl _
    cases hl : task.phase.holdsLock with
    | false => exact accounted_free h ht hl hreleases
    | true =>
      obtain ⟨-,-,hcustody⟩ := accounted_holder h ht hl
      refine accounted_releases s h ht hl rfl hreleases ?_
      rename_i hopen
      cases hp : task.phase with
      | resolving =>
        rw [hp] at hcustody
        exact idle_of_empty hcustody.1 hcustody.2
      | entering session =>
        rw [hp] at hcustody
        exact idle_of_empty hcustody.1 hcustody.2
      | handshaking session contexts => exact absurd (hp ▸ trivial) hcloses
      | initializing session contexts => exact absurd (hp ▸ trivial) hcloses
      | closing next => exact absurd hp (hopen next)
      | _ => rw [hp] at hl; cases hl

/-- A beginning operation holds no lock. -/
theorem accounted_begin (h : Accounted s) (operation : Operation) :
    Accounted (begin s operation).1 := by
  have hadd : ∀ (breaker : Option CircuitBreaker) (calls : List TimedOperation)
      (task : ClientTask), task.phase.holdsLock=false→
      Accounted {s with
        client := {s.client with breaker := breaker}
        tasks := s.tasks++[task]
        breakerCalls := calls} := by
    intro breaker calls task hf
    have hsame : SameCustody s {s with
        client := {s.client with breaker := breaker}
        tasks := s.tasks++[task]
        breakerCalls := calls} := ⟨rfl,rfl,rfl⟩
    refine hsame.accounted ?_ h
    unfold holders
    rw [List.filter_append,List.filter_singleton,hf]
    exact List.append_nil _
  unfold begin
  split
  · exact hadd s.client.breaker s.breakerCalls _ rfl
  · exact hadd s.client.breaker s.breakerCalls _ rfl
  · dsimp only
    split
    · have hnoted : SameCustody s {s with
          breakerCalls := s.breakerCalls++[⟨s.clock,.beforeCall⟩]} := ⟨rfl,rfl,rfl⟩
      exact hnoted.accounted rfl h
    · rename_i client hgate
      obtain ⟨breaker,rfl⟩ := MCPClient.gate_ok hgate
      exact hadd breaker _ _ rfl

/-- One action that closes what an opening has entered. -/
theorem accounted_step (rt : Runtime) (h : Accounted s) {a : ClientAction}
    (hcloses : ClosesOpening s a) : Accounted (ClientRuns.step rt s a).1 := by
  have hact : ∀ (i : ℕ) (act : ClientTask→Outcome),
      (∀ task, s.tasks[i]?=some task→Accounted (act task).1)→Accounted (onTask s i act).1 := by
    intro i act ha
    unfold onTask
    split
    · exact h
    · rename_i task ht
      exact ha task ht
  cases a with
  | tick elapsed =>
    have hsame : SameCustody s {s with clock := s.clock+elapsed} := ⟨rfl,rfl,rfl⟩
    exact hsame.accounted rfl h
  | start operation => exact accounted_begin h operation
  | grant i =>
    simp only [ClientRuns.step]
    split
    · exact h
    · rename_i hfree
      have hholders := (locked_iff s).mp (Bool.eq_false_iff.mpr hfree)
      exact hact i _ (fun task ht => accounted_granted h hholders ht)
  | resolve i world => exact hact i _ (fun task ht => accounted_resolved h ht world)
  | progress i result =>
    refine hact i _ (fun task ht => accounted_progressed h ht result (fun error he => ?_))
    rw [he] at hcloses
    exact hcloses task ht
  | respond i reply => exact hact i _ (fun task ht => accounted_responded h ht rt reply)
  | wake i => exact hact i _ (fun task ht => accounted_woken h ht)
  | cancel i => exact hact i _ (fun task ht => accounted_cancelled h ht (hcloses task ht))

/-- An opening that ends with contexts of its own leaves them to nobody. -/
theorem leaked (h : Accounted s) (ht : s.tasks[i]?=some task) (he : Entered task.phase)
    {s' : ClientRun} (hr : Releases s i s') : ¬Held s' := by
  have hl : task.phase.holdsLock=true := by
    cases hp : task.phase with
    | handshaking session contexts => rfl
    | initializing session contexts => rfl
    | _ => rw [hp] at he; exact he.elim
  obtain ⟨hone,-,hcustody⟩ := accounted_holder h ht hl
  have hopening : s.client.stack.getD []=[] ∧ s.live≠[] := by
    cases hp : task.phase with
    | handshaking session contexts =>
      rw [hp] at hcustody
      exact ⟨hcustody.1,hcustody.2.1 ▸ hcustody.2.2⟩
    | initializing session contexts =>
      rw [hp] at hcustody
      exact ⟨hcustody.1,hcustody.2.1 ▸ hcustody.2.2⟩
    | _ => rw [hp] at he; exact he.elim
  intro hheld
  have hfree := (locked_iff s').mpr (hr.holders_held ht hl hone)
  obtain ⟨context,hc⟩ := List.exists_mem_of_ne_nil s.live hopening.2
  have hm := (hheld.held hfree context).mp (hr.same.live ▸ hc)
  rw [hr.same.stack,hopening.1] at hm
  exact absurd hm List.not_mem_nil

/-- One action that does not. -/
theorem leaked_step (rt : Runtime) (h : Accounted s) {a : ClientAction}
    (hopen : ¬ClosesOpening s a) : ¬Held (ClientRuns.step rt s a).1 := by
  cases a with
  | progress i result =>
    cases result with
    | ok u => exact absurd trivial hopen
    | error error =>
      simp only [ClosesOpening,not_forall,not_not] at hopen
      obtain ⟨task,ht,he⟩ := hopen
      refine leaked h ht he ?_
      have hended : progressed s i task (.error error)=endAttempt s i task (.error error) := by
        unfold progressed
        cases hp : task.phase with
        | entering session => rfl
        | handshaking session contexts => rfl
        | initializing session contexts => rfl
        | _ => rw [hp] at he; exact he.elim
      simp only [ClientRuns.step,onTask,ht]
      rw [hended]
      exact releases_endAttempt (SameCustody.refl s) rfl _
  | cancel i =>
    simp only [ClosesOpening,not_forall,not_not] at hopen
    obtain ⟨task,ht,he⟩ := hopen
    refine leaked h ht he ?_
    have hended : cancelled s i task=finish s i task .cancelled := by
      unfold cancelled
      cases hp : task.phase with
      | closing next => rw [hp] at he; exact he.elim
      | _ => rfl
    simp only [ClientRuns.step,onTask,ht]
    rw [hended]
    exact releases_finish (SameCustody.refl s) rfl _
  | _ => exact absurd trivial hopen

end Steps

/-- A new client has nothing entered. -/
theorem accounted_new (environ : Environ) (server : UpstreamServer) (http : Option Headers)
    (breaker : Option CircuitBreaker) (now : ℚ) :
    Accounted {clock := now,client := .new environ server http breaker} := by
  have hstack : (MCPClient.new environ server http breaker).stack=none := by
    unfold MCPClient.new
    cases server.serverAuth <;> rfl
  refine (accounted_idle rfl).mpr (idle_of_empty ?_ rfl)
  exact congrArg (Option.getD · []) hstack

/-- In every run of a client, between openings and closings, the transports and
sessions that were entered and not exited are those on its stack, exactly when
no opening ends, by an exception or by cancellation, after it has entered its
transport. -/
theorem held_iff (rt : Runtime) (environ : Environ) (server : UpstreamServer)
    (http : Option Headers) (breaker : Option CircuitBreaker) (now : ℚ)
    (actions : List ClientAction) :
    Always (fun s a => (ClientRuns.step rt s a).1) Held
      {clock := now,client := .new environ server http breaker} actions ↔
    Meets (fun s a => (ClientRuns.step rt s a).1) ClosesOpening
      {clock := now,client := .new environ server http breaker} actions :=
  always_iff_meets_of (I:=Accounted) (fun _ h => h.holds)
    (fun _ _ h hcloses => accounted_step rt h hcloses) (fun _ _ h hopen => leaked_step rt h hopen)
    (accounted_new environ server http breaker now) actions

/-- A ping whose session context cannot be entered, from its beginning to its
end. -/
def failedPing : List ClientAction :=
  [.start .ping,.grant 0,.resolve 0 plainWorld,.progress 0 (.ok ()),
    .progress 0 (.error (.transport "connection reset")),.grant 0]

/-- No operation is left, the client has no stack, and a transport stays
entered. -/
theorem transport_leaked :
    (run (ClientRuns.step asciiRuntime)
      {clock := 0,client := .new (fun _ => none) (plainServer "a") none none} failedPing).1.tasks=
        [] ∧
    (run (ClientRuns.step asciiRuntime)
      {clock := 0,client := .new (fun _ => none) (plainServer "a") none none}
        failedPing).1.client.stack=none ∧
    (run (ClientRuns.step asciiRuntime)
      {clock := 0,client := .new (fun _ => none) (plainServer "a") none none} failedPing).1.live=
        [⟨.transport,0⟩] ∧
    ¬Always (fun s a => (ClientRuns.step asciiRuntime s a).1) Held
      {clock := 0,client := .new (fun _ => none) (plainServer "a") none none} failedPing := by
  refine ⟨rfl,rfl,rfl,fun h => ?_⟩
  have hlive := h.final.none rfl rfl
  cases hlive

end McpGateway.SessionLeaks
