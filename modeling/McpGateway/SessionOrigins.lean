import Mathlib
import McpGateway.StepRun
import McpGateway.CircuitBreakers
import McpGateway.PyRuntime
import McpGateway.UpstreamContent
import McpGateway.AuthProviders
import McpGateway.McpClient
import McpGateway.ClientRuns

/-!
# Where sessions come from

Of all parts of a step only the resolution of headers makes a session; every
other part passes on sessions that the client or one of its operations already
has, and changes no settings. So along every run each session, and each
session that a request travels on, stems from an opening of that run.
-/

namespace McpGateway.SessionOrigins

open StepRun CircuitBreakers PyRuntime UpstreamContent AuthProviders McpClient ClientRuns

/-- The session an operation was handed or is opening. -/
def phaseSession : Phase→Option Session
  | .entering session => some session
  | .handshaking session _ => some session
  | .initializing session _ => some session
  | .requesting session => some session
  | _ => none

/-- The client or one of its operations has the session. -/
def HasSession (s : ClientRun) (session : Session) : Prop :=
  s.client.session=some session ∨ ∃ task∈s.tasks, phaseSession task.phase=some session

/-- A later state with the same settings and no new session. -/
structure Within (s s' : ClientRun) : Prop where
  /-- Settings are kept. -/
  settings : MCPClient.SameSettings s.client s'.client
  /-- Sessions are old ones. -/
  sessions : ∀ session, HasSession s' session→HasSession s session

/-- A part of a step that opens nothing and sends on an old session. -/
structure Quiet (s : ClientRun) (o : Outcome) : Prop where
  /-- The state afterwards. -/
  within : Within s o.1
  /-- Nothing is opened. -/
  unopened : ∀ before world agentId given, o.2≠some (.opening before world agentId given)
  /-- Requests travel on old sessions. -/
  sent : ∀ operation session, o.2=some (.sent operation session)→HasSession s session

/-- What any step does: a new session is one that it opens, with the headers
its transport is given. -/
structure StepFacts (s : ClientRun) (o : Outcome) : Prop where
  /-- Settings are kept. -/
  settings : MCPClient.SameSettings s.client o.1.client
  /-- Sessions are old ones or the opened one. -/
  sessions : ∀ session, HasSession o.1 session→HasSession s session ∨
    ∃ before world, o.2=some (.opening before world session.openedBy session.headers)
  /-- An opening gives the transport what its settings make of the headers
  that the client resolves. -/
  opening : ∀ before world agentId given, o.2=some (.opening before world agentId given)→
    before=s.client ∧ ∃ headers, (s.client.resolveHeaders world agentId).2=.ok headers ∧
      given=s.client.transportHeaders headers
  /-- Requests travel on old sessions. -/
  sent : ∀ operation session, o.2=some (.sent operation session)→HasSession s session

/-- A quiet part is a possible step. -/
theorem Quiet.facts {s : ClientRun} {o : Outcome} (h : Quiet s o) : StepFacts s o :=
  ⟨h.within.settings,fun session hs => Or.inl (h.within.sessions session hs),
    fun before world agentId given ho => absurd ho (h.unopened before world agentId given),h.sent⟩

/-- A state is within itself. -/
theorem Within.refl (s : ClientRun) : Within s s :=
  ⟨MCPClient.SameSettings.refl s.client,fun _ h => h⟩

/-- Two changes after each other. -/
theorem Within.trans {s s' s'' : ClientRun} (h : Within s s') (h' : Within s' s'') :
    Within s s'' :=
  ⟨h.settings.trans h'.settings,fun session hs => h.sessions session (h'.sessions session hs)⟩

/-- A quiet part after a change. -/
theorem Within.quiet {s s' : ClientRun} {o : Outcome} (h : Within s s') (hq : Quiet s' o) :
    Quiet s o :=
  ⟨h.trans hq.within,hq.unopened,fun operation session ho =>
    h.sessions session (hq.sent operation session ho)⟩

/-- A change of the client that keeps settings and session, or drops it. -/
theorem within_client {s s' : ClientRun} (htasks : s'.tasks=s.tasks)
    (hsettings : MCPClient.SameSettings s.client s'.client)
    (hsession : s'.client.session=s.client.session ∨ s'.client.session=none) : Within s s' := by
  refine ⟨hsettings,?_⟩
  intro session hs
  rcases hs with hs | ⟨task,ht,hs⟩
  · rcases hsession with hkept | hdropped
    · exact Or.inl (hkept ▸ hs)
    · rw [hdropped] at hs
      cases hs
  · rw [htasks] at ht
    exact Or.inr ⟨task,ht,hs⟩

section Parts

variable {s : ClientRun} {i : ℕ} {task : ClientTask}

/-- An operation that stays in the machine. -/
theorem within_move {phase : Phase}
    (h : ∀ session, phaseSession phase=some session→HasSession s session) :
    Within s (move s i task phase) := by
  refine ⟨⟨rfl,rfl,rfl,rfl⟩,?_⟩
  intro session hs
  rcases hs with hs | ⟨other,hm,hs⟩
  · exact Or.inl hs
  · rcases List.mem_or_eq_of_mem_set hm with hold | hnew
    · exact Or.inr ⟨other,hold,hs⟩
    · rw [hnew] at hs
      exact h session hs

/-- A silent change is quiet. -/
theorem quiet_silent {s' : ClientRun} (h : Within s s') : Quiet s (s',none) :=
  ⟨h,fun _ _ _ _ ho => (by cases ho),fun _ _ ho => (by cases ho)⟩

/-- The end of an operation is quiet. -/
theorem quiet_finish (result : OperationResult) : Quiet s (finish s i task result) := by
  refine ⟨⟨⟨rfl,rfl,rfl,rfl⟩,?_⟩,fun _ _ _ _ ho => (by cases ho),fun _ _ ho => (by cases ho)⟩
  intro session hs
  rcases hs with hs | ⟨other,hm,hs⟩
  · exact Or.inl hs
  · exact Or.inr ⟨other,List.mem_of_mem_eraseIdx hm,hs⟩

/-- Sending on an old session is quiet. -/
theorem quiet_send {session : Session} (h : HasSession s session) :
    Quiet s (send s i task session) := by
  have hphase : ∀ other, phaseSession (.requesting session)=some other→HasSession s other := by
    intro other ho
    cases ho
    exact h
  refine ⟨within_move hphase,fun _ _ _ _ ho => (by cases ho),?_⟩
  intro operation other ho
  cases ho
  exact h

/-- The end of an attempt is quiet. -/
theorem quiet_endAttempt (result : Except ClientException OperationResult) :
    Quiet s (endAttempt s i task result) := by
  have hok : ∀ calls, Within s {s with client := s.client.onOk,breakerCalls := calls} :=
    fun _ => within_client rfl ⟨rfl,rfl,rfl,rfl⟩ (Or.inl rfl)
  have herr : ∀ calls,
      Within s {s with client := s.client.onErr s.clock,breakerCalls := calls} :=
    fun _ => within_client rfl ⟨rfl,rfl,rfl,rfl⟩ (Or.inl rfl)
  have hnone : ∀ {s : ClientRun} {phase : Phase}, phaseSession phase=none→
      Quiet s (move s i task phase,none) := by
    intro s phase hp
    exact quiet_silent (within_move (fun session hs => (by rw [hp] at hs; cases hs)))
  unfold endAttempt
  split
  · split
    · exact quiet_finish _
    · exact (hok _).quiet (quiet_finish _)
  · split
    · exact hnone rfl
    · split
      · exact hnone rfl
      · dsimp only
        split
        · exact (herr _).quiet (quiet_finish _)
        · exact (herr _).quiet (hnone rfl)

/-- What follows a reset is quiet. -/
theorem quiet_proceed (next : AfterReset) : Quiet s (proceed s i task next) := by
  cases next with
  | retry => exact quiet_silent (within_move (fun _ hs => (by cases hs)))
  | ended result => exact quiet_finish result

/-- The grant of the lock is quiet. -/
theorem quiet_granted : Quiet s (granted s i task) := by
  have hdrop : Within s {s with client := {s.client with session := none}} :=
    within_client rfl ⟨rfl,rfl,rfl,rfl⟩ (Or.inr rfl)
  unfold granted
  split
  · split
    · rename_i session hs
      exact quiet_send (Or.inl hs)
    · exact quiet_silent (within_move (fun _ hs => (by cases hs)))
  · dsimp only
    split
    · exact hdrop.quiet (quiet_proceed _)
    · exact hdrop.quiet (quiet_silent (within_move (fun _ hs => (by cases hs))))
  · exact quiet_silent (Within.refl s)

/-- Entering a context touches neither settings nor sessions. -/
theorem within_enter (kind : ContextKind) : Within s (enter s kind).1 :=
  within_client rfl ⟨rfl,rfl,rfl,rfl⟩ (Or.inl rfl)

/-- Nor does exiting those of the stack. -/
theorem within_exitStack (stack : Option (List Context)) : Within s (exitStack s stack) :=
  within_client rfl ⟨rfl,rfl,rfl,rfl⟩ (Or.inl rfl)

/-- The progress of an opening or closing is quiet. -/
theorem quiet_progressed (ht : task∈s.tasks) (result : Except ClientException Unit) :
    Quiet s (progressed s i task result) := by
  have hhas : ∀ session, phaseSession task.phase=some session→HasSession s session :=
    fun session hs => Or.inr ⟨task,ht,hs⟩
  have hentered : ∀ kind session phase, phaseSession task.phase=some session→
      phaseSession phase=some session→Quiet s (move (enter s kind).1 i task phase,none) := by
    intro kind session phase hs hp
    refine quiet_silent ((within_enter kind).trans (within_move ?_))
    intro other ho
    rw [hp] at ho
    cases ho
    exact hhas session hs
  unfold progressed
  split
  · exact quiet_endAttempt _
  · rename_i session _ hphase
    exact hentered .transport session _ (by rw [hphase]; rfl) rfl
  · exact quiet_endAttempt _
  · rename_i session _ _ hphase
    exact hentered .session session _ (by rw [hphase]; rfl) rfl
  · exact quiet_endAttempt _
  · rename_i session contexts _ hphase
    have hsession : HasSession s session := hhas session (by rw [hphase]; rfl)
    have hopened : Within s {s with
        client := {s.client with session := some session,stack := some contexts}} := by
      refine ⟨⟨rfl,rfl,rfl,rfl⟩,?_⟩
      intro other ho
      rcases ho with ho | ho
      · cases ho
        exact hsession
      · exact Or.inr ho
    exact hopened.quiet (quiet_send (Or.inl rfl))
  · exact (within_exitStack none).quiet (quiet_proceed _)
  · exact quiet_silent (Within.refl s)

/-- The end of a request is quiet. -/
theorem quiet_responded (rt : Runtime) (reply : Reply) : Quiet s (responded s i task rt reply) := by
  unfold responded
  split
  · exact quiet_endAttempt _
  · split
    · exact quiet_endAttempt _
    · exact quiet_endAttempt _
  · exact quiet_endAttempt _
  · exact quiet_endAttempt _
  · exact quiet_silent (Within.refl s)

/-- The end of a pause is quiet. -/
theorem quiet_woken : Quiet s (woken s i task) := by
  unfold woken
  split
  · exact quiet_silent (within_move (fun _ hs => (by cases hs)))
  · exact quiet_silent (Within.refl s)

/-- Cancellation is quiet. -/
theorem quiet_cancelled : Quiet s (cancelled s i task) := by
  unfold cancelled
  split
  · exact (within_exitStack (some [])).quiet (quiet_finish _)
  · exact quiet_finish _

/-- The resolution of headers opens one session, with the headers that the
transport is given. -/
theorem resolved_facts (world : World) : StepFacts s (resolved s i task world) := by
  unfold resolved
  split
  · have hknown : Within s {s with
        client := (s.client.resolveHeaders world task.operation.agentId).1} := by
      have hsettings := MCPClient.resolveHeaders_settings s.client world task.operation.agentId
      refine within_client rfl hsettings (Or.inl ?_)
      unfold MCPClient.resolveHeaders
      cases s.client.authProvider <;> rfl
    dsimp only
    split
    · exact (hknown.quiet (quiet_endAttempt _)).facts
    · rename_i headers hheaders
      have hgiven := hknown.settings.transportHeaders headers
      refine ⟨hknown.settings,?_,?_,fun _ _ ho => (by cases ho)⟩
      · intro session hs
        rcases hs with hs | ⟨other,hm,hs⟩
        · exact Or.inl (hknown.sessions session (Or.inl hs))
        · rcases List.mem_or_eq_of_mem_set hm with hold | hnew
          · exact Or.inl (hknown.sessions session (Or.inr ⟨other,hold,hs⟩))
          · rw [hnew] at hs
            cases hs
            exact Or.inr ⟨s.client,world,rfl⟩
      · intro before world' agentId given ho
        cases ho
        exact ⟨rfl,headers,hheaders,hgiven⟩
  · exact (quiet_silent (Within.refl s)).facts

end Parts

/-- A beginning operation has no session yet. -/
theorem quiet_begin (s : ClientRun) (operation : Operation) : Quiet s (begin s operation) := by
  have hadd : ∀ (client : MCPClient) (task : ClientTask) calls,
      MCPClient.SameSettings s.client client→client.session=s.client.session→
      phaseSession task.phase=none→
      Quiet s ({s with client := client,tasks := s.tasks++[task],breakerCalls := calls},none) := by
    intro client task calls hsettings hsession hphase
    refine quiet_silent ⟨hsettings,?_⟩
    intro session hs
    rcases hs with hs | ⟨other,hm,hs⟩
    · exact Or.inl (hsession ▸ hs)
    · rcases List.mem_append.mp hm with hold | hnew
      · exact Or.inr ⟨other,hold,hs⟩
      · rw [List.mem_singleton.mp hnew,hphase] at hs
        cases hs
  unfold begin
  split
  · exact hadd s.client _ s.breakerCalls (MCPClient.SameSettings.refl s.client) rfl rfl
  · exact hadd s.client _ s.breakerCalls (MCPClient.SameSettings.refl s.client) rfl rfl
  · dsimp only
    split
    · refine ⟨within_client rfl (MCPClient.SameSettings.refl s.client) (Or.inl rfl),?_,?_⟩
      · exact fun _ _ _ _ ho => (by cases ho)
      · exact fun _ _ ho => (by cases ho)
    · rename_i client hgate
      obtain ⟨breaker,rfl⟩ := MCPClient.gate_ok hgate
      exact hadd _ _ _ ⟨rfl,rfl,rfl,rfl⟩ rfl rfl

/-- An action on an operation does what it does to a present one. -/
theorem onTask_facts {s : ClientRun} {i : ℕ} {act : ClientTask→Outcome}
    (h : ∀ task∈s.tasks, StepFacts s (act task)) : StepFacts s (onTask s i act) := by
  unfold onTask
  split
  · exact (quiet_silent (Within.refl s)).facts
  · rename_i task ht
    exact h task (List.mem_of_getElem? ht)

/-- What any step does. -/
theorem step_facts (rt : Runtime) (s : ClientRun) (a : ClientAction) :
    StepFacts s (step rt s a) := by
  cases a with
  | tick elapsed =>
    have hclock : Within s {s with clock := s.clock+elapsed} :=
      within_client rfl ⟨rfl,rfl,rfl,rfl⟩ (Or.inl rfl)
    exact (quiet_silent hclock).facts
  | start operation => exact (quiet_begin s operation).facts
  | grant i =>
    simp only [step]
    split
    · exact (quiet_silent (Within.refl s)).facts
    · exact onTask_facts (fun _ _ => quiet_granted.facts)
  | resolve i world => exact onTask_facts (fun _ _ => resolved_facts world)
  | progress i result => exact onTask_facts (fun _ ht => (quiet_progressed ht result).facts)
  | respond i reply => exact onTask_facts (fun _ _ => (quiet_responded rt reply).facts)
  | wake i => exact onTask_facts (fun _ _ => quiet_woken.facts)
  | cancel i => exact onTask_facts (fun _ _ => quiet_cancelled.facts)

/-- The session was opened, with its headers and for its agent. -/
def OpenedIn (h : List ClientEvent) (session : Session) : Prop :=
  ∃ before world, ClientEvent.opening before world session.openedBy session.headers∈h

/-- Settings are those of the beginning and every session was opened. -/
structure Originated (c : MCPClient) (s : ClientRun) (h : List ClientEvent) : Prop where
  /-- Settings are kept. -/
  settings : MCPClient.SameSettings c s.client
  /-- Sessions were opened. -/
  opened : ∀ session, HasSession s session→OpenedIn h session

/-- An event opens with what the settings make of the resolved headers, or
sends on a session that was opened before. -/
structure Sound (c : MCPClient) (h : List ClientEvent) (e : ClientEvent) : Prop where
  /-- Openings. -/
  opening : ∀ before world agentId given, e=.opening before world agentId given→
    MCPClient.SameSettings c before ∧ ∃ headers,
      (before.resolveHeaders world agentId).2=.ok headers ∧ given=c.transportHeaders headers
  /-- Requests. -/
  sent : ∀ operation session, e=.sent operation session→OpenedIn h session

/-- Every step keeps the origin of sessions. -/
theorem originated_step {rt : Runtime} {c : MCPClient} (s : ClientRun) (h : List ClientEvent)
    (a : ClientAction) (ho : Originated c s h) :
    Originated c (step rt s a).1 (h++(step rt s a).2.toList) := by
  have hfacts := step_facts rt s a
  refine ⟨ho.settings.trans hfacts.settings,?_⟩
  intro session hs
  rcases hfacts.sessions session hs with hold | ⟨before,world,hopen⟩
  · obtain ⟨before,world,hm⟩ := ho.opened session hold
    exact ⟨before,world,List.mem_append_left _ hm⟩
  · refine ⟨before,world,List.mem_append_right _ ?_⟩
    rw [hopen]
    exact List.mem_singleton_self _

/-- A client in use whose operations have no session yet has nothing opened. -/
theorem originated_fresh (c : MCPClient) (now : ℚ) (h : c.session=none) :
    Originated c {clock := now,client := c} [] := by
  refine ⟨MCPClient.SameSettings.refl c,?_⟩
  intro session hs
  rcases hs with hs | ⟨task,hm,-⟩
  · rw [h] at hs
    cases hs
  · exact absurd hm List.not_mem_nil

/-- In every run of a fresh client every event is sound. -/
theorem run_sound {rt : Runtime} {c : MCPClient} {now : ℚ} (h : c.session=none)
    (actions : List ClientAction) {earlier later : List ClientEvent} {e : ClientEvent}
    (hsplit : (run (step rt) {clock := now,client := c} actions).2=earlier++e::later) :
    Sound c earlier e := by
  have hemit : ∀ s h a e, Originated c s h→(step rt s a).2=some e→Sound c h e := by
    intro s h a e ho he
    have hfacts := step_facts rt s a
    refine ⟨?_,?_⟩
    · intro before world agentId given hev
      rw [hev] at he
      obtain ⟨rfl,headers,hheaders,hgiven⟩ := hfacts.opening before world agentId given he
      refine ⟨ho.settings,headers,hheaders,?_⟩
      rw [hgiven,ho.settings.transportHeaders]
    · intro operation session hev
      rw [hev] at he
      exact ho.opened session (hfacts.sent operation session he)
  have hsound := run_event (J:=Originated c) (Q:=Sound c) originated_step hemit
    (originated_fresh c now h) actions hsplit
  rwa [List.nil_append] at hsound

/-- So is every event by itself, with respect to other events of the run. -/
theorem run_sound_mem {rt : Runtime} {c : MCPClient} {now : ℚ} (h : c.session=none)
    (actions : List ClientAction) {e : ClientEvent}
    (he : e∈(run (step rt) {clock := now,client := c} actions).2) :
    ∃ earlier, earlier⊆(run (step rt) {clock := now,client := c} actions).2 ∧
      Sound c earlier e := by
  obtain ⟨earlier,later,hsplit⟩ := List.append_of_mem he
  refine ⟨earlier,?_,run_sound h actions hsplit⟩
  rw [hsplit]
  exact List.subset_append_left _ _

end McpGateway.SessionOrigins
