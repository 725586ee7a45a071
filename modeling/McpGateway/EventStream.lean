import Mathlib
import McpGateway.JsonValue
import McpGateway.ToolRouting
import McpGateway.ToolOrchestrator
import McpGateway.StepRun

/-!
# The event stream of a call

A stream announces the call, waits for its task in rounds of five seconds with a
progress event after each round that runs out, and closes with the result or an
error. Running out and a task that raised `TimeoutError` look alike, so such a
task is waited for again and again after its end. The result is rendered behind
the handlers.
-/

namespace McpGateway.EventStream

open JsonValue ToolRouting ToolOrchestrator StepRun

/-- How the task of the call ends, unless it is cancelled. -/
inductive TaskEnd where
  /-- It returns a result. -/
  | returned (result : ToolCallResult)
  /-- It raises `OrchestrationError`. -/
  | orchestration (error : OrchestrationError)
  /-- It raises any other `Exception`, by its text; `timeout` tells whether its
  class is `TimeoutError` or one below it. -/
  | raised (timeout : Bool) (message : String)

/-- The task of the call. -/
structure CallTask where
  /-- Reading at which it ends. -/
  moment : ℚ
  /-- How it does. -/
  outcome : TaskEnd

/-- `data` of an event. -/
inductive EventData where
  /-- `json.dumps(value)`. -/
  | dumped (value : Json)
  /-- `result.model_dump_json()`. -/
  | rendered (text : String)

/-- One event. -/
structure StreamEvent where
  /-- Its name. -/
  event : String
  /-- What it carries. -/
  data : EventData

/-- The event that opens the stream. -/
def startEvent (payload : CallRequest) : StreamEvent :=
  ⟨"start",.dumped (.obj [("tool",.str payload.name),
    ("agent_id",.str payload.principal.agentId)])⟩

/-- The event behind a round that ran out. -/
def progressEvent : StreamEvent := ⟨"progress",.dumped (.obj [("status",.str "running")])⟩

/-- The event of an exception. -/
def errorEvent (code : ℕ) (message : String) : StreamEvent :=
  ⟨"error",.dumped (.obj [("code",.int code),("message",.str message)])⟩

/-- The event of a rendered result. -/
def resultEvent (text : String) : StreamEvent := ⟨"result",.rendered text⟩

/-- One round. The consumer of the events takes its time before it, and the
timer may be late. -/
structure Poll where
  /-- Seconds until the round begins. -/
  delay : ℚ
  /-- They are not negative. -/
  delay_nonneg : 0≤delay
  /-- Seconds by which the timer is late. -/
  late : ℚ
  /-- They are not negative. -/
  late_nonneg : 0≤late
  /-- An end of the task during the round is noticed before the timer. -/
  noticed : Bool

/-- The wait of the round that begins at this reading ends with the task: it
ended before the round, or during it and is noticed. -/
def Poll.sees (poll : Poll) (task : CallTask) (begin : ℚ) : Bool :=
  decide (task.moment≤begin) ||
    (decide (task.moment≤begin+5+poll.late) && poll.noticed)

/-- Where the generator stands. -/
inductive Stage where
  /-- In its loop, with the reading at its last event. -/
  | waiting (now : ℚ)
  /-- It returned. -/
  | closed
  /-- An exception left it. -/
  | broken (text : String)

/-- A round without delays. -/
def promptPoll : Poll := ⟨0,le_refl 0,0,le_refl 0,true⟩

section Streams

variable (dump : ToolCallResult→Except String String) (task : CallTask)

/-- What the handlers make of the end of the task at this reading. -/
def handle (now : ℚ) : TaskEnd→Stage×Option StreamEvent
  | .returned result =>
    match dump result with
    | .ok text => (.closed,some (resultEvent text))
    | .error text => (.broken text,none)
  | .orchestration error => (.closed,some (errorEvent error.code error.message))
  | .raised true _ => (.waiting now,some progressEvent)
  | .raised false message => (.closed,some (errorEvent 500 message))

/-- One round of the loop. -/
def step (stage : Stage) (poll : Poll) : Stage×Option StreamEvent :=
  match stage with
  | .waiting now =>
    let begin := now+poll.delay
    if poll.sees task begin then handle dump (max begin task.moment) task.outcome
    else (.waiting (begin+5+poll.late),some progressEvent)
  | stage => (stage,none)

/-- The generator behind some rounds, with the reading at its first event. -/
def stageAfter (start : ℚ) (polls : List Poll) : Stage :=
  (run (step dump task) (.waiting start) polls).1

/-- The events of some rounds. -/
def events (payload : CallRequest) (start : ℚ) (polls : List Poll) : List StreamEvent :=
  startEvent payload::(run (step dump task) (.waiting start) polls).2

/-- The first rounds of an endless schedule. -/
def rounds (polls : ℕ→Poll) (n : ℕ) : List Poll := (List.range n).map polls

/-- A result or an error. -/
def Final (event : StreamEvent) : Prop := event.event="result" ∨ event.event="error"

instance (event : StreamEvent) : Decidable (Final event) :=
  inferInstanceAs (Decidable (_ ∨ _))

/-- Whatever the consumer and the timers do, the stream opens with the start,
continues with finitely many progress events and one result or error, and has
nothing more; and the round behind the end of the task is the last. -/
structure WellFormed (payload : CallRequest) (start : ℚ) : Prop where
  /-- The events from some round on. -/
  complete : ∀ polls : ℕ→Poll, ∃ n k final, Final final ∧ ∀ m, n≤ m→
    events dump task payload start (rounds polls m)=
      startEvent payload::(List.replicate k progressEvent++[final])
  /-- The loop stops once the task is done. -/
  stops : ∀ polls poll now, stageAfter dump task start polls=.waiting now→task.moment≤now→
    ∀ later, stageAfter dump task start (polls++[poll])≠.waiting later

/-- The outcome has an event: a result that can be rendered, or an exception
other than `TimeoutError`. -/
def Deliverable : TaskEnd→Prop
  | .returned result => ∃ text, dump result=.ok text
  | .orchestration _ => True
  | .raised timeout _ => timeout=false

variable {dump task}

/-- A deliverable outcome closes the stream with its event. -/
theorem handle_deliverable {outcome : TaskEnd} (h : Deliverable dump outcome) (now : ℚ) :
    ∃ final, Final final ∧ handle dump now outcome=(.closed,some final) := by
  cases outcome with
  | returned result =>
    obtain ⟨text,htext⟩ := h
    refine ⟨resultEvent text,.inl rfl,?_⟩
    rw [handle,htext]
  | orchestration error => exact ⟨errorEvent error.code error.message,.inr rfl,rfl⟩
  | raised timeout message =>
    obtain rfl : timeout=false := h
    exact ⟨errorEvent 500 message,.inr rfl,rfl⟩

/-- Any other outcome has no event of its own. -/
theorem handle_undeliverable {outcome : TaskEnd} (h : ¬Deliverable dump outcome) (now : ℚ) :
    ∀ event∈(handle dump now outcome).2, event=progressEvent := by
  intro event hevent
  cases outcome with
  | returned result =>
    rw [handle] at hevent
    cases hdump : dump result with
    | ok text => exact absurd ⟨text,hdump⟩ h
    | error text =>
      rw [hdump] at hevent
      cases hevent
  | orchestration error => exact absurd trivial h
  | raised timeout message =>
    cases timeout with
    | false => exact absurd rfl h
    | true => exact (Option.mem_some_iff.mp hevent).symm

/-- A round that ends with the task handles its outcome. -/
theorem step_sees {now : ℚ} {poll : Poll} (h : poll.sees task (now+poll.delay)=true) :
    step dump task (.waiting now) poll=
      handle dump (max (now+poll.delay) task.moment) task.outcome := if_pos h

/-- A round that runs out is followed by a progress event at least five seconds
later. -/
theorem step_missed {now : ℚ} {poll : Poll} (h : ¬poll.sees task (now+poll.delay)=true) :
    ∃ later, now+5≤later ∧
      step dump task (.waiting now) poll=(.waiting later,some progressEvent) := by
  refine ⟨now+poll.delay+5+poll.late,?_,if_neg h⟩
  have hdelay := poll.delay_nonneg
  have hlate := poll.late_nonneg
  linarith

/-- A round that begins behind the end of the task ends with it. -/
theorem sees_of_ended {now : ℚ} (poll : Poll) (h : task.moment≤now) :
    poll.sees task (now+poll.delay)=true := by
  have hbegin : task.moment≤now+poll.delay := h.trans (le_add_of_nonneg_right poll.delay_nonneg)
  rw [Poll.sees,decide_eq_true hbegin]
  rfl

/-- Nothing follows behind a closed stream. -/
theorem run_closed (polls : List Poll) : run (step dump task) .closed polls=(.closed,[]) := by
  induction polls with
  | nil => rfl
  | cons poll polls ih =>
    rw [run]
    exact congrArg (fun rest => (rest.1,[]++rest.2)) ih

/-- With one round more than it takes to get behind the end of the task, the
stream closes: some progress events, then the event of the outcome. -/
theorem run_closes (h : Deliverable dump task.outcome) {n : ℕ} {now : ℚ} {polls : List Poll}
    (hn : task.moment≤now+5*n) (hlength : polls.length=n+1) :
    ∃ k final, Final final ∧ run (step dump task) (.waiting now) polls=
      (.closed,List.replicate k progressEvent++[final]) := by
  induction n generalizing now polls with
  | zero =>
    obtain ⟨poll,rfl⟩ := List.length_eq_one_iff.mp hlength
    have hended : task.moment≤now := by
      rwa [Nat.cast_zero,mul_zero,add_zero] at hn
    obtain ⟨final,hfinal,hclosed⟩ := handle_deliverable h (max (now+poll.delay) task.moment)
    refine ⟨0,final,hfinal,?_⟩
    rw [run,step_sees (sees_of_ended poll hended),hclosed]
    rfl
  | succ n ih =>
    obtain ⟨poll,polls,rfl⟩ := List.exists_cons_of_length_eq_add_one hlength
    by_cases hsees : poll.sees task (now+poll.delay)=true
    · obtain ⟨final,hfinal,hclosed⟩ := handle_deliverable h (max (now+poll.delay) task.moment)
      refine ⟨0,final,hfinal,?_⟩
      rw [run,step_sees hsees,hclosed,run_closed]
      rfl
    · obtain ⟨later,hlater,hmissed⟩ := @step_missed dump _ _ _ hsees
      have hrest : task.moment≤later+5*n := by
        push_cast at hn
        linarith
      obtain ⟨k,final,hfinal,hclosed⟩ := ih hrest (Nat.succ.inj hlength)
      refine ⟨k+1,final,hfinal,?_⟩
      rw [run,hmissed,hclosed,List.replicate_succ]
      rfl

/-- Every round of a stream without an event for its outcome emits progress or
nothing. -/
theorem run_undeliverable (h : ¬Deliverable dump task.outcome) (stage : Stage)
    (polls : List Poll) :
    ∀ event∈(run (step dump task) stage polls).2, event=progressEvent := by
  induction polls generalizing stage with
  | nil => exact fun _ hm => absurd hm List.not_mem_nil
  | cons poll polls ih =>
    intro event hm
    rcases List.mem_append.mp hm with hm | hm
    · have hevent := Option.mem_toList.mp hm
      cases stage with
      | waiting now =>
        by_cases hsees : poll.sees task (now+poll.delay)=true
        · rw [step_sees hsees] at hevent
          exact handle_undeliverable h _ event hevent
        · obtain ⟨later,-,hmissed⟩ := @step_missed dump _ _ _ hsees
          rw [hmissed] at hevent
          exact (Option.mem_some_iff.mp hevent).symm
      | closed => cases hevent
      | broken text => cases hevent
    · exact ih _ event hm

/-- After `TimeoutError` the stream goes on with progress for as long as it is
read. -/
theorem run_timedOut {message : String} (h : task.outcome=.raised true message) (now : ℚ)
    (polls : List Poll) : ∃ later, run (step dump task) (.waiting now) polls=
      (.waiting later,List.replicate polls.length progressEvent) := by
  induction polls generalizing now with
  | nil => exact ⟨now,rfl⟩
  | cons poll polls ih =>
    have hprogress : ∃ next, step dump task (.waiting now) poll=
        (.waiting next,some progressEvent) := by
      by_cases hsees : poll.sees task (now+poll.delay)=true
      · refine ⟨max (now+poll.delay) task.moment,?_⟩
        rw [step_sees hsees,h]
        rfl
      · obtain ⟨later,-,hmissed⟩ := @step_missed dump _ _ _ hsees
        exact ⟨later,hmissed⟩
    obtain ⟨next,hnext⟩ := hprogress
    obtain ⟨later,hlater⟩ := ih next
    refine ⟨later,?_⟩
    rw [run,hnext,hlater]
    rfl

/-- Some round of a well formed stream emits a result or an error. -/
theorem WellFormed.emits_final {payload : CallRequest} {start : ℚ}
    (h : WellFormed dump task payload start) :
    ∃ polls, ∃ final∈(run (step dump task) (.waiting start) polls).2, Final final := by
  obtain ⟨n,k,final,hfinal,hall⟩ := h.complete fun _ => promptPoll
  have htail := (List.cons.inj (hall n (le_refl n))).2
  refine ⟨rounds (fun _ => promptPoll) n,final,?_,hfinal⟩
  rw [htail]
  exact List.mem_append_right _ (List.mem_singleton_self final)

/-- Progress is not final. -/
theorem not_final_progress : ¬Final progressEvent := by decide

/-- The stream is well formed and ends exactly when the outcome has an event,
whenever the task ends. -/
theorem wellFormed_iff (dump : ToolCallResult→Except String String) (task : CallTask)
    (payload : CallRequest) (start : ℚ) :
    WellFormed dump task payload start ↔ Deliverable dump task.outcome := by
  constructor
  · intro h
    by_contra hnot
    obtain ⟨polls,final,hmem,hfinal⟩ := h.emits_final
    exact not_final_progress (run_undeliverable hnot _ _ final hmem ▸ hfinal)
  · intro h
    refine ⟨fun polls => ?_,fun polls poll now hstage hended later => ?_⟩
    · obtain ⟨n,hn⟩ := exists_nat_ge ((task.moment-start)/5)
      have hbehind : task.moment≤ start+5*n := by linarith [(div_le_iff₀ (by norm_num)).mp hn]
      have hlength : (rounds polls (n+1)).length=n+1 := by
        rw [rounds,List.length_map,List.length_range]
      obtain ⟨k,final,hfinal,hclosed⟩ := run_closes h hbehind hlength
      refine ⟨n+1,k,final,hfinal,fun m hm => ?_⟩
      obtain ⟨more,rfl⟩ := Nat.exists_eq_add_of_le hm
      have hsplit : rounds polls (n+1+more)=
          rounds polls (n+1)++((List.range more).map (n+1+·)).map polls := by
        rw [rounds,List.range_add,List.map_append]
        rfl
      rw [events,hsplit,run_append,hclosed,run_closed,List.append_nil]
    · rw [stageAfter] at hstage ⊢
      rw [run_concat,hstage,step_sees (sees_of_ended poll hended)]
      obtain ⟨final,-,hclosed⟩ := handle_deliverable h (max (now+poll.delay) task.moment)
      rw [hclosed]
      exact Stage.noConfusion

end Streams

/-- A call of a search tool. -/
def searchCall : CallRequest := {
  principal := {agentId := "agent"}
  name := "pg.search"
  arguments := .obj []}

/-- A task that raises `TimeoutError` after two seconds. -/
def timedOutTask : CallTask := ⟨2,.raised true "timed out"⟩

/-- Every result rendered alike. -/
def plainDump : ToolCallResult→Except String String := fun _ => .ok "\x7b\x7d"

theorem timeout_never_ends :
    (∀ polls, events plainDump timedOutTask searchCall 0 polls=
      startEvent searchCall::List.replicate polls.length progressEvent) ∧
    ¬WellFormed plainDump timedOutTask searchCall 0 := by
  have hrun : ∀ polls, (run (step plainDump timedOutTask) (.waiting 0) polls).2=
      List.replicate polls.length progressEvent := by
    intro polls
    obtain ⟨later,hlater⟩ := @run_timedOut plainDump timedOutTask "timed out" rfl 0 polls
    rw [hlater]
  refine ⟨fun polls => congrArg (startEvent searchCall::·) (hrun polls),fun h => ?_⟩
  obtain ⟨polls,final,hmem,hfinal⟩ := h.emits_final
  rw [hrun] at hmem
  exact not_final_progress (List.eq_of_mem_replicate hmem ▸ hfinal)

end McpGateway.EventStream
