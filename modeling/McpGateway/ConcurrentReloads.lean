import Mathlib
import McpGateway.PyDict
import McpGateway.StepRun
import McpGateway.Interleaving
import McpGateway.GatewaySettings
import McpGateway.ToolNaming
import McpGateway.ServerRegistry
import McpGateway.RegistryRuns
import McpGateway.PyRuntime
import McpGateway.PiiRedactor
import McpGateway.Guardrails
import McpGateway.ToolOrchestrator
import McpGateway.CallMediation
import McpGateway.GatewayRuns
import McpGateway.ConfigReload

/-!
# Two reloads at once

No lock is held during a reload, so a second one may load its configuration
while the first is suspended; the awaits then order the remaining steps of
both. The first reload may also have finished before the second one loads, and
then the two have run one after the other.
-/

namespace McpGateway.ConcurrentReloads

open PyDict StepRun Interleaving GatewaySettings ToolNaming ServerRegistry RegistryRuns PyRuntime
open PiiRedactor Guardrails ToolOrchestrator CallMediation GatewayRuns ConfigReload

/-- A reload that has loaded its configuration. -/
structure ReloadTask where
  /-- Steps it has not executed. -/
  remaining : List ReloadStep
  /-- Entry that its synchronization captured. -/
  captured : Option ℕ := none

/-- Two reloads of one process. -/
structure Race where
  /-- State of the process. -/
  app : AppState
  /-- The reload that loads first. -/
  first : ReloadTask
  /-- The reload that loads second. -/
  second : ReloadTask
  /-- Executed steps, in order. -/
  trace : List (Side×ReloadStep)

/-- One of the reloads executes its next step, if it has any. -/
def Race.turn (rt : Runtime) (race : Race) : Side→Race
  | .first =>
    match race.first.remaining with
    | [] => race
    | s::rest =>
      let r := ConfigReload.step rt ⟨race.app,race.first.captured⟩ s
      {race with
        app := r.app
        first := ⟨rest,r.captured⟩
        trace := race.trace++[(.first,s)]}
  | .second =>
    match race.second.remaining with
    | [] => race
    | s::rest =>
      let r := ConfigReload.step rt ⟨race.app,race.second.captured⟩ s
      {race with
        app := r.app
        second := ⟨rest,r.captured⟩
        trace := race.trace++[(.second,s)]}

/-- The first reload has executed some of its steps when the second one
loads. -/
def loaded (rt : Runtime) (app : AppState) (a : LoadedConfig) (worldA : ReloadWorld)
    (b : LoadedConfig) (worldB : ReloadWorld) (k : ℕ) : Race :=
  let steps := program app.config a worldA
  let r := final (ConfigReload.step rt) ⟨app,none⟩ (steps.take k)
  {app := r.app
   first := ⟨steps.drop k,r.captured⟩
   second := ⟨program r.app.config b worldB,none⟩
   trace := (steps.take k).map (fun s => (.first,s))}

/-- Both reloads have executed all of their steps. -/
def Race.Finished (race : Race) : Prop := race.first.remaining=[] ∧ race.second.remaining=[]

/-- What a reload changes besides the registry. -/
structure ProcessView where
  /-- `app.state.config`. -/
  config : LoadedConfig
  /-- `app.state.authorizer`. -/
  authorizer : AuthPolicy
  /-- Policy objects of the orchestrator. -/
  policies : PolicySet
  /-- Endpoints of the installed dispatcher. -/
  webhooks : List WebhookConfig

/-- The view of a process. -/
def processView (app : AppState) : ProcessView :=
  ⟨app.config,app.authorizer,policies app.orchestrator,app.webhooks⟩

/-- What a step makes of the view. -/
def processWrite (rt : Runtime) (found : ProcessView) : ReloadStep→ProcessView
  | .swapPolicies cfg => {found with policies := swapped rt cfg found.policies}
  | .install cfg => ⟨cfg,found.policies.authorizer,found.policies,cfg.webhooks⟩
  | _ => found

/-- The step swaps the policies. -/
def isSwap : ReloadStep→Bool
  | .swapPolicies _ => true
  | _ => false

/-- The step remembers a configuration. -/
def isInstall : ReloadStep→Bool
  | .install _ => true
  | _ => false

/-- The step works on more than the registry. -/
def isProcess (s : ReloadStep) : Bool := isSwap s || isInstall s

/-- Two processes agree on the configuration, the authorizers, the policy
objects, the webhook endpoints and the registered servers. -/
structure SameOutcome (x y : AppState) : Prop where
  /-- Everything besides the registry. -/
  process : processView x=processView y
  /-- Registered settings under each id. -/
  servers : ∀ sid, registered x sid=registered y sid

/-- When the entry of one id ends as if the reloads had run one after the
other: `c`, `a` and `b` are its servers in the configuration found, in the one
loaded first and in the one loaded second, `found` is what is registered at the
beginning and `last` is the reload that writes the entry last. -/
def EntrySettled (c a b found : Option UpstreamServer) (last : Option Side) : Prop :=
  match a,b with
  | none,none => True
  | some server,none => c≠none ∧ ∀ prior, c=some prior→Reconnects prior server→
    last=some .second
  | none,some server => ∀ prior, c=some prior→Reconnects prior server ∧ last=some .second
  | some serverA,some serverB => serverA=serverB ∨ last=some .second ∨
    (found=none ∧ ∃ prior, c=some prior ∧ ¬Reconnects prior serverA ∧ ¬Reconnects prior serverB)

/-- The order of the executed steps has the effect of running the first reload
to its end before the second one. -/
structure Serialised (rt : Runtime) (app : AppState) (a b : LoadedConfig)
    (trace : List (Side×ReloadStep)) : Prop where
  /-- The second configuration is remembered last, unless they are equal. -/
  config : a=b ∨ lastSide isInstall trace=some .second
  /-- The second policies are swapped in last, unless both ask for the same. -/
  policies : swapped rt a (policies app.orchestrator)=swapped rt b (policies app.orchestrator) ∨
    lastSide isSwap trace=some .second
  /-- Every entry is settled. -/
  servers : ∀ sid, EntrySettled (app.config.configured sid) (a.configured sid)
    (b.configured sid) (registered app sid) (lastSide (writes sid) trace)

/-- One step changes the view of the process as it writes it. -/
theorem processView_step (rt : Runtime) (r : ReloadRun) (s : ReloadStep) :
    processView (ConfigReload.step rt r s).app=processWrite rt (processView r.app) s := by
  have honly : OnRegistry s→processView (ConfigReload.step rt r s).app=processView r.app := by
    intro h
    obtain ⟨registry,hregistry⟩ := step_onRegistry rt r h
    rw [hregistry]
    rfl
  cases s with
  | deregister serverId => exact honly trivial
  | register server => exact honly trivial
  | sync serverId answer => exact honly trivial
  | update server => exact honly trivial
  | swapPolicies cfg =>
    have hpolicies := policies_swap rt cfg r.app.orchestrator
    exact congrArg (fun p => (⟨r.app.config,r.app.authorizer,p,r.app.webhooks⟩ : ProcessView))
      hpolicies
  | install cfg => rfl

/-- A process is what the executed steps have written since the beginning. -/
structure Wrote (rt : Runtime) (app : AppState) (steps : List ReloadStep) (now : AppState) :
    Prop where
  /-- Everything besides the registry. -/
  process : processView now=steps.foldl (processWrite rt) (processView app)
  /-- Every entry. -/
  entries : ∀ sid, view 0 sid now.registry=steps.foldl (write sid) (view 0 sid app.registry)

/-- One more step writes the process. -/
theorem wrote_step {rt : Runtime} {app now : AppState} {steps : List ReloadStep}
    (h : Wrote rt app steps now) (captured : Option ℕ) (s : ReloadStep) :
    Wrote rt app (steps++[s]) (ConfigReload.step rt ⟨now,captured⟩ s).app := by
  constructor
  · rw [processView_step,List.foldl_append,←h.process]
    rfl
  · intro sid
    have hview := (view_step rt sid (r:=⟨now,captured⟩) (Nat.zero_le _) s).1
    rw [hview,List.foldl_append,←h.entries]
    rfl

/-- Steps that one reload executes without the other write the process. -/
theorem wrote_run {rt : Runtime} {app now : AppState} {steps : List ReloadStep}
    (h : Wrote rt app steps now) (captured : Option ℕ) (later : List ReloadStep) :
    Wrote rt app (steps++later) (final (ConfigReload.step rt) ⟨now,captured⟩ later).app := by
  induction later generalizing now captured steps with
  | nil =>
    rw [List.append_nil]
    exact h
  | cons s rest ih =>
    have hrest := ih (wrote_step h captured s) (ConfigReload.step rt ⟨now,captured⟩ s).captured
    rw [List.append_assoc] at hrest
    exact hrest

/-- A race that began in a process has executed initial parts of both
programs, and its state is what their steps write. -/
structure Progress (rt : Runtime) (app : AppState) (done left right : List ReloadStep)
    (race : Race) : Prop where
  /-- The executed steps interleave initial parts of the programs. -/
  steps : ∃ doneA doneB t, left=doneA++race.first.remaining ∧
    right=doneB++race.second.remaining ∧ Interleaves doneA doneB t ∧
    race.trace=done.map (fun s => (Side.first,s))++t
  /-- The process is what the steps write. -/
  wrote : Wrote rt app (race.trace.map Prod.snd) race.app

/-- The labels of the first reload do not matter to its steps. -/
theorem labelled_steps (steps : List ReloadStep) :
    (steps.map (fun s => (Side.first,s))).map Prod.snd=steps := by
  rw [List.map_map]
  exact List.map_id steps

/-- The second reload loads in a race in progress. -/
theorem loaded_progress (rt : Runtime) (app : AppState) (a : LoadedConfig)
    (worldA : ReloadWorld) (b : LoadedConfig) (worldB : ReloadWorld) (k : ℕ) :
    Progress rt app ((program app.config a worldA).take k)
      ((program app.config a worldA).drop k)
      (program (loaded rt app a worldA b worldB k).app.config b worldB)
      (loaded rt app a worldA b worldB k) := by
  have hbegin : Wrote rt app [] app := ⟨rfl,fun _ => rfl⟩
  have hsteps : (loaded rt app a worldA b worldB k).trace.map Prod.snd=
      (program app.config a worldA).take k := labelled_steps _
  refine ⟨⟨[],[],[],rfl,rfl,.nil,(List.append_nil _).symm⟩,?_⟩
  rw [hsteps]
  exact wrote_run hbegin none _

/-- A race stays in progress. -/
theorem progress_turn {rt : Runtime} {app : AppState} {done left right : List ReloadStep}
    (race : Race) (side : Side) (h : Progress rt app done left right race) :
    Progress rt app done left right (race.turn rt side) := by
  obtain ⟨doneA,doneB,t,hleft,hright,hinter,htrace⟩ := h.steps
  have hmore : ∀ captured s, Wrote rt app ((race.trace++[(side,s)]).map Prod.snd)
      (ConfigReload.step rt ⟨race.app,captured⟩ s).app := by
    intro captured s
    rw [List.map_append]
    exact wrote_step h.wrote captured s
  have hlonger : ∀ s, race.trace++[(side,s)]=
      done.map (fun s => (Side.first,s))++(t++[(side,s)]) := by
    intro s
    rw [htrace,List.append_assoc]
  cases side with
  | first =>
    unfold Race.turn
    cases hs : race.first.remaining with
    | nil => exact h
    | cons s rest =>
      have hmoved : left=(doneA++[s])++rest := by
        rw [hleft,hs,List.append_assoc]
        rfl
      exact ⟨⟨doneA++[s],doneB,t++[(.first,s)],hmoved,hright,hinter.snoc_first s,hlonger s⟩,
        hmore race.first.captured s⟩
  | second =>
    unfold Race.turn
    cases hs : race.second.remaining with
    | nil => exact h
    | cons s rest =>
      have hmoved : right=(doneB++[s])++rest := by
        rw [hright,hs,List.append_assoc]
        rfl
      exact ⟨⟨doneA,doneB++[s],t++[(.second,s)],hleft,hmoved,hinter.snoc_second s,hlonger s⟩,
        hmore race.second.captured s⟩

/-- Of two values the second is taken when its condition holds or they are
equal. -/
theorem ite_eq_second {α : Type} {p : Prop} [Decidable p] {x y : α} :
    (if p then y else x)=y ↔ x=y ∨ p := by
  rw [ite_eq_left_iff,or_iff_not_imp_right]

/-- The entry of an id that only the first configuration has ends removed when
the second reload removes it last. -/
theorem settled_removed {sid : String} {c : Option UpstreamServer} {server : UpstreamServer}
    (hid : server.id=sid) {t : List (Side×ReloadStep)}
    (h : Interleaves (entrySteps sid c (some server)) (entrySteps sid c none) t)
    (found : Option EntryView) :
    (t.map Prod.snd).foldl (write sid) found=none ↔
      c≠none ∧ ∀ prior, c=some prior→Reconnects prior server→
        t.getLast?.map Prod.fst=some .second := by
  cases c with
  | none =>
    rw [h.first_only]
    constructor
    · intro he
      cases (write_register hid found).symm.trans he
    · intro he
      exact absurd rfl he.1
  | some prior =>
    by_cases hr : Reconnects prior server
    · rw [entrySteps_reconnects hr] at h
      rw [Interleaves.last_decides (r:=[]) h (write_register hid) (write_deregister sid)]
      constructor
      · intro he
        refine ⟨Option.some_ne_none prior,fun _ _ _ => ?_⟩
        by_contra hlast
        rw [if_neg hlast] at he
        cases he
      · intro he
        exact if_pos (he.2 prior rfl hr)
    · rw [entrySteps_kept hr] at h
      have hgone : (t.map Prod.snd).foldl (write sid) found=none := by
        rcases Interleaves.snoc_cases (r:=[]) h with ⟨before,rfl,hb⟩ | ⟨before,rfl,-⟩
        · rw [List.map_append,List.foldl_append,hb.second_only]
          exact (write_update hid _).trans (congrArg _ (write_deregister sid found))
        · rw [List.map_append,List.foldl_append]
          exact write_deregister sid _
      refine ⟨fun _ => ⟨Option.some_ne_none prior,fun p hp hreconnects => ?_⟩,fun _ => hgone⟩
      cases hp
      exact absurd hreconnects hr

/-- The entry of an id that only the second configuration has ends with its
settings when the second reload creates it last, or alone. -/
theorem settled_added {sid : String} {c : Option UpstreamServer} {server : UpstreamServer}
    (hid : server.id=sid) {t : List (Side×ReloadStep)}
    (h : Interleaves (entrySteps sid c none) (entrySteps sid c (some server)) t)
    (found : Option EntryView) :
    ((t.map Prod.snd).foldl (write sid) found).map EntryView.server=some server ↔
      ∀ prior, c=some prior→Reconnects prior server ∧
        t.getLast?.map Prod.fst=some .second := by
  cases c with
  | none =>
    rw [h.second_only]
    constructor
    · intro _ prior hp
      cases hp
    · intro _
      exact congrArg (Option.map EntryView.server) (write_register hid found)
  | some prior =>
    by_cases hr : Reconnects prior server
    · rw [entrySteps_reconnects hr] at h
      rw [Interleaves.last_decides (l:=[]) h (write_deregister sid) (write_register hid)]
      constructor
      · intro he p hp
        cases hp
        refine ⟨hr,?_⟩
        by_contra hlast
        rw [if_neg hlast] at he
        cases he
      · intro he
        rw [if_pos (he prior rfl).2]
        rfl
    · rw [entrySteps_kept hr] at h
      have hgone : (t.map Prod.snd).foldl (write sid) found=none := by
        rcases Interleaves.snoc_cases (l:=[]) h with ⟨before,rfl,-⟩ | ⟨before,rfl,hb⟩
        · rw [List.map_append,List.foldl_append]
          exact write_deregister sid _
        · rw [List.map_append,List.foldl_append,hb.first_only]
          exact (write_update hid _).trans (congrArg _ (write_deregister sid found))
      rw [hgone]
      constructor
      · intro he
        cases he
      · intro he
        exact absurd (he prior rfl).1 hr

/-- The entry of an id that both configurations have ends with the settings of
the reload that writes it last, unless there is none and both only update. -/
theorem written_last {sid : String} {c : Option UpstreamServer} {serverA serverB : UpstreamServer}
    (hidA : serverA.id=sid) (hidB : serverB.id=sid) {t : List (Side×ReloadStep)}
    (h : Interleaves (entrySteps sid c (some serverA)) (entrySteps sid c (some serverB)) t)
    {found : Option EntryView}
    (hsome : ∀ prior, c=some prior→ ¬Reconnects prior serverA→ ¬Reconnects prior serverB→
      found≠none) :
    ((t.map Prod.snd).foldl (write sid) found).map EntryView.server=
      some (if t.getLast?.map Prod.fst=some .second then serverB else serverA) := by
  cases c with
  | none =>
    rw [Interleaves.last_decides (l:=[]) (r:=[]) h (write_register hidA) (write_register hidB)]
    split <;> rfl
  | some prior =>
    by_cases hrA : Reconnects prior serverA
    · rw [entrySteps_reconnects hrA] at h
      by_cases hrB : Reconnects prior serverB
      · rw [entrySteps_reconnects hrB] at h
        rw [h.last_decides (write_register hidA) (write_register hidB)]
        split <;> rfl
      · rw [entrySteps_kept hrB] at h
        rcases h.snoc_cases with ⟨before,rfl,-⟩ | ⟨before,rfl,hb⟩
        · rw [List.map_append,List.foldl_append,List.getLast?_concat]
          exact congrArg _ (write_register hidA _)
        · rw [List.map_append,List.foldl_append,List.getLast?_concat,hb.first_only]
          exact congrArg _ ((write_update hidB _).trans
            (congrArg _ (write_register hidA _)))
    · rw [entrySteps_kept hrA] at h
      by_cases hrB : Reconnects prior serverB
      · rw [entrySteps_reconnects hrB] at h
        rcases h.snoc_cases with ⟨before,rfl,hb⟩ | ⟨before,rfl,-⟩
        · rw [List.map_append,List.foldl_append,List.getLast?_concat,hb.second_only]
          exact congrArg _ ((write_update hidA _).trans
            (congrArg _ (write_register hidB _)))
        · rw [List.map_append,List.foldl_append,List.getLast?_concat]
          exact congrArg _ (write_register hidB _)
      · rw [entrySteps_kept hrB] at h
        obtain ⟨entry,rfl⟩ := Option.ne_none_iff_exists'.mp (hsome prior rfl hrA hrB)
        rcases h.snoc_cases with ⟨before,rfl,hb⟩ | ⟨before,rfl,hb⟩
        · rw [List.map_append,List.foldl_append,List.getLast?_concat,hb.second_only]
          exact congrArg _ ((write_update hidA _).trans (congrArg _ (write_update hidB _)))
        · rw [List.map_append,List.foldl_append,List.getLast?_concat,hb.first_only]
          exact congrArg _ ((write_update hidB _).trans (congrArg _ (write_update hidA _)))

/-- One reload after the other leaves the settings of the second one, unless
there is no entry and both only update. -/
theorem serial_last {c : Option UpstreamServer} {serverA serverB : UpstreamServer}
    {found : Option EntryView}
    (hsome : ∀ prior, c=some prior→ ¬Reconnects prior serverA→ ¬Reconnects prior serverB→
      found≠none) :
    (reloadedView (some serverA) (some serverB)
      (reloadedView c (some serverA) found)).map EntryView.server=some serverB := by
  by_cases hr : Reconnects serverA serverB
  · rw [reloadedView_reconnects hr]
    rfl
  · rw [reloadedView_kept hr]
    cases c with
    | none => rfl
    | some prior =>
      by_cases hrA : Reconnects prior serverA
      · rw [reloadedView_reconnects hrA]
        rfl
      · have hrB : ¬Reconnects prior serverB := fun hB => hr ((reconnects_kept hrA serverB).mp hB)
        obtain ⟨entry,rfl⟩ := Option.ne_none_iff_exists'.mp (hsome prior rfl hrA hrB)
        rw [reloadedView_kept hrA]
        rfl

/-- Two reloads that only update leave no entry where there was none. -/
theorem settled_absent {sid : String} {prior serverA serverB : UpstreamServer}
    (hidA : serverA.id=sid) (hidB : serverB.id=sid) (hrA : ¬Reconnects prior serverA)
    (hrB : ¬Reconnects prior serverB) {t : List (Side×ReloadStep)}
    (h : Interleaves (entrySteps sid (some prior) (some serverA))
      (entrySteps sid (some prior) (some serverB)) t) :
    (t.map Prod.snd).foldl (write sid) none=none ∧
      reloadedView (some serverA) (some serverB)
        (reloadedView (some prior) (some serverA) none)=none := by
  constructor
  · rw [entrySteps_kept hrA,entrySteps_kept hrB] at h
    rcases h.snoc_cases with ⟨before,rfl,hb⟩ | ⟨before,rfl,hb⟩
    · rw [List.map_append,List.foldl_append,hb.second_only]
      exact (write_update hidA _).trans (congrArg _ (write_update hidB none))
    · rw [List.map_append,List.foldl_append,hb.first_only]
      exact (write_update hidB _).trans (congrArg _ (write_update hidA none))
  · have hr : ¬Reconnects serverA serverB := fun hr => hrB ((reconnects_kept hrA serverB).mpr hr)
    rw [reloadedView_kept hrA,reloadedView_kept hr]
    rfl

/-- The entry of an id that both configurations have ends with the settings of
the second one when the second reload writes it last. -/
theorem settled_kept {sid : String} {c : Option UpstreamServer} {serverA serverB : UpstreamServer}
    (hidA : serverA.id=sid) (hidB : serverB.id=sid) {t : List (Side×ReloadStep)}
    (h : Interleaves (entrySteps sid c (some serverA)) (entrySteps sid c (some serverB)) t)
    (found : Option EntryView) :
    ((t.map Prod.snd).foldl (write sid) found).map EntryView.server=
        (reloadedView (some serverA) (some serverB)
          (reloadedView c (some serverA) found)).map EntryView.server ↔
      serverA=serverB ∨ t.getLast?.map Prod.fst=some .second ∨
        (found.map EntryView.server=none ∧ ∃ prior, c=some prior ∧
          ¬Reconnects prior serverA ∧ ¬Reconnects prior serverB) := by
  rw [Option.map_eq_none_iff]
  by_cases habsent : found=none ∧ ∃ prior, c=some prior ∧
      ¬Reconnects prior serverA ∧ ¬Reconnects prior serverB
  · obtain ⟨rfl,prior,rfl,hrA,hrB⟩ := id habsent
    obtain ⟨hraced,hserial⟩ := settled_absent hidA hidB hrA hrB h
    rw [hraced,hserial]
    exact ⟨fun _ => Or.inr (Or.inr habsent),fun _ => rfl⟩
  · have hsome : ∀ prior, c=some prior→ ¬Reconnects prior serverA→ ¬Reconnects prior serverB→
        found≠none :=
      fun prior hc hrA hrB hf => habsent ⟨hf,prior,hc,hrA,hrB⟩
    rw [written_last hidA hidB h hsome,serial_last hsome,or_iff_left habsent,Option.some.injEq]
    exact ite_eq_second

/-- The entry of an id that neither configuration has ends as one reload leaves
it. -/
theorem settled_none {sid : String} {c : Option UpstreamServer} {t : List (Side×ReloadStep)}
    (h : Interleaves (entrySteps sid c none) (entrySteps sid c none) t)
    (found : Option EntryView) :
    (t.map Prod.snd).foldl (write sid) found=reloadedView c none found := by
  cases c with
  | none =>
    rw [h.first_only]
    rfl
  | some prior =>
    rw [Interleaves.last_decides (l:=[]) (r:=[]) h (write_deregister sid) (write_deregister sid)]
    exact ite_self _

/-- The entry of an id ends as if the reloads had run one after the other
exactly when it is settled. -/
theorem settled_iff {sid : String} {c a b : Option UpstreamServer}
    (ha : ∀ server, a=some server→server.id=sid) (hb : ∀ server, b=some server→server.id=sid)
    {t : List (Side×ReloadStep)} (h : Interleaves (entrySteps sid c a) (entrySteps sid c b) t)
    (found : Option EntryView) :
    ((t.map Prod.snd).foldl (write sid) found).map EntryView.server=
        (reloadedView a b (reloadedView c a found)).map EntryView.server ↔
      EntrySettled c a b (found.map EntryView.server) (t.getLast?.map Prod.fst) := by
  cases a with
  | none =>
    cases b with
    | none =>
      rw [settled_none h]
      exact ⟨fun _ => trivial,fun _ => rfl⟩
    | some server => exact settled_added (hb server rfl) h found
  | some serverA =>
    cases b with
    | none =>
      have hserial : reloadedView (some serverA) none (reloadedView c (some serverA) found)=none :=
        rfl
      rw [hserial,Option.map_none,Option.map_eq_none_iff]
      exact settled_removed (ha serverA rfl) h found
    | some serverB => exact settled_kept (ha serverA rfl) (hb serverB rfl) h found

/-- The authorizer and the endpoints of a process are those of its policy
objects and its configuration. -/
def Installed (v : ProcessView) : Prop :=
  v.authorizer=v.policies.authorizer ∧ v.webhooks=v.config.webhooks

/-- Of the steps of a reload, those that work on more than the registry are its
last two. -/
theorem program_filter {p : ReloadStep→Bool} (hp : ∀ s, OnRegistry s→p s=false)
    (old new : LoadedConfig) (world : ReloadWorld) :
    (program old new world).filter p=
      [ReloadStep.swapPolicies new,.install new].filter p := by
  obtain ⟨steps,hprogram,honly⟩ := program_eq old new world
  have hnone : steps.filter p=[] := by
    rw [List.filter_eq_nil_iff]
    intro s hs
    rw [hp s (honly s hs)]
    exact Bool.false_ne_true
  rw [hprogram,List.filter_append,hnone,List.nil_append]

/-- What a step makes of the configuration. -/
def configWrite (found : LoadedConfig) : ReloadStep→LoadedConfig
  | .install cfg => cfg
  | _ => found

/-- What a step makes of the policy objects. -/
def policyWrite (rt : Runtime) (found : PolicySet) : ReloadStep→PolicySet
  | .swapPolicies cfg => swapped rt cfg found
  | _ => found

/-- The configuration depends on the steps that install alone. -/
theorem config_run (rt : Runtime) (v : ProcessView) (steps : List ReloadStep) :
    (steps.foldl (processWrite rt) v).config=
      (steps.filter isInstall).foldl configWrite v.config := by
  have hfold : steps.foldl configWrite v.config=(steps.foldl (processWrite rt) v).config :=
    List.foldl_hom ProcessView.config (fun x s => by cases s <;> rfl)
  rw [←hfold]
  refine foldl_relevant (fun found s hs => ?_) v.config steps
  cases s with
  | install cfg => cases hs
  | _ => rfl

/-- The policy objects depend on the steps that swap them alone. -/
theorem policies_run (rt : Runtime) (v : ProcessView) (steps : List ReloadStep) :
    (steps.foldl (processWrite rt) v).policies=
      (steps.filter isSwap).foldl (policyWrite rt) v.policies := by
  have hfold : steps.foldl (policyWrite rt) v.policies=
      (steps.foldl (processWrite rt) v).policies :=
    List.foldl_hom ProcessView.policies (fun x s => by cases s <;> rfl)
  rw [←hfold]
  refine foldl_relevant (fun found s hs => ?_) v.policies steps
  cases s with
  | swapPolicies cfg => cases hs
  | _ => rfl

/-- A view whose last relevant step installs is that of its policy objects and
its configuration. -/
theorem installed_run (rt : Runtime) (v : ProcessView) {steps before : List ReloadStep}
    {cfg : LoadedConfig} (h : steps.filter isProcess=before++[.install cfg]) :
    Installed (steps.foldl (processWrite rt) v) := by
  have hrelevant : steps.foldl (processWrite rt) v=
      (steps.filter isProcess).foldl (processWrite rt) v := by
    refine foldl_relevant (fun found s hs => ?_) v steps
    cases s with
    | swapPolicies cfg => cases hs
    | install cfg => cases hs
    | _ => rfl
  rw [hrelevant,h,List.foldl_append]
  exact ⟨rfl,rfl⟩

/-- Two installed views with one configuration and the same policy objects are
equal. -/
theorem installed_ext {x y : ProcessView} (hx : Installed x) (hy : Installed y)
    (hconfig : x.config=y.config) (hpolicies : x.policies=y.policies) : x=y := by
  obtain ⟨hxa,hxw⟩ := hx
  obtain ⟨hya,hyw⟩ := hy
  cases x
  cases y
  dsimp only at *
  subst hconfig hpolicies
  rw [hxa,hya,hxw,hyw]

/-- What a configuration asks for besides the registry. -/
def reloadedProcess (rt : Runtime) (cfg : LoadedConfig) (safety : SafetyFilter) : ProcessView :=
  ⟨cfg,cfg.auth,loadedPolicies rt cfg safety,cfg.webhooks⟩

/-- A reload whose patterns compile leaves what its configuration asks for. -/
theorem program_process {rt : Runtime} {new : LoadedConfig} {safety : SafetyFilter}
    (h : SafetyFilter.new rt new.guardrails=.ok safety) (old : LoadedConfig)
    (world : ReloadWorld) (v : ProcessView) :
    (program old new world).foldl (processWrite rt) v=reloadedProcess rt new safety := by
  obtain ⟨steps,hprogram,-⟩ := program_eq old new world
  have hswap := swapped_of_ok h (steps.foldl (processWrite rt) v).policies
  have hlast : ∀ w, processWrite rt (processWrite rt w (.swapPolicies new)) (.install new)=
      ⟨new,(swapped rt new w.policies).authorizer,swapped rt new w.policies,new.webhooks⟩ :=
    fun _ => rfl
  rw [hprogram,List.foldl_append,List.foldl_cons,List.foldl_cons,List.foldl_nil,hlast,hswap]
  rfl

/-- A registry step neither swaps nor installs. -/
theorem onRegistry_silent {s : ReloadStep} (h : OnRegistry s) :
    isSwap s=false ∧ isInstall s=false := by
  cases s with
  | swapPolicies cfg => exact h.elim
  | install cfg => exact h.elim
  | _ => exact ⟨rfl,rfl⟩

/-- Concurrent reloads that have finished leave an installed process. -/
theorem installed_interleaving {rt : Runtime} {a b old : LoadedConfig}
    {worldA worldB : ReloadWorld} {t : List (Side×ReloadStep)}
    (h : Interleaves (program old a worldA) (program old b worldB) t) (v : ProcessView) :
    Installed ((t.map Prod.snd).foldl (processWrite rt) v) := by
  have hsilent : ∀ s, OnRegistry s→isProcess s=false := by
    intro s hs
    obtain ⟨hswap,hinstall⟩ := onRegistry_silent hs
    unfold isProcess
    rw [hswap,hinstall]
    rfl
  have hprocess : Interleaves ([ReloadStep.swapPolicies a]++[.install a])
      ([ReloadStep.swapPolicies b]++[.install b]) (relevant isProcess t) := by
    have hrelevant := h.relevant isProcess
    rw [program_filter hsilent,program_filter hsilent] at hrelevant
    exact hrelevant
  have hends : ∃ before cfg, (t.map Prod.snd).filter isProcess=before++[.install cfg] := by
    rw [←relevant_map]
    rcases hprocess.snoc_cases with ⟨before,ht,-⟩ | ⟨before,ht,-⟩
    · exact ⟨before.map Prod.snd,a,by rw [ht,List.map_append]; rfl⟩
    · exact ⟨before.map Prod.snd,b,by rw [ht,List.map_append]; rfl⟩
  obtain ⟨before,cfg,hends⟩ := hends
  exact installed_run rt v hends

/-- The configuration that is installed last is remembered. -/
theorem raced_config (rt : Runtime) {a b old : LoadedConfig} {worldA worldB : ReloadWorld}
    {t : List (Side×ReloadStep)}
    (h : Interleaves (program old a worldA) (program old b worldB) t) (v : ProcessView) :
    ((t.map Prod.snd).foldl (processWrite rt) v).config=
      if lastSide isInstall t=some .second then b else a := by
  have hinstall := h.relevant isInstall
  rw [program_filter (fun s hs => (onRegistry_silent hs).2),
    program_filter (fun s hs => (onRegistry_silent hs).2)] at hinstall
  rw [config_run,←relevant_map]
  exact Interleaves.last_decides (l:=[]) (r:=[]) hinstall (fun _ => rfl) (fun _ => rfl) _

/-- The policy objects that are swapped in last stay. -/
theorem raced_policies {rt : Runtime} {a b old : LoadedConfig} {worldA worldB : ReloadWorld}
    {safetyA safetyB : SafetyFilter} (ha : SafetyFilter.new rt a.guardrails=.ok safetyA)
    (hb : SafetyFilter.new rt b.guardrails=.ok safetyB) {t : List (Side×ReloadStep)}
    (h : Interleaves (program old a worldA) (program old b worldB) t) (v : ProcessView) :
    ((t.map Prod.snd).foldl (processWrite rt) v).policies=
      if lastSide isSwap t=some .second then swapped rt b v.policies
      else swapped rt a v.policies := by
  have hswap := h.relevant isSwap
  rw [program_filter (fun s hs => (onRegistry_silent hs).1),
    program_filter (fun s hs => (onRegistry_silent hs).1)] at hswap
  rw [policies_run,←relevant_map,swapped_of_ok ha,swapped_of_ok hb]
  exact Interleaves.last_decides (l:=[]) (r:=[]) hswap (swapped_of_ok ha) (swapped_of_ok hb) _

/-- Two concurrent reloads leave everything besides the registry as the second
one asks for exactly when it installs last and swaps the policies last. -/
theorem process_iff {rt : Runtime} {a b old : LoadedConfig} {worldA worldB : ReloadWorld}
    {safetyA safetyB : SafetyFilter} (ha : SafetyFilter.new rt a.guardrails=.ok safetyA)
    (hb : SafetyFilter.new rt b.guardrails=.ok safetyB) {t : List (Side×ReloadStep)}
    (h : Interleaves (program old a worldA) (program old b worldB) t) (v : ProcessView) :
    (t.map Prod.snd).foldl (processWrite rt) v=reloadedProcess rt b safetyB ↔
      (a=b ∨ lastSide isInstall t=some .second) ∧
      (swapped rt a v.policies=swapped rt b v.policies ∨ lastSide isSwap t=some .second) := by
  have hconfig := raced_config rt h v
  have hpolicies := raced_policies ha hb h v
  have hasked : (reloadedProcess rt b safetyB).policies=swapped rt b v.policies :=
    (swapped_of_ok hb v.policies).symm
  rw [←ite_eq_second (p:=lastSide isInstall t=some .second),←hconfig,
    ←ite_eq_second (p:=lastSide isSwap t=some .second),←hpolicies,←hasked]
  constructor
  · intro he
    rw [he]
    exact ⟨rfl,rfl⟩
  · rintro ⟨hc,hp⟩
    exact installed_ext (installed_interleaving h v) ⟨rfl,rfl⟩ hc hp

/-- What was written by the same steps is the same. -/
theorem same_of_wrote {rt : Runtime} {app x y : AppState} {steps : List ReloadStep}
    (hx : Wrote rt app steps x) (hy : Wrote rt app steps y) : SameOutcome x y := by
  refine ⟨hx.process.trans hy.process.symm,fun sid => ?_⟩
  rw [registered_view 0,registered_view 0,hx.entries,hy.entries]

/-- A reload that has not finished has not changed the remembered
configuration. -/
theorem loading_config {rt : Runtime} {app : AppState} {new : LoadedConfig}
    {world : ReloadWorld} {n : ℕ} (hn : n<(program app.config new world).length) :
    (final (ConfigReload.step rt) ⟨app,none⟩
      ((program app.config new world).take n)).app.config=app.config := by
  obtain ⟨steps,honly,htake | htake⟩ := executed_eq hn
  · rw [htake]
    obtain ⟨registry,hregistry⟩ := run_onRegistry rt ⟨app,none⟩ honly
    rw [hregistry]
    rfl
  · rw [htake]
    obtain ⟨registry,hregistry⟩ := run_onRegistry rt ⟨app,none⟩ honly
    unfold final
    rw [List.foldl_append]
    have hswap : (ConfigReload.step rt (steps.foldl (ConfigReload.step rt) ⟨app,none⟩)
        (.swapPolicies new)).app.config=
        (final (ConfigReload.step rt) ⟨app,none⟩ steps).app.config := rfl
    rw [hregistry] at hswap
    exact hswap

/-- One reload after the other writes what their programs write. -/
theorem serial_wrote {rt : Runtime} {app afterA afterB : AppState} {a b : LoadedConfig}
    {worldA worldB : ReloadWorld} {resultA resultB : ReloadResult}
    (hA : doReload rt app a worldA=.ok (afterA,resultA))
    (hB : doReload rt afterA b worldB=.ok (afterB,resultB)) :
    Wrote rt app (program app.config a worldA++program a b worldB) afterB := by
  have hbegin : Wrote rt app [] app := ⟨rfl,fun _ => rfl⟩
  have hfirst : Wrote rt app (program app.config a worldA) afterA := by
    rw [(doReload_eq hA).1]
    exact wrote_run hbegin none _
  have hloaded : afterA.config=a := by
    rw [(doReload_eq hA).1]
    exact program_config rt _ _ _ _
  have hsecond := wrote_run hfirst none (program a b worldB)
  rw [←hloaded,←(doReload_eq hB).1,hloaded] at hsecond
  exact hsecond

/-- A finished race has executed both programs. -/
theorem finished_progress {rt : Runtime} {app : AppState} {done left right : List ReloadStep}
    {race : Race} (h : Progress rt app done left right race) (hf : race.Finished) :
    ∃ t, Interleaves left right t ∧ race.trace=done.map (fun s => (Side.first,s))++t := by
  obtain ⟨doneA,doneB,t,hleft,hright,hinter,htrace⟩ := h.steps
  rw [hf.1,List.append_nil] at hleft
  rw [hf.2,List.append_nil] at hright
  rw [hleft,hright]
  exact ⟨t,hinter,htrace⟩

/-- When the second reload loads before the first one has finished, their
outcome is that of running them one after the other exactly when the order of
their steps amounts to it. -/
theorem raced_iff {rt : Runtime} {app afterA afterB raced : AppState} {a b : LoadedConfig}
    {worldA worldB : ReloadWorld} {resultA resultB : ReloadResult}
    (hA : doReload rt app a worldA=.ok (afterA,resultA))
    (hB : doReload rt afterA b worldB=.ok (afterB,resultB)) {t : List (Side×ReloadStep)}
    (h : Interleaves (program app.config a worldA) (program app.config b worldB) t)
    (hw : Wrote rt app (t.map Prod.snd) raced) :
    SameOutcome raced afterB ↔ Serialised rt app a b t := by
  obtain ⟨safetyA,hsafetyA⟩ := (doReload_eq hA).2
  obtain ⟨safetyB,hsafetyB⟩ := (doReload_eq hB).2
  have hserial := serial_wrote hA hB
  have hprocess : processView raced=processView afterB ↔
      (a=b ∨ lastSide isInstall t=some .second) ∧
      (swapped rt a (policies app.orchestrator)=swapped rt b (policies app.orchestrator) ∨
        lastSide isSwap t=some .second) := by
    have hafter : processView afterB=reloadedProcess rt b safetyB := by
      rw [hserial.process,List.foldl_append]
      exact program_process hsafetyB a worldB _
    rw [hw.process,hafter]
    exact process_iff hsafetyA hsafetyB h (processView app)
  have hservers : ∀ sid, registered raced sid=registered afterB sid ↔
      EntrySettled (app.config.configured sid) (a.configured sid) (b.configured sid)
        (registered app sid) (lastSide (writes sid) t) := by
    intro sid
    have hentries := h.relevant (writes sid)
    rw [program_writes,program_writes] at hentries
    have hraced : view 0 sid raced.registry=
        ((relevant (writes sid) t).map Prod.snd).foldl (write sid) (view 0 sid app.registry) := by
      rw [hw.entries,foldl_writes,relevant_map]
    have hafter : view 0 sid afterB.registry=
        reloadedView (a.configured sid) (b.configured sid)
          (reloadedView (app.config.configured sid) (a.configured sid)
            (view 0 sid app.registry)) := by
      rw [hserial.entries,List.foldl_append,program_fold,program_fold]
    rw [registered_view 0 raced,registered_view 0 afterB,registered_view 0 app,hraced,hafter]
    exact settled_iff (fun server hs => (configured_mem hs).2)
      (fun server hs => (configured_mem hs).2) hentries _
  constructor
  · intro hsame
    obtain ⟨hconfig,hpolicies⟩ := hprocess.mp hsame.process
    exact ⟨hconfig,hpolicies,fun sid => (hservers sid).mp (hsame.servers sid)⟩
  · intro hs
    exact ⟨hprocess.mpr ⟨hs.config,hs.policies⟩,fun sid => (hservers sid).mpr (hs.servers sid)⟩

/-- Two reloads that have finished, the second one loading when the first has
executed `k` steps, leave the configuration, the policy objects and the
registered servers of running them one after the other exactly when the first
had finished by then or the order of the steps amounts to it. -/
theorem serialises_iff (rt : Runtime) (app : AppState) (a b : LoadedConfig)
    (worldA worldB : ReloadWorld) (k : ℕ) (turns : List Side) (afterA afterB : AppState)
    (resultA resultB : ReloadResult)
    (hA : doReload rt app a worldA=.ok (afterA,resultA))
    (hB : doReload rt afterA b worldB=.ok (afterB,resultB))
    (hf : (final (Race.turn rt) (loaded rt app a worldA b worldB k) turns).Finished) :
    SameOutcome (final (Race.turn rt) (loaded rt app a worldA b worldB k) turns).app afterB ↔
      (program app.config a worldA).length≤k ∨
      Serialised rt app a b
        (final (Race.turn rt) (loaded rt app a worldA b worldB k) turns).trace := by
  have hprogress := final_invariant (fun race side => progress_turn race side)
    (loaded_progress rt app a worldA b worldB k) turns
  obtain ⟨t,hinter,htrace⟩ := finished_progress hprogress hf
  have hwrote := hprogress.wrote
  generalize final (Race.turn rt) (loaded rt app a worldA b worldB k) turns=race at *
  by_cases hk : (program app.config a worldA).length≤k
  · have hconfig : (loaded rt app a worldA b worldB k).app.config=a := by
      have happ : (loaded rt app a worldA b worldB k).app=
          (final (ConfigReload.step rt) ⟨app,none⟩ (program app.config a worldA)).app := by
        unfold loaded
        dsimp only
        rw [List.take_of_length_le hk]
      rw [happ]
      exact program_config rt _ _ _ _
    rw [hconfig,List.drop_of_length_le hk] at hinter
    rw [htrace,List.map_append,labelled_steps,hinter.second_only,List.take_of_length_le hk]
      at hwrote
    exact ⟨fun _ => Or.inl hk,fun _ => same_of_wrote hwrote (serial_wrote hA hB)⟩
  · have hconfig : (loaded rt app a worldA b worldB k).app.config=app.config :=
      loading_config (not_le.mp hk)
    rw [hconfig] at hinter
    have hall := hinter.prepend ((program app.config a worldA).take k)
    rw [List.take_append_drop,←htrace] at hall
    rw [raced_iff hA hB hall hwrote]
    exact ⟨Or.inr,fun h => h.resolve_left hk⟩

/-- A process without servers. -/
def emptyApp : AppState := plainApp (plainConfig []) []

/-- Two reloads of the process without servers, the second one loading after
the first step of the first one. -/
def raceOf (a b : LoadedConfig) (turns : List Side) : Race :=
  final (Race.turn asciiRuntime) (loaded asciiRuntime emptyApp a quietWorld b quietWorld 1) turns

theorem serialises_iff_second_last : ∃ afterA resultA afterB resultB,
    doReload asciiRuntime emptyApp (plainConfig [plainServer "a"]) quietWorld=
      .ok (afterA,resultA) ∧
    doReload asciiRuntime afterA (plainConfig [{id := "a",tags := ["t"]}]) quietWorld=
      .ok (afterB,resultB) ∧
    (raceOf (plainConfig [plainServer "a"]) (plainConfig [{id := "a",tags := ["t"]}])
      [.first,.second,.first,.second,.first,.second,.second]).Finished ∧
    SameOutcome (raceOf (plainConfig [plainServer "a"]) (plainConfig [{id := "a",tags := ["t"]}])
      [.first,.second,.first,.second,.first,.second,.second]).app afterB := by
  refine ⟨_,_,_,_,rfl,rfl,⟨rfl,rfl⟩,(serialises_iff asciiRuntime emptyApp _ _ quietWorld
    quietWorld 1 _ _ _ _ _ rfl rfl ⟨rfl,rfl⟩).mpr
    (Or.inr ⟨Or.inr rfl,Or.inl rfl,fun sid => ?_⟩)⟩
  by_cases hs : "a"=sid
  · subst hs
    exact Or.inr (Or.inl rfl)
  · have hfirst : (plainConfig [plainServer "a"]).configured sid=none :=
      configured_eq_none.mpr (fun h => hs (List.mem_singleton.mp h).symm)
    have hsecond : (plainConfig [{id := "a",tags := ["t"]}]).configured sid=none :=
      configured_eq_none.mpr (fun h => hs (List.mem_singleton.mp h).symm)
    rw [hfirst,hsecond]
    trivial

/-- The older configuration is remembered when its reload finishes last, and
the server that it adds outlives the newer one whichever finishes last. -/
theorem older_overwrites : ∃ afterA resultA afterB resultB,
    doReload asciiRuntime emptyApp (plainConfig [plainServer "a"]) quietWorld=
      .ok (afterA,resultA) ∧
    doReload asciiRuntime afterA (plainConfig []) quietWorld=.ok (afterB,resultB) ∧
    (raceOf (plainConfig [plainServer "a"]) (plainConfig [])
      [.second,.second,.first,.first,.first]).Finished ∧
    (raceOf (plainConfig [plainServer "a"]) (plainConfig [])
      [.second,.second,.first,.first,.first]).app.config.ids=["a"] ∧
    ¬SameOutcome (raceOf (plainConfig [plainServer "a"]) (plainConfig [])
      [.second,.second,.first,.first,.first]).app afterB ∧
    (raceOf (plainConfig [plainServer "a"]) (plainConfig [])
      [.first,.first,.first,.second,.second]).Finished ∧
    (raceOf (plainConfig [plainServer "a"]) (plainConfig [])
      [.first,.first,.first,.second,.second]).app.config.ids=[] ∧
    ¬SameOutcome (raceOf (plainConfig [plainServer "a"]) (plainConfig [])
      [.first,.first,.first,.second,.second]).app afterB := by
  refine ⟨_,_,_,_,rfl,rfl,⟨rfl,rfl⟩,rfl,fun h => ?_,⟨rfl,rfl⟩,rfl,fun h => ?_⟩
  · have hconfig := congrArg (fun v => v.config.ids) h.process
    exact absurd hconfig (by decide +kernel)
  · exact absurd (h.servers "a") (by decide +kernel)

end McpGateway.ConcurrentReloads
