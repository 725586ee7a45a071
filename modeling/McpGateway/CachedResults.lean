import Mathlib
import McpGateway.PyDict
import McpGateway.StepRun
import McpGateway.TimedMap
import McpGateway.JsonValue
import McpGateway.JsonEncoding
import McpGateway.GatewaySettings
import McpGateway.CircuitBreakers
import McpGateway.ToolNaming
import McpGateway.RegistryRuns
import McpGateway.ToolRouting
import McpGateway.ToolAuthorizer
import McpGateway.PyRuntime
import McpGateway.PiiRedactor
import McpGateway.Guardrails
import McpGateway.ResultCache
import McpGateway.StoreRefinement
import McpGateway.UpstreamContent
import McpGateway.ToolOrchestrator
import McpGateway.CallMediation
import McpGateway.GatewayRuns
import McpGateway.CacheProvenance

/-!
# When a call is answered from the cache

The results of a gateway are a map with deadlines: a finished call writes into
it, the swap of the policies empties it, and everything else that happens
leaves its answers alone, although lookups delete what has expired. A call that
passes the gates is answered from the cache exactly when the last result that
was offered for its tool and arguments since the last swap is still alive.
-/

namespace McpGateway.CachedResults

open PyDict StepRun TimedMap JsonValue JsonEncoding GatewaySettings CircuitBreakers ToolNaming
open RegistryRuns ToolRouting ToolAuthorizer PyRuntime PiiRedactor Guardrails ResultCache
open StoreRefinement UpstreamContent ToolOrchestrator CallMediation GatewayRuns CacheProvenance

section Definitions

variable (rt : Runtime)

/-- The result that an effect hands to the cache, with its tool and arguments. -/
def offer : Effect→Option (String×Json×Json)
  | .storeResult qualified arguments content => some (qualified,arguments,content)
  | _ => none

/-- The result that a step offers to the cache. -/
def offered (taken : Gateway×GatewayAction) : Option (String×Json×Json) :=
  match taken.2 with
  | .callFinish index outcome =>
    taken.1.pending[index]?.bind (fun call =>
      (finishCall rt taken.1.orchestrator taken.1.clock call
        (clientAnswer rt outcome)).effects.findSome? offer)
  | _ => none

/-- A reload whose guardrail patterns compile installs a new cache. -/
def installs : GatewayAction→Bool
  | .reload cfg => (SafetyFilter.new rt cfg.guardrails).isOk
  | _ => false

/-- The settings let results of the tool be stored and looked up. -/
abbrev Caches (cache : ToolCache ToolManifest) (qualifiedName : String) : Prop :=
  cache.cfg.enabled=true ∧ 0<cache.toolTtl qualifiedName

/-- What an offered result writes into the map of a cache. -/
def putBy (cache : ToolCache ToolManifest) (now : ℚ) (result : String×Json×Json) :
    Option (Write String Json ℚ) :=
  if Caches cache result.1 then
    some (.put (ToolCache.resultKey rt result.1 result.2.1) result.2.2
      (now+cache.toolTtl result.1))
  else none

/-- What a step writes into the map of results. -/
def written (taken : Gateway×GatewayAction) : Option (Write String Json ℚ) :=
  if installs rt taken.2=true then some .reset
  else taken.1.orchestrator.cache.bind (fun cache =>
    (offered rt taken).bind (putBy rt cache taken.1.clock))

/-- A step of the run. -/
abbrev move (g : Gateway) (a : GatewayAction) : Gateway := (GatewayRuns.step rt g a).1

/-- The last result that was offered for the tool and for equal arguments has
this content, no policies were swapped since, and its lifetime is not over. -/
def Standing (steps : List (Gateway×GatewayAction)) (cache : ToolCache ToolManifest) (now : ℚ)
    (qualifiedName : String) (arguments content : Json) : Prop :=
  ∃ before taken later stored, steps=before++taken::later ∧
    offered rt taken=some (qualifiedName,stored,content) ∧ SameArguments rt stored arguments ∧
    now≤taken.1.clock+cache.toolTtl qualifiedName ∧
    ∀ other∈later, installs rt other.2=false ∧
      ∀ args value, offered rt other=some (qualifiedName,args,value)→
        ¬SameArguments rt args arguments

end Definitions

section Caches

variable {rt : Runtime} {cache : ToolCache ToolManifest}

/-- Otherwise both directions are switched off. -/
theorem not_caches {qualifiedName : String} : ¬Caches cache qualifiedName ↔
    cache.cfg.enabled=false ∨ cache.toolTtl qualifiedName≤0 := by
  rw [Caches,not_and_or,Bool.not_eq_true,not_lt]

/-- A lookup answers what the map has, but for null. -/
theorem getResult_iff {qualifiedName : String} {arguments content : Json} {now : ℚ} :
    (cache.getResult rt qualifiedName arguments now).2=some content ↔
      Caches cache qualifiedName ∧ content≠.null ∧
      lookup (held cache.resultStore) (ToolCache.resultKey rt qualifiedName arguments) now=
        some content := by
  unfold ToolCache.getResult
  by_cases hcaches : Caches cache qualifiedName
  · rw [if_neg (mt not_caches.mpr (not_not.mpr hcaches))]
    dsimp only
    rw [Option.filter_eq_some_iff,get_lookup,decide_eq_true_eq]
    exact ⟨fun h => ⟨hcaches,h.2,h.1⟩,fun h => ⟨h.2.2,h.2.1⟩⟩
  · rw [if_pos (not_caches.mp hcaches)]
    exact ⟨fun h => (by cases h),fun h => absurd h.1 hcaches⟩

/-- It leaves a map that answers alike from then on. -/
theorem getResult_sameFrom (qualifiedName : String) (arguments : Json) (now : ℚ) :
    SameFrom now (held (cache.getResult rt qualifiedName arguments now).1.resultStore)
      (held cache.resultStore) := by
  unfold ToolCache.getResult
  split
  · exact .refl now _
  · exact get_sameFrom cache.resultStore _ now

/-- Storing writes what is offered. -/
theorem held_setResult (result : String×Json×Json) (now : ℚ) :
    held (cache.setResult rt result.1 result.2.1 result.2.2 now).resultStore=
      (putBy rt cache now result).elim (held cache.resultStore)
        (apply (held cache.resultStore)) := by
  unfold ToolCache.setResult putBy
  by_cases hcaches : Caches cache result.1
  · rw [if_neg (mt not_caches.mpr (not_not.mpr hcaches)),if_pos hcaches]
    exact held_set cache.resultStore _ _ now hcaches.2
  · rw [if_pos (not_caches.mp hcaches),if_neg hcaches]
    rfl

/-- Storing keeps the settings. -/
theorem setResult_cfg (qualifiedName : String) (arguments content : Json) (now : ℚ) :
    (cache.setResult rt qualifiedName arguments content now).cfg=cache.cfg := by
  unfold ToolCache.setResult
  split <;> rfl

/-- A manifest request leaves the settings and the results alone. -/
theorem buildManifest_results {o : Orchestrator} (hc : o.cache=some cache) (now : ℚ)
    (tag : Option String) :
    ∃ later, (buildManifest o now tag).1.cache=some later ∧ later.cfg=cache.cfg ∧
      later.resultStore=cache.resultStore := by
  have hget : (cache.getManifest now).1.cfg=cache.cfg ∧
      (cache.getManifest now).1.resultStore=cache.resultStore := by
    unfold ToolCache.getManifest
    split <;> exact ⟨rfl,rfl⟩
  have hset : ∀ (other : ToolCache ToolManifest) manifest,
      (other.setManifest manifest now).cfg=other.cfg ∧
      (other.setManifest manifest now).resultStore=other.resultStore := by
    intro other manifest
    unfold ToolCache.setManifest
    split <;> exact ⟨rfl,rfl⟩
  unfold buildManifest
  rw [hc]
  cases tag with
  | some text => exact ⟨cache,hc,rfl,rfl⟩
  | none =>
    dsimp only
    cases (cache.getManifest now).2 with
    | some manifest => exact ⟨_,rfl,hget.1,hget.2⟩
    | none => exact ⟨_,rfl,(hset _ _).1.trans hget.1,(hset _ _).2.trans hget.2⟩

/-- The first half of a call only looks a result up. -/
theorem startCall_results {o : Orchestrator} (hc : o.cache=some cache) (now : ℚ)
    (request : CallRequest) :
    ∃ later, (startCall rt o now request).orchestrator.cache=some later ∧ later.cfg=cache.cfg ∧
      SameFrom now (held later.resultStore) (held cache.resultStore) := by
  rcases mediated_or_none rt o now request with ⟨f,sent,reqRedacted,rfl,hmediated⟩ | hnot
  · have hlook : ∃ later, (lookupResult rt (rateGate o now f).1 now f sent).1.cache=some later ∧
        later.cfg=cache.cfg ∧ SameFrom now (held later.resultStore) (held cache.resultStore) := by
      have hcache := (rateGate_cache o now f).trans hc
      unfold lookupResult
      rw [hcache]
      dsimp only
      split
      · exact ⟨cache,hcache,rfl,.refl now _⟩
      · exact ⟨_,rfl,ToolCache.getResult_cfg rt cache _ _ now,getResult_sameFrom _ _ now⟩
    rw [startCall_mediated hmediated]
    split <;> exact hlook
  · obtain ⟨outcome,-,-,hcache,-⟩ := startCall_not_mediated hnot
    exact ⟨cache,hcache.trans hc,rfl,.refl now _⟩

/-- Reports offer nothing. -/
theorem findSome_reports {effects : List Effect} (h : ∀ e∈effects, IsReport e) :
    effects.findSome? offer=none := by
  rw [List.findSome?_eq_none_iff]
  intro e he
  cases e with
  | storeResult qualified arguments content => exact (h _ he).elim
  | toolCall serverId tool status => rfl
  | audit record => rfl
  | webhook event payload => rfl
  | upstream client tool sent agentId => rfl

/-- Only what the second half of a call offers is written, and it offers the
arguments that it sent. -/
theorem finishCall_results {o : Orchestrator} (hc : o.cache=some cache) (now : ℚ)
    (call : PendingCall) (answer : UpstreamAnswer) :
    ∃ later, (finishCall rt o now call answer).orchestrator.cache=some later ∧
      later.cfg=cache.cfg ∧ held later.resultStore=
        (((finishCall rt o now call answer).effects.findSome? offer).bind
          (putBy rt cache now)).elim (held cache.resultStore) (apply (held cache.resultStore)) ∧
      ∀ result, (finishCall rt o now call answer).effects.findSome? offer=some result→
        result.2.1=call.sent := by
  have hreported : ∀ effects : List Effect, (∀ e∈effects, IsReport e)→
      held cache.resultStore=((effects.findSome? offer).bind (putBy rt cache now)).elim
        (held cache.resultStore) (apply (held cache.resultStore)) ∧
      ∀ result, effects.findSome? offer=some result→ result.2.1=call.sent := by
    intro effects h
    rw [findSome_reports h]
    exact ⟨rfl,fun _ hresult => (by cases hresult)⟩
  have hfailed : ∀ status text, ∀ e∈failureEffects o call now status text, IsReport e := by
    intro status text e he
    rcases List.mem_append.mp he with he | he
    · rcases List.mem_cons.mp he with rfl | he
      · trivial
      · exact emitAudit_report he
    · exact dispatch_report he
  cases answer with
  | upstreamError e => exact ⟨cache,hc,rfl,hreported _ (hfailed _ _)⟩
  | exception text => exact ⟨cache,hc,rfl,hreported _ (hfailed _ _)⟩
  | cancelled => exact ⟨cache,hc,rfl,rfl,fun _ hresult => (by cases hresult)⟩
  | content value =>
    unfold finishCall
    dsimp only
    cases o.redactor.redact rt .response value with
    | error text => exact ⟨cache,hc,rfl,rfl,fun _ hresult => (by cases hresult)⟩
    | ok redacted =>
      obtain ⟨clean,respRedacted⟩ := redacted
      dsimp only
      unfold storeResult
      rw [hc]
      dsimp only
      by_cases hmutable : call.frame.mutable=true
      · rw [if_pos hmutable]
        refine ⟨cache,hc,rfl,hreported _ ?_⟩
        intro e he
        rcases List.mem_append.mp he with he | he
        · rcases List.mem_cons.mp he with rfl | he
          · trivial
          · exact emitAudit_report he
        · exact dispatch_report he
      · rw [if_neg hmutable]
        refine ⟨_,rfl,setResult_cfg _ _ _ now,
          held_setResult (call.frame.qualified,call.sent,clean) now,?_⟩
        intro result hresult
        cases hresult
        rfl

end Caches

section Runs

variable {rt : Runtime}

/-- What a step writes into the map of a cache that it keeps. -/
theorem written_kept {g : Gateway} {cache : ToolCache ToolManifest}
    (hc : g.orchestrator.cache=some cache) {a : GatewayAction} (h : installs rt a=false) :
    written rt (g,a)=(offered rt (g,a)).bind (putBy rt cache g.clock) := by
  unfold written
  rw [if_neg (by rw [h]; exact Bool.false_ne_true),hc]
  rfl

/-- One step writes into the map what it offers, and a cache keeps its settings
until the next one is installed. -/
theorem move_results (rt : Runtime) {g : Gateway} {cache : ToolCache ToolManifest}
    (hc : g.orchestrator.cache=some cache) (a : GatewayAction) :
    ∃ later, (move rt g a).orchestrator.cache=some later ∧ g.clock≤(move rt g a).clock ∧
      (installs rt a=false→later.cfg=cache.cfg) ∧
      SameFrom (move rt g a).clock (held later.resultStore)
        (perform (written rt) (held cache.resultStore) (g,a)) := by
  have hsilent : offered rt (g,a)=none→installs rt a=false→
      perform (written rt) (held cache.resultStore) (g,a)=held cache.resultStore := by
    intro hnothing hkept
    rw [perform,written_kept hc hkept,hnothing]
    rfl
  cases a with
  | registry action => exact ⟨cache,hc,le_rfl,fun _ => rfl,(hsilent rfl rfl).symm ▸ .refl _ _⟩
  | installWebhooks => exact ⟨cache,hc,le_rfl,fun _ => rfl,(hsilent rfl rfl).symm ▸ .refl _ _⟩
  | reload cfg =>
    have horchestrator : (move rt g (.reload cfg)).orchestrator=
        swapPolicies rt cfg g.orchestrator := rfl
    have hreset : installs rt (.reload cfg)=true→
        perform (written rt) (held cache.resultStore) (g,.reload cfg)=empty := by
      intro hnew
      rw [perform,written,if_pos hnew]
      rfl
    rw [horchestrator]
    unfold swapPolicies
    cases hsafety : SafetyFilter.new rt cfg.guardrails with
    | error text =>
      have hkept : installs rt (.reload cfg)=false := by
        rw [installs,hsafety]
        rfl
      exact ⟨cache,hc,le_rfl,fun _ => rfl,(hsilent rfl hkept).symm ▸ .refl _ _⟩
    | ok safety =>
      have hnew : installs rt (.reload cfg)=true := by
        rw [installs,hsafety]
        rfl
      refine ⟨_,rfl,le_rfl,?_,?_⟩
      · intro hkept
        exact absurd (hnew.symm.trans hkept) Bool.noConfusion
      · rw [hreset hnew]
        exact .refl _ _
  | manifest tag =>
    obtain ⟨later,hlater,hcfg,hresults⟩ := buildManifest_results hc g.clock tag
    refine ⟨later,hlater,le_rfl,fun _ => hcfg,?_⟩
    rw [hsilent rfl rfl,hresults]
    exact .refl _ _
  | tick elapsed =>
    have hpos : (0:ℚ)≤elapsed := elapsed.2
    have hclock : g.clock≤g.clock+elapsed := by linarith
    exact ⟨cache,hc,hclock,fun _ => rfl,(hsilent rfl rfl).symm ▸ .refl _ _⟩
  | callStart request =>
    obtain ⟨later,hlater,hcfg,hsame⟩ := startCall_results hc g.clock request
    refine ⟨later,hlater,le_rfl,fun _ => hcfg,?_⟩
    rw [hsilent rfl rfl]
    exact hsame
  | callFinish index outcome =>
    cases hcall : g.pending[index]? with
    | none =>
      have hmove : move rt g (.callFinish index outcome)=g := by
        unfold move GatewayRuns.step
        dsimp only
        rw [hcall]
      have hnothing : offered rt (g,.callFinish index outcome)=none := by
        unfold offered
        dsimp only
        rw [hcall]
        rfl
      rw [hmove,hsilent hnothing rfl]
      exact ⟨cache,hc,le_rfl,fun _ => rfl,.refl _ _⟩
    | some call =>
      have hmove : move rt g (.callFinish index outcome)={g with
          orchestrator :=
            (finishCall rt g.orchestrator g.clock call (clientAnswer rt outcome)).orchestrator
          pending := g.pending.eraseIdx index} := by
        unfold move GatewayRuns.step
        dsimp only
        rw [hcall]
      have hoffered : offered rt (g,.callFinish index outcome)=
          (finishCall rt g.orchestrator g.clock call
            (clientAnswer rt outcome)).effects.findSome? offer := by
        unfold offered
        dsimp only
        rw [hcall]
        rfl
      obtain ⟨later,hlater,hcfg,hresults,-⟩ :=
        finishCall_results hc g.clock call (clientAnswer rt outcome)
      rw [hmove]
      refine ⟨later,hlater,le_rfl,fun _ => hcfg,?_⟩
      rw [perform,written_kept hc rfl,hoffered,←hresults]
      exact .refl _ _

/-- A run writes into the map what its steps offer. -/
theorem run_results (rt : Runtime) {g : Gateway} {cache : ToolCache ToolManifest}
    {m : Timed String Json ℚ} (hc : g.orchestrator.cache=some cache)
    (hm : SameFrom g.clock (held cache.resultStore) m) (actions : List GatewayAction) :
    ∃ later, (final (move rt) g actions).orchestrator.cache=some later ∧
      SameFrom (final (move rt) g actions).clock (held later.resultStore)
        (replay (written rt) m (trail (move rt) g actions)) := by
  induction actions generalizing g cache m with
  | nil => exact ⟨cache,hc,hm⟩
  | cons a as ih =>
    obtain ⟨next,hnext,hclock,-,hsame⟩ := move_results rt hc a
    exact ih hnext (hsame.trans ((hm.later hclock).perform (written rt) (g,a)))

/-- Without a new cache the settings stay, step for step. -/
theorem run_settings {g : Gateway} {cache : ToolCache ToolManifest}
    (hc : g.orchestrator.cache=some cache) (actions : List GatewayAction)
    (h : ∀ taken∈trail (move rt) g actions, installs rt taken.2=false) :
    (∃ later, (final (move rt) g actions).orchestrator.cache=some later ∧
      later.cfg=cache.cfg) ∧
    ∀ taken∈trail (move rt) g actions, ∃ found, taken.1.orchestrator.cache=some found ∧
      found.cfg=cache.cfg := by
  induction actions generalizing g cache with
  | nil => exact ⟨⟨cache,hc,rfl⟩,fun _ hmem => absurd hmem List.not_mem_nil⟩
  | cons a as ih =>
    obtain ⟨hhead,htail⟩ := List.forall_mem_cons.mp h
    obtain ⟨next,hnext,-,hcfg,-⟩ := move_results rt hc a
    obtain ⟨⟨later,hlater,hlast⟩,hall⟩ := ih hnext htail
    refine ⟨⟨later,hlater,hlast.trans (hcfg hhead)⟩,?_⟩
    intro taken hmem
    rcases List.mem_cons.mp hmem with rfl | hmem
    · exact ⟨cache,hc,rfl⟩
    · obtain ⟨found,hfound,hsame⟩ := hall taken hmem
      exact ⟨found,hfound,hsame.trans (hcfg hhead)⟩

/-- An offering step finishes a call, whose arguments it offers. -/
theorem offered_pending {taken : Gateway×GatewayAction} {cache : ToolCache ToolManifest}
    (hc : taken.1.orchestrator.cache=some cache) {result : String×Json×Json}
    (h : offered rt taken=some result) :
    installs rt taken.2=false ∧ ∃ call∈taken.1.pending, call.sent=result.2.1 := by
  obtain ⟨g,a⟩ := taken
  cases a with
  | callFinish index outcome =>
    obtain ⟨call,hcall,hoffer⟩ := Option.bind_eq_some_iff.mp h
    obtain ⟨-,-,-,-,hsent⟩ := finishCall_results hc g.clock call (clientAnswer rt outcome)
    exact ⟨rfl,call,List.mem_of_getElem? hcall,(hsent result hoffer).symm⟩
  | registry action => cases h
  | installWebhooks => cases h
  | reload cfg => cases h
  | manifest tag => cases h
  | tick elapsed => cases h
  | callStart request => cases h

/-- What is written depends on the settings of the cache only. -/
theorem putBy_cfg {cache cache' : ToolCache ToolManifest} (h : cache.cfg=cache'.cfg) :
    putBy rt cache=putBy rt cache' := by
  have httl : cache.toolTtl=cache'.toolTtl := by
    funext qualifiedName
    unfold ToolCache.toolTtl
    rw [h]
  funext now result
  simp only [putBy,Caches,h,httl]

/-- From a step that installs no cache to the end of a run that does not
either, everything is written under the settings of the last cache. -/
theorem trail_written {g : Gateway} {first last : ToolCache ToolManifest}
    (hfirst : g.orchestrator.cache=some first) {actions : List GatewayAction}
    (hlast : (final (move rt) g actions).orchestrator.cache=some last)
    {before later : List (Gateway×GatewayAction)} {taken : Gateway×GatewayAction}
    (hsplit : trail (move rt) g actions=before++taken::later)
    (hkept : ∀ other∈taken::later, installs rt other.2=false) :
    ∀ other∈taken::later, (∃ cache, other.1.orchestrator.cache=some cache) ∧
      written rt other=(offered rt other).bind (putBy rt last other.1.clock) := by
  obtain ⟨earlier,rest,rfl,hstate,rfl⟩ := trail_split hsplit
  have hbegin : SameFrom g.clock (held first.resultStore) (held first.resultStore) := .refl _ _
  obtain ⟨found,hfound,-⟩ := run_results rt hfirst hbegin earlier
  rw [←hstate] at hfound
  have htrail : trail (move rt) taken.1 (taken.2::rest)=
      taken::trail (move rt) (move rt taken.1 taken.2) rest := rfl
  obtain ⟨⟨end',hend,hcfg⟩,hall⟩ := run_settings hfound (taken.2::rest)
    (by rw [htrail]; exact hkept)
  have hfinal : final (move rt) g (earlier++taken.2::rest)=
      final (move rt) taken.1 (taken.2::rest) := by
    rw [final,List.foldl_append,hstate]
  rw [hfinal,hend] at hlast
  cases hlast
  intro other hmem
  obtain ⟨cache,hcache,hsame⟩ := hall other (htrail ▸ hmem)
  have hwritten : written rt other=(offered rt other).bind (putBy rt cache other.1.clock) :=
    written_kept hcache (hkept other hmem)
  rw [putBy_cfg (hsame.trans hcfg.symm)] at hwritten
  exact ⟨⟨cache,hcache⟩,hwritten⟩

/-- A step writes under a key exactly when it offers a result for the tool and
for equal arguments. -/
theorem affects_iff {last : ToolCache ToolManifest} {qualifiedName : String} {arguments : Json}
    (hcaches : Caches last qualifiedName) {other : Gateway×GatewayAction}
    (hwritten : written rt other=(offered rt other).bind (putBy rt last other.1.clock))
    (hkey : ∀ name args value, offered rt other=some (name,args,value)→
      (ToolCache.resultKey rt name args=ToolCache.resultKey rt qualifiedName arguments ↔
        name=qualifiedName ∧ SameArguments rt args arguments)) :
    (∃ w, written rt other=some w ∧
      w.Affects (ToolCache.resultKey rt qualifiedName arguments)) ↔
    ∃ args value, offered rt other=some (qualifiedName,args,value) ∧
      SameArguments rt args arguments := by
  rw [hwritten]
  constructor
  · rintro ⟨w,hw,haffects⟩
    obtain ⟨⟨name,args,value⟩,hoffered,hput⟩ := Option.bind_eq_some_iff.mp hw
    unfold putBy at hput
    split at hput
    · cases hput
      obtain ⟨rfl,hargs⟩ := (hkey name args value hoffered).mp haffects
      exact ⟨args,value,hoffered,hargs⟩
    · cases hput
  · rintro ⟨args,value,hoffered,hargs⟩
    refine ⟨_,Option.bind_eq_some_iff.mpr ⟨_,hoffered,if_pos hcaches⟩,?_⟩
    exact (hkey _ args value hoffered).mpr ⟨rfl,hargs⟩

/-- The map of a run has a result under a key exactly when it stands. -/
theorem standing_iff {g : Gateway} {first last : ToolCache ToolManifest}
    (hfirst : g.orchestrator.cache=some first) {actions : List GatewayAction}
    (hlast : (final (move rt) g actions).orchestrator.cache=some last) {qualifiedName : String}
    {arguments : Json} (hcaches : Caches last qualifiedName)
    (hkey : ∀ taken∈trail (move rt) g actions, ∀ name args value,
      offered rt taken=some (name,args,value)→
      (ToolCache.resultKey rt name args=ToolCache.resultKey rt qualifiedName arguments ↔
        name=qualifiedName ∧ SameArguments rt args arguments)) {content : Json} {now : ℚ} :
    lookup (replay (written rt) empty (trail (move rt) g actions))
      (ToolCache.resultKey rt qualifiedName arguments) now=some content ↔
    Standing rt (trail (move rt) g actions) last now qualifiedName arguments content := by
  rw [lookup_iff]
  constructor
  · rintro ⟨deadline,hheld,hlive⟩
    obtain ⟨before,taken,later,hsplit,hput,hlater⟩ := (replay_iff _ _ _ _ _).mp hheld
    have hmem : ∀ other∈taken::later, other∈trail (move rt) g actions := by
      intro other hother
      rw [hsplit]
      exact List.mem_append_right _ hother
    have hkept : ∀ other∈taken::later, installs rt other.2=false := by
      intro other hother
      by_contra hnew
      have hreset : written rt other=some .reset := if_pos (Bool.not_eq_false _ ▸ hnew)
      rcases List.mem_cons.mp hother with rfl | hother
      · cases hput.symm.trans hreset
      · exact hlater other hother _ hreset trivial
    have hwritten := trail_written hfirst hlast hsplit hkept
    have htaken := (hwritten taken List.mem_cons_self).2
    rw [htaken] at hput
    obtain ⟨⟨name,stored,value⟩,hoffered,hresult⟩ := Option.bind_eq_some_iff.mp hput
    have hsame := hkey taken (hmem taken List.mem_cons_self) name stored value hoffered
    unfold putBy at hresult
    split at hresult
    · have hwrite := Option.some.inj hresult
      injection hwrite with hnames hvalue hdeadline
      obtain ⟨rfl,hargs⟩ := hsame.mp hnames
      subst hvalue hdeadline
      refine ⟨before,taken,later,stored,hsplit,hoffered,hargs,hlive,fun other hother => ?_⟩
      have hin := List.mem_cons_of_mem taken hother
      refine ⟨hkept other hin,fun args value' hagain hequal => ?_⟩
      obtain ⟨w,hw,haffects⟩ := (affects_iff hcaches (hwritten other hin).2
        (hkey other (hmem other hin))).mpr ⟨args,value',hagain,hequal⟩
      exact hlater other hother w hw haffects
    · cases hresult
  · rintro ⟨before,taken,later,stored,hsplit,hoffered,hargs,hlive,hlater⟩
    have hmem : ∀ other∈taken::later, other∈trail (move rt) g actions := by
      intro other hother
      rw [hsplit]
      exact List.mem_append_right _ hother
    have hbegin : SameFrom g.clock (held first.resultStore) (held first.resultStore) := .refl _ _
    obtain ⟨earlier,rest,-,hstate,-⟩ := trail_split hsplit
    obtain ⟨found,hfound,-⟩ := run_results rt hfirst hbegin earlier
    rw [←hstate] at hfound
    have hkept : ∀ other∈taken::later, installs rt other.2=false := by
      intro other hother
      rcases List.mem_cons.mp hother with rfl | hother
      · exact (offered_pending hfound hoffered).1
      · exact (hlater other hother).1
    have hwritten := trail_written hfirst hlast hsplit hkept
    have hput : written rt taken=some (.put (ToolCache.resultKey rt qualifiedName arguments) content
        (taken.1.clock+last.toolTtl qualifiedName)) := by
      have hsame := (hkey taken (hmem taken List.mem_cons_self) _ _ _ hoffered).mpr ⟨rfl,hargs⟩
      rw [(hwritten taken List.mem_cons_self).2,hoffered,←hsame]
      exact if_pos hcaches
    refine ⟨_,(replay_iff _ _ _ _ _).mpr ⟨before,taken,later,hsplit,hput,?_⟩,hlive⟩
    intro other hother w hw haffects
    have hin := List.mem_cons_of_mem taken hother
    obtain ⟨args,value,hagain,hequal⟩ := (affects_iff hcaches (hwritten other hin).2
      (hkey other (hmem other hin))).mp ⟨w,hw,haffects⟩
    exact (hlater other hother).2 args value hagain hequal

/-- A booted gateway has an empty cache. -/
theorem boot_results {cfg : GatewayConfig} {cbPolicy : CircuitBreakerPolicy} {now : ℚ}
    {g : Gateway} (hb : boot rt cfg cbPolicy now=.ok g) :
    ∃ cache, g.orchestrator.cache=some cache ∧ held cache.resultStore=empty := by
  unfold boot at hb
  cases hs : SafetyFilter.new rt cfg.guardrails with
  | error text =>
    rw [hs] at hb
    cases hb
  | ok safety =>
    rw [hs] at hb
    cases hb
    exact ⟨_,rfl,rfl⟩

/-- Equal digests of arguments of the run are equal arguments. -/
theorem resultKey_iff {events : List GatewayEvent} (hsha : NoCollision rt events)
    {name qualifiedName : String} {args arguments : Json} (ha : SentIn rt events args)
    (hb : SentIn rt events arguments) :
    ToolCache.resultKey rt name args=ToolCache.resultKey rt qualifiedName arguments ↔
      name=qualifiedName ∧ SameArguments rt args arguments := by
  have hsame := dumps_eq_iff rt.reprFloat_numeral args arguments
  constructor
  · intro h
    obtain ⟨hname,hdigest⟩ := ToolCache.resultKey_inj rt h
    exact ⟨hname,hsame.mp (hsha _ _ ha hb hdigest)⟩
  · rintro ⟨rfl,hargs⟩
    rw [ToolCache.resultKey,ToolCache.resultKey,argsHash,argsHash,hsame.mpr hargs]

/-- What a step of a run offers was sent in that run. -/
theorem offered_sent {g : Gateway} (he : Explained rt g []) {cache : ToolCache ToolManifest}
    (hc : g.orchestrator.cache=some cache) {actions : List GatewayAction}
    {taken : Gateway×GatewayAction} (hmem : taken∈trail (move rt) g actions)
    {result : String×Json×Json} (h : offered rt taken=some result) :
    SentIn rt (run (GatewayRuns.step rt) g actions).2 result.2.1 := by
  obtain ⟨before,later,hsplit⟩ := List.append_of_mem hmem
  obtain ⟨earlier,rest,rfl,hstate,-⟩ := trail_split hsplit
  have hbegin : SameFrom g.clock (held cache.resultStore) (held cache.resultStore) := .refl _ _
  obtain ⟨found,hfound,-⟩ := run_results rt hc hbegin earlier
  rw [←hstate] at hfound
  obtain ⟨-,call,hcall,hsent⟩ := offered_pending hfound h
  have hexplained := run_invariant (J:=Explained rt) (explained_step rt) he earlier
  rw [run_state,List.nil_append] at hexplained
  rw [hstate] at hcall
  obtain ⟨time,b,report,hstarted,-,hredact⟩ := hexplained.pendingStarted call hcall
  refine ⟨time,_,b,report,_,?_,hsent ▸ hredact⟩
  rw [run_append]
  exact List.mem_append_left _ hstarted

end Runs

/-- The end of a call that is answered from the cache. -/
def fromCache (f : CallFrame) (reqRedacted : Bool) (content : Json) : CallProgress :=
  .ended (.returned ⟨f.entry.server.id,f.rawTool,content,false,0,reqRedacted,true⟩)

/-- The call is answered from the cache, without any other effect. -/
def Served (report : CallReport CallProgress) (f : CallFrame) (reqRedacted : Bool)
    (content : Json) : Prop :=
  report.result=fromCache f reqRedacted content ∧ report.effects=[]

/-- The call waits for its upstream, which its client has called once with the
redacted arguments. -/
def Forwarded (report : CallReport CallProgress) (f : CallFrame) (sent : Json)
    (reqRedacted : Bool) (now : ℚ) : Prop :=
  report.result=.waiting ⟨f,sent,reqRedacted,now⟩ ∧
    report.effects=[.upstream f.entry.client f.rawTool sent f.request.principal.agentId]

/-- After these steps the request, if it passes the gates, is answered from the
cache exactly when a result stands, and is sent to its upstream otherwise. -/
def AnswersExactly (rt : Runtime) (steps : List (Gateway×GatewayAction)) (g : Gateway)
    (request : CallRequest) : Prop :=
  ∀ f sent reqRedacted, f.request=request→Mediated rt g.orchestrator g.clock f sent reqRedacted→
    ∃ cache, g.orchestrator.cache=some cache ∧
      (∀ content, Served (startCall rt g.orchestrator g.clock request) f reqRedacted content ↔
        f.mutable=false ∧ Caches cache f.qualified ∧ content≠.null ∧
          Standing rt steps cache g.clock f.qualified sent content) ∧
      ((∀ content, ¬Served (startCall rt g.orchestrator g.clock request) f reqRedacted content)→
        Forwarded (startCall rt g.orchestrator g.clock request) f sent reqRedacted g.clock)

/-- A call that passes the gates ends as its lookup says. -/
theorem startCall_looked {rt : Runtime} {o : Orchestrator} {now : ℚ} {f : CallFrame} {sent : Json}
    {reqRedacted : Bool} (h : Mediated rt o now f sent reqRedacted) :
    (∀ content, Served (startCall rt o now f.request) f reqRedacted content ↔
      (lookupResult rt o now f sent).2=some content) ∧
    ((∀ content, ¬Served (startCall rt o now f.request) f reqRedacted content)→
      Forwarded (startCall rt o now f.request) f sent reqRedacted now) := by
  rw [startCall_mediated h,lookupResult_rateGate]
  cases hlooked : (lookupResult rt o now f sent).2 with
  | some found =>
    constructor
    · intro content
      constructor
      · rintro ⟨hsame,-⟩
        injection hsame with houtcome
        injection houtcome with hresult
        injection hresult with _ _ hcontent
        rw [hcontent]
      · intro hsame
        cases hsame
        exact ⟨rfl,rfl⟩
    · intro hnever
      exact absurd ⟨rfl,rfl⟩ (hnever found)
  | none =>
    constructor
    · intro content
      constructor
      · rintro ⟨hsame,-⟩
        cases hsame
      · intro hsame
        cases hsame
    · intro _
      exact ⟨rfl,rfl⟩

/-- A lookup finds what the cache answers, unless the tool is mutable. -/
theorem lookupResult_iff {rt : Runtime} {o : Orchestrator} {cache : ToolCache ToolManifest}
    (hc : o.cache=some cache) {now : ℚ} {f : CallFrame} {sent content : Json} :
    (lookupResult rt o now f sent).2=some content ↔
      f.mutable=false ∧ (cache.getResult rt f.qualified sent now).2=some content := by
  unfold lookupResult
  rw [hc]
  dsimp only
  cases hmutable : f.mutable with
  | true =>
    rw [if_pos rfl]
    exact ⟨fun h => (by cases h),fun h => (by cases h.1)⟩
  | false =>
    rw [if_neg Bool.false_ne_true]
    exact ⟨fun h => ⟨rfl,h⟩,fun h => h.2⟩

/-- After every run, a call that passes the gates is answered from the cache
exactly when the last result offered for its tool and equal redacted arguments
since the last swap of the policies is not null and within its lifetime,
whatever lookups, other calls, manifest requests and registry operations came
between; any other such call is sent to its upstream. -/
theorem answered_exactly (rt : Runtime) (cfg : GatewayConfig) (cbPolicy : CircuitBreakerPolicy)
    (now : ℚ) (g : Gateway) (hb : boot rt cfg cbPolicy now=.ok g) (actions : List GatewayAction)
    (request : CallRequest)
    (hsha : NoCollision rt (run (GatewayRuns.step rt) g (actions++[.callStart request])).2) :
    AnswersExactly rt (trail (move rt) g actions) (final (move rt) g actions) request := by
  rintro f sent reqRedacted rfl hmediated
  obtain ⟨first,hfirst,hempty⟩ := boot_results hb
  have hexplained := explained_boot hb
  have hbegin : SameFrom g.clock (held first.resultStore) empty := hempty ▸ .refl _ _
  obtain ⟨last,hlast,hsame⟩ := run_results rt hfirst hbegin actions
  obtain ⟨hserved,hwaits⟩ := startCall_looked hmediated
  have hthis : SentIn rt (run (GatewayRuns.step rt) g (actions++[.callStart f.request])).2
      sent := by
    have hevent : GatewayEvent.started (final (move rt) g actions).clock f.request
        (final (move rt) g actions).orchestrator
        (startCall rt (final (move rt) g actions).orchestrator (final (move rt) g actions).clock
          f.request)∈(run (GatewayRuns.step rt) g (actions++[.callStart f.request])).2 := by
      rw [run_append,run_state]
      exact List.mem_append_right _ (List.mem_singleton_self _)
    exact ⟨_,_,_,_,reqRedacted,hevent,hmediated.redacted⟩
  have hkey : ∀ taken∈trail (move rt) g actions, ∀ name args value,
      offered rt taken=some (name,args,value)→
      (ToolCache.resultKey rt name args=ToolCache.resultKey rt f.qualified sent ↔
        name=f.qualified ∧ SameArguments rt args sent) := by
    intro taken hmem name args value hoffered
    refine resultKey_iff hsha ?_ hthis
    obtain ⟨time,b,request',report,flag,hevent,hredact⟩ :=
      offered_sent hexplained hfirst hmem hoffered
    refine ⟨time,b,request',report,flag,?_,hredact⟩
    rw [run_append]
    exact List.mem_append_left _ hevent
  refine ⟨last,hlast,fun content => ?_,hwaits⟩
  rw [hserved,lookupResult_iff hlast,getResult_iff,hsame _ le_rfl]
  constructor
  · rintro ⟨hmutable,hcaches,hnull,hfound⟩
    exact ⟨hmutable,hcaches,hnull,(standing_iff hfirst hlast hcaches hkey).mp hfound⟩
  · rintro ⟨hmutable,hcaches,hnull,hstands⟩
    exact ⟨hmutable,hcaches,hnull,(standing_iff hfirst hlast hcaches hkey).mpr hstands⟩

/-- Digests of the arguments of two searches. -/
def searchRuntime : Runtime := {asciiRuntime with
  sha256 := fun text =>
    if text="\x7b\"q\": \"x\"\x7d" then
      "9fcde69f0e8f40f002ce20143174e41804416c136aadb9037df7685c31ce3e88"
    else "74398ad4dcd53d882c94acefc9871d4178857aeddf97da02fd02d015eb1eebbc"
  sha256_length := fun text => (by split <;> rfl)}

/-- A search at the registered server. -/
def searchFor (word : String) : CallRequest :=
  {serverRequest "a" with arguments := .obj [("q",.str word)]}

/-- A server is registered, a search is answered and time passes. -/
def answeredAgo (elapsed : ℚ≥0) : List GatewayAction :=
  [.registry (.register {id := "a",toolPrefix := some "p"}),.callStart (searchFor "x"),
    .callFinish 0 (.answered ⟨[.text "A"],false⟩),.tick elapsed]

/-- Contents that the search is then answered with from the cache. -/
def nextAnswers (elapsed : ℚ≥0) (word : String) : List Json :=
  (cachedResults (run (GatewayRuns.step searchRuntime) cachingGateway
    (answeredAgo elapsed++[.callStart (searchFor word)])).2).map ToolCallResult.content

/-- The search for the same word is answered for a minute, no other. -/
theorem answered_exactly_lifetime :
    (nextAnswers 60 "x"=[.str "A"] ∧ nextAnswers 61 "x"=[] ∧ nextAnswers 60 "y"=[]) ∧
    ∀ word∈["x","y"],
      AnswersExactly searchRuntime (trail (move searchRuntime) cachingGateway (answeredAgo 60))
        (final (move searchRuntime) cachingGateway (answeredAgo 60)) (searchFor word) := by
  refine ⟨by decide +kernel,List.forall_mem_cons.mpr ⟨?_,List.forall_mem_singleton.mpr ?_⟩⟩
  · exact answered_exactly searchRuntime cachingConfig {} 0 cachingGateway rfl (answeredAgo 60)
      (searchFor "x") (noCollision_of_sent (by decide +kernel))
  · exact answered_exactly searchRuntime cachingConfig {} 0 cachingGateway rfl (answeredAgo 60)
      (searchFor "y") (noCollision_of_sent (by decide +kernel))

end McpGateway.CachedResults
