import Mathlib
import McpGateway.PyDict
import McpGateway.StepRun
import McpGateway.JsonValue
import McpGateway.GatewaySettings
import McpGateway.CircuitBreakers
import McpGateway.ToolNaming
import McpGateway.ServerRegistry
import McpGateway.RegistryRuns
import McpGateway.ToolRouting
import McpGateway.ToolAuthorizer
import McpGateway.RateLimiting
import McpGateway.PyRuntime
import McpGateway.PiiRedactor
import McpGateway.Guardrails
import McpGateway.SchemaValidation
import McpGateway.ResultCache
import McpGateway.UpstreamContent
import McpGateway.ToolOrchestrator
import McpGateway.CallMediation
import McpGateway.GatewayRuns
import McpGateway.CacheProvenance

/-!
# Transparency of the result cache

A run is compared with its twin, which boots and reloads with the result
cache off and takes the same actions; a call that the cache answered is
answered there at once by its own upstream, which answers each tool and
arguments in one way. The twin differs from the run in nothing but the stored
results, and every call ends alike in both exactly when every content served
from the cache is what the call's own answer is redacted to, and the response
redaction that this takes does not go unreported. Where upstreams answer by
qualified name and arguments, the report is the only difference.
-/

namespace McpGateway.CacheTransparency

open PyDict StepRun JsonValue GatewaySettings CircuitBreakers ToolNaming ServerRegistry
open RegistryRuns ToolRouting ToolAuthorizer RateLimiting PyRuntime PiiRedactor Guardrails
open SchemaValidation ResultCache UpstreamContent ToolOrchestrator CallMediation GatewayRuns
open CacheProvenance

/-- The configuration with the result cache off. -/
def withoutResults (cfg : GatewayConfig) : GatewayConfig :=
  {cfg with cache := {cfg.cache with toolResultsEnabled := false}}

/-- The cache with its results off; manifests stay. -/
def uncachedCache (cache : ToolCache ToolManifest) : ToolCache ToolManifest :=
  {cache with cfg := {cache.cfg with toolResultsEnabled := false},resultStore := {}}

/-- The orchestrator with the result cache off. -/
def uncached (o : Orchestrator) : Orchestrator := {o with cache := o.cache.map uncachedCache}

/-- The gateway with the result cache off. -/
def uncachedGateway (g : Gateway) : Gateway := {g with orchestrator := uncached g.orchestrator}

section Twin

variable (rt : Runtime) (answers : ClientRef→String→Json→UpstreamOutcome)

/-- What the twin does for an action: a call that the cache ends is answered by
its own upstream. -/
def twinActions (g : Gateway) : GatewayAction→List GatewayAction
  | .callStart request =>
    match (startCall rt g.orchestrator g.clock request).result,
        (startCall rt (uncached g.orchestrator) g.clock request).result with
    | .ended _,.waiting call => [.callStart request,.callFinish g.pending.length
        (answers call.frame.entry.client call.frame.rawTool call.sent)]
    | _,_ => [.callStart request]
  | .reload cfg => [.reload (withoutResults cfg)]
  | a => [a]

/-- The schedule of the twin. -/
def twin : Gateway→List GatewayAction→List GatewayAction
  | _,[] => []
  | g,a::as => twinActions rt answers g a++twin (step rt g a).1 as

/-- How the calls of a run end, in order. -/
def outcomes (events : List GatewayEvent) : List CallOutcome :=
  events.filterMap (fun e => match e with
    | .started _ _ _ ⟨_,_,.ended outcome⟩ => some outcome
    | .started _ _ _ ⟨_,_,.waiting _⟩ => none
    | .finished _ _ _ _ report => some report.result)

/-- An outcome without its latency and the mark of the cache. -/
def seen : CallOutcome→CallOutcome
  | .returned result => .returned {result with latencyMs := 0,cached := false}
  | .raised error => .raised error
  | .crashed text => .crashed text
  | .cancelled => .cancelled

/-- Every call ends alike in two runs. -/
def SameResults (events events' : List GatewayEvent) : Prop :=
  (outcomes events).map seen=(outcomes events').map seen

/-- The content is what the response redaction makes of the answer of the
call's own upstream, and it changes that answer only if the arguments were
changed too. -/
def Serves (o : Orchestrator) (f : CallFrame) (sent : Json) (reqRedacted : Bool)
    (content : Json) : Prop :=
  ∃ value flag, clientAnswer rt (answers f.entry.client f.rawTool sent)=.content value ∧
    o.redactor.redact rt .response value=.ok (content,flag) ∧ (flag=true→ reqRedacted=true)

/-- A call that finds an unexpired result finds its own. -/
def FindsOwn (g : Gateway) (a : GatewayAction) : Prop :=
  ∀ request f sent reqRedacted content, a=.callStart request→f.request=request→
    Mediated rt g.orchestrator g.clock f sent reqRedacted→
    (lookupResult rt g.orchestrator g.clock f sent).2=some content→
      Serves rt answers g.orchestrator f sent reqRedacted content

end Twin

section Halves

variable {rt : Runtime}

/-- Without the result cache nothing is looked up. -/
theorem lookupResult_uncached (rt : Runtime) (o : Orchestrator) (now : ℚ) (f : CallFrame)
    (sent : Json) : lookupResult rt (uncached o) now f sent=(uncached o,none) := by
  cases hc : o.cache with
  | none => simp only [lookupResult,uncached,hc,Option.map_none]
  | some cache =>
    have httl : (uncachedCache cache).toolTtl f.qualified≤0 := le_refl 0
    simp only [lookupResult,uncached,hc,Option.map_some,ToolCache.getResult,if_pos (Or.inr httl)]
    split <;> rfl

/-- A lookup changes stored results only. -/
theorem uncached_lookupResult (rt : Runtime) (o : Orchestrator) (now : ℚ) (f : CallFrame)
    (sent : Json) : uncached (lookupResult rt o now f sent).1=uncached o := by
  cases hc : o.cache with
  | none => simp only [lookupResult,hc]
  | some cache =>
    simp only [lookupResult,hc]
    split
    · rfl
    · simp only [uncached,hc,Option.map_some,ToolCache.getResult]
      split <;> rfl

/-- Orchestrators that differ in stored results have the same redactor. -/
theorem redactor_of_uncached {o o' : Orchestrator} (h : uncached o'=uncached o) :
    o'.redactor=o.redactor := by
  have hkept := congrArg Orchestrator.redactor h
  exact hkept

/-- Storing changes stored results only. -/
theorem uncached_storeResult (rt : Runtime) (o : Orchestrator) (call : PendingCall) (now : ℚ)
    (clean : Json) : uncached (storeResult rt o call now clean).1=uncached o := by
  cases hc : o.cache with
  | none => simp only [storeResult,hc]
  | some cache =>
    simp only [storeResult,hc]
    split
    · rfl
    · simp only [uncached,hc,Option.map_some,ToolCache.setResult]
      split <;> rfl

/-- The rate gate does not look at the cache. -/
theorem rateGate_uncached (o : Orchestrator) (now : ℚ) (f : CallFrame) :
    rateGate (uncached o) now f=(uncached (rateGate o now f).1,(rateGate o now f).2) := by
  cases hl : o.rateLimiter with
  | none => simp only [rateGate,uncached,hl]
  | some limiter => simp only [rateGate,uncached,hl]

/-- No gate looks at the cache. -/
theorem gates_uncached (rt : Runtime) (o : Orchestrator) (now : ℚ) (f : CallFrame) :
    gates rt (uncached o) now f=(uncached (gates rt o now f).1,(gates rt o now f).2) := by
  have hcontent : ∀ o', contentGates rt (uncached o') f=contentGates rt o' f := fun _ => rfl
  have hauthorizer : (uncached o).authorizer=o.authorizer := rfl
  unfold gates
  rw [rateGate_uncached,hauthorizer]
  cases authorizeToolCall o.authorizer f.request.principal f.rawTool f.qualified f.mutable with
  | error e => rfl
  | ok u =>
    dsimp only
    rw [hcontent]
    cases (rateGate o now f).2 <;> rfl

/-- A mediated call is mediated without the result cache too. -/
theorem mediated_uncached {o : Orchestrator} {now : ℚ} {f : CallFrame} {sent : Json}
    {reqRedacted : Bool} (h : Mediated rt o now f sent reqRedacted) :
    Mediated rt (uncached o) now f sent reqRedacted :=
  ⟨h.resolved,h.enabled,h.authorized,h.granted,h.guarded,h.valid,h.redacted⟩

/-- How the two first halves of one call compare. -/
inductive StartsAlike (rt : Runtime) (o : Orchestrator) (now : ℚ) (request : CallRequest) : Prop
  /-- No result is found and both go the same way. -/
  | missed (same : (startCall rt (uncached o) now request).result=
        (startCall rt o now request).result)
      (nothing : ∀ f sent reqRedacted, f.request=request→Mediated rt o now f sent reqRedacted→
        (lookupResult rt o now f sent).2=none)
  /-- A result is found; without the cache the call waits for its upstream. -/
  | found (f : CallFrame) (sent : Json) (reqRedacted : Bool) (content : Json)
      (own : f.request=request) (mediated : Mediated rt o now f sent reqRedacted)
      (looked : (lookupResult rt o now f sent).2=some content)
      (served : (startCall rt o now request).result=.ended (.returned
        ⟨f.entry.server.id,f.rawTool,content,false,0,reqRedacted,true⟩))
      (waits : (startCall rt (uncached o) now request).result=
        .waiting ⟨f,sent,reqRedacted,now⟩)
      (redactor : (startCall rt o now request).orchestrator.redactor=o.redactor)

/-- A mediated call with the result cache and without it. -/
theorem startCall_mediated_alike {o : Orchestrator} {now : ℚ} {f : CallFrame} {sent : Json}
    {reqRedacted : Bool} (h : Mediated rt o now f sent reqRedacted) :
    (startCall rt (uncached o) now f.request).orchestrator=
      uncached (startCall rt o now f.request).orchestrator ∧
    StartsAlike rt o now f.request := by
  have hstart := startCall_mediated h
  have hstart' := startCall_mediated (mediated_uncached h)
  have hlook := lookupResult_rateGate rt o now f sent
  have hstate := uncached_lookupResult rt (rateGate o now f).1 now f sent
  rw [rateGate_uncached] at hstart'
  dsimp only at hstart'
  rw [lookupResult_uncached] at hstart'
  dsimp only at hstart'
  cases hl : (lookupResult rt o now f sent).2 with
  | none =>
    rw [hlook,hl] at hstart
    dsimp only at hstart
    refine ⟨by rw [hstart,hstart',hstate],.missed (by rw [hstart,hstart']) ?_⟩
    intro f' sent' reqRedacted' hf h'
    obtain ⟨rfl,rfl,-⟩ := mediated_unique h h' hf
    exact hl
  | some content =>
    rw [hlook,hl] at hstart
    dsimp only at hstart
    have hredactor : (lookupResult rt (rateGate o now f).1 now f sent).1.redactor=o.redactor := by
      obtain ⟨limiter,hframe⟩ := rateGate_frame o now f
      rw [redactor_of_uncached hstate,hframe]
    exact ⟨by rw [hstart,hstart',hstate],.found f sent reqRedacted content rfl h hl
      (by rw [hstart]) (by rw [hstart']) (by rw [hstart,hredactor])⟩

/-- A call that is not mediated with the result cache and without it. -/
theorem startCall_unmediated_alike {o : Orchestrator} {now : ℚ} {request : CallRequest}
    (h : ∀ f sent reqRedacted, f.request=request→¬Mediated rt o now f sent reqRedacted) :
    (startCall rt (uncached o) now request).orchestrator=
      uncached (startCall rt o now request).orchestrator ∧
    (startCall rt (uncached o) now request).result=(startCall rt o now request).result := by
  have hregistry : (uncached o).registry=o.registry := rfl
  unfold startCall
  rw [hregistry]
  cases hr : resolve o.registry request.name request.serverId with
  | error e => exact ⟨rfl,rfl⟩
  | ok found =>
    obtain ⟨entry,rawTool⟩ := found
    dsimp only
    split
    · exact ⟨rfl,rfl⟩
    · rename_i henabled
      rw [gates_uncached]
      cases hg : (gates rt o now ⟨request,entry,rawTool⟩).2 with
      | error refusal => exact ⟨rfl,rfl⟩
      | ok pair =>
        obtain ⟨sent,reqRedacted⟩ := pair
        have henabled' : entry.server.enabled=true := by simpa using henabled
        have hmediated := (mediated_iff rt o now ⟨request,entry,rawTool⟩ sent reqRedacted).mpr
          ⟨hr,henabled',hg⟩
        exact absurd hmediated (h _ _ _ rfl)

/-- The first half of a call with the result cache and without it. -/
theorem startCall_alike (rt : Runtime) (o : Orchestrator) (now : ℚ) (request : CallRequest) :
    (startCall rt (uncached o) now request).orchestrator=
      uncached (startCall rt o now request).orchestrator ∧
    StartsAlike rt o now request := by
  rcases mediated_or_none rt o now request with ⟨f,sent,reqRedacted,rfl,hmediated⟩ | hnot
  · exact startCall_mediated_alike hmediated
  · obtain ⟨hstate,hresult⟩ := startCall_unmediated_alike hnot
    exact ⟨hstate,.missed hresult fun f sent reqRedacted hf h =>
      absurd h (hnot f sent reqRedacted hf)⟩

/-- The second half of a call ends alike with the result cache and without it,
and changes stored results only. -/
theorem finishCall_alike (rt : Runtime) (o : Orchestrator) (now : ℚ) (call : PendingCall)
    (answer : UpstreamAnswer) :
    uncached (finishCall rt o now call answer).orchestrator=uncached o ∧
    (finishCall rt (uncached o) now call answer).orchestrator=uncached o ∧
    (finishCall rt (uncached o) now call answer).result=
      (finishCall rt o now call answer).result := by
  have hredactor : (uncached o).redactor=o.redactor := rfl
  cases answer with
  | upstreamError e => exact ⟨rfl,rfl,rfl⟩
  | exception text => exact ⟨rfl,rfl,rfl⟩
  | cancelled => exact ⟨rfl,rfl,rfl⟩
  | content value =>
    unfold finishCall
    dsimp only
    rw [hredactor]
    cases o.redactor.redact rt .response value with
    | error text => exact ⟨rfl,rfl,rfl⟩
    | ok pair =>
      obtain ⟨clean,flag⟩ := pair
      dsimp only
      refine ⟨uncached_storeResult rt o call now clean,?_,rfl⟩
      cases hc : o.cache with
      | none => simp only [storeResult,uncached,hc,Option.map_none]
      | some cache =>
        have httl : (uncachedCache cache).toolTtl call.frame.qualified≤0 := le_refl 0
        simp only [storeResult,uncached,hc,Option.map_some,ToolCache.setResult,
          if_pos (Or.inr httl)]
        split <;> rfl

/-- Manifests are cached alike without the result cache. -/
theorem buildManifest_uncached (o : Orchestrator) (now : ℚ) (tag : Option String) :
    (buildManifest (uncached o) now tag).1=uncached (buildManifest o now tag).1 := by
  have hget : ∀ cache, (uncachedCache cache).getManifest now=
      (uncachedCache (cache.getManifest now).1,(cache.getManifest now).2) := by
    intro cache
    by_cases hoff : cache.cfg.enabled=false ∨ cache.cfg.manifestTtl≤0
    · rw [ToolCache.getManifest,ToolCache.getManifest,if_pos hoff]
      exact if_pos hoff
    · rw [ToolCache.getManifest,ToolCache.getManifest,if_neg hoff]
      exact if_neg hoff
  have hset : ∀ cache manifest, (uncachedCache cache).setManifest manifest now=
      uncachedCache (cache.setManifest manifest now) := by
    intro cache manifest
    by_cases hoff : cache.cfg.enabled=false ∨ cache.cfg.manifestTtl≤0
    · rw [ToolCache.setManifest,ToolCache.setManifest,if_pos hoff]
      exact if_pos hoff
    · rw [ToolCache.setManifest,ToolCache.setManifest,if_neg hoff]
      exact if_neg hoff
  have hregistry : (uncached o).registry=o.registry := rfl
  cases tag with
  | some tag => rfl
  | none =>
    cases hc : o.cache with
    | none => simp only [buildManifest,uncached,hc,Option.map_none]
    | some cache =>
      have hc' : (uncached o).cache=some (uncachedCache cache) := by rw [uncached,hc]; rfl
      unfold buildManifest
      rw [hc,hc',hregistry]
      dsimp only
      rw [hget]
      cases (cache.getManifest now).2 with
      | some manifest => rfl
      | none =>
        dsimp only
        rw [hset]
        rfl

/-- A reload installs the same policies without the result cache. -/
theorem swapPolicies_uncached (rt : Runtime) (cfg : GatewayConfig) (o : Orchestrator) :
    swapPolicies rt (withoutResults cfg) (uncached o)=uncached (swapPolicies rt cfg o) := by
  have hguardrails : (withoutResults cfg).guardrails=cfg.guardrails := rfl
  unfold swapPolicies
  rw [hguardrails]
  cases SafetyFilter.new rt cfg.guardrails with
  | error text => rfl
  | ok safety => rfl

end Halves

section Steps

variable {rt : Runtime} {answers : ClientRef→String→Json→UpstreamOutcome}

/-- A served result is what the call would return without the cache exactly
when it is the call's own. -/
theorem served_alike_iff (o : Orchestrator) (now : ℚ) (f : CallFrame) (sent : Json)
    (reqRedacted : Bool) (content : Json) :
    seen (.returned ⟨f.entry.server.id,f.rawTool,content,false,0,reqRedacted,true⟩)=
      seen (finishCall rt o now ⟨f,sent,reqRedacted,now⟩
        (clientAnswer rt (answers f.entry.client f.rawTool sent))).result ↔
      Serves rt answers o f sent reqRedacted content := by
  unfold Serves
  cases clientAnswer rt (answers f.entry.client f.rawTool sent) with
  | upstreamError e =>
    exact ⟨fun h => (by cases h),fun h => by obtain ⟨_,_,h,-⟩ := h; cases h⟩
  | exception text =>
    exact ⟨fun h => (by cases h),fun h => by obtain ⟨_,_,h,-⟩ := h; cases h⟩
  | cancelled =>
    exact ⟨fun h => (by cases h),fun h => by obtain ⟨_,_,h,-⟩ := h; cases h⟩
  | content value =>
    unfold finishCall
    dsimp only
    cases hr : o.redactor.redact rt .response value with
    | error text =>
      refine ⟨fun h => (by cases h),?_⟩
      rintro ⟨value',flag,hvalue,hred,-⟩
      cases hvalue
      rw [hr] at hred
      cases hred
    | ok pair =>
      obtain ⟨clean,flag⟩ := pair
      simp only [seen,CallOutcome.returned.injEq,ToolCallResult.mk.injEq,true_and,and_true]
      constructor
      · rintro ⟨rfl,hflag⟩
        refine ⟨value,flag,rfl,hr,fun hf => ?_⟩
        rw [hflag,hf,Bool.or_true]
      · rintro ⟨value',flag',hvalue,hred,hflag⟩
        cases hvalue
        rw [hr] at hred
        cases hred
        refine ⟨rfl,?_⟩
        cases flag with
        | false => rw [Bool.or_false]
        | true => rw [hflag rfl,Bool.or_true]

/-- What the twin does for an action leads where the action leads, and both
end at most one call, alike exactly when the call finds its own result. -/
structure StepsAlike (rt : Runtime) (answers : ClientRef→String→Json→UpstreamOutcome)
    (g : Gateway) (a : GatewayAction) : Prop where
  /-- The states differ in stored results only. -/
  state : (run (step rt) (uncachedGateway g) (twinActions rt answers g a)).1=
    uncachedGateway (step rt g a).1
  /-- As many calls end. -/
  length : (outcomes (step rt g a).2.toList).length=
    (outcomes (run (step rt) (uncachedGateway g) (twinActions rt answers g a)).2).length
  /-- They end alike under the condition. -/
  alike : SameResults (step rt g a).2.toList
      (run (step rt) (uncachedGateway g) (twinActions rt answers g a)).2 ↔ FindsOwn rt answers g a

/-- An action that the twin takes as it is, with the same outcome. -/
theorem StepsAlike.of_single {g : Gateway} {a b : GatewayAction}
    (hb : twinActions rt answers g a=[b])
    (hstate : (step rt (uncachedGateway g) b).1=uncachedGateway (step rt g a).1)
    (houtcomes : outcomes (step rt (uncachedGateway g) b).2.toList=outcomes (step rt g a).2.toList)
    (hown : FindsOwn rt answers g a) : StepsAlike rt answers g a := by
  have hrun : run (step rt) (uncachedGateway g) (twinActions rt answers g a)=
      ((step rt (uncachedGateway g) b).1,(step rt (uncachedGateway g) b).2.toList) := by
    rw [hb,run,run]
    dsimp only
    rw [List.append_nil]
  refine ⟨?_,?_,?_⟩
  · rw [hrun]
    exact hstate
  · rw [hrun,houtcomes]
  · rw [hrun,SameResults,houtcomes]
    exact ⟨fun _ => hown,fun _ => rfl⟩

/-- Only the start of a call looks for a result. -/
theorem findsOwn_of_ne {g : Gateway} {a : GatewayAction} (h : ∀ request, a≠.callStart request) :
    FindsOwn rt answers g a :=
  fun request _ _ _ _ ha => absurd ha (h request)

/-- A call that waits without the result cache and is answered at once. -/
theorem run_answered (rt : Runtime) (outcome : UpstreamOutcome) {g : Gateway}
    {request : CallRequest} {call : PendingCall}
    (hstate : (startCall rt (uncached g.orchestrator) g.clock request).orchestrator=
      uncached (startCall rt g.orchestrator g.clock request).orchestrator)
    (hwaits : (startCall rt (uncached g.orchestrator) g.clock request).result=.waiting call) :
    (run (GatewayRuns.step rt) (uncachedGateway g)
      [.callStart request,.callFinish g.pending.length outcome]).1=
      uncachedGateway {g with
        orchestrator := (startCall rt g.orchestrator g.clock request).orchestrator} ∧
    outcomes (run (GatewayRuns.step rt) (uncachedGateway g)
      [.callStart request,.callFinish g.pending.length outcome]).2=
      [(finishCall rt (startCall rt g.orchestrator g.clock request).orchestrator g.clock call
        (clientAnswer rt outcome)).result] := by
  have hget : (g.pending++[call])[g.pending.length]?=some call := List.getElem?_concat_length
  have herase : (g.pending++[call]).eraseIdx g.pending.length=g.pending := by
    rw [List.eraseIdx_append_of_length_le (le_refl _),Nat.sub_self,List.eraseIdx_cons_zero,
      List.append_nil]
  obtain ⟨-,hafter,hresult⟩ := finishCall_alike rt
    (startCall rt g.orchestrator g.clock request).orchestrator g.clock call
    (clientAnswer rt outcome)
  have hstart : GatewayRuns.step rt (uncachedGateway g) (.callStart request)=
      ({uncachedGateway g with
        orchestrator := uncached (startCall rt g.orchestrator g.clock request).orchestrator
        pending := g.pending++[call]},
      some (.started g.clock request (uncached g.orchestrator)
        (startCall rt (uncached g.orchestrator) g.clock request))) := by
    simp only [GatewayRuns.step,uncachedGateway,hwaits,hstate]
  have hfinish : GatewayRuns.step rt {uncachedGateway g with
        orchestrator := uncached (startCall rt g.orchestrator g.clock request).orchestrator
        pending := g.pending++[call]} (.callFinish g.pending.length outcome)=
      (uncachedGateway {g with
        orchestrator := (startCall rt g.orchestrator g.clock request).orchestrator},
      some (.finished g.clock call
        (uncached (startCall rt g.orchestrator g.clock request).orchestrator) outcome
        (finishCall rt (uncached (startCall rt g.orchestrator g.clock request).orchestrator)
          g.clock call (clientAnswer rt outcome)))) := by
    simp only [GatewayRuns.step,uncachedGateway,hget,herase,hafter]
  simp only [run,hstart,hfinish]
  refine ⟨trivial,?_⟩
  rw [←hresult]
  generalize startCall rt (uncached g.orchestrator) g.clock request=report at hwaits
  obtain ⟨o,effects,result⟩ := report
  cases hwaits
  rfl

/-- The start of a call that finds no result. -/
theorem stepsAlike_missed {g : Gateway} {request : CallRequest}
    (hstate : (startCall rt (uncached g.orchestrator) g.clock request).orchestrator=
      uncached (startCall rt g.orchestrator g.clock request).orchestrator)
    (hsame : (startCall rt (uncached g.orchestrator) g.clock request).result=
      (startCall rt g.orchestrator g.clock request).result)
    (hnothing : ∀ f sent reqRedacted, f.request=request→
      Mediated rt g.orchestrator g.clock f sent reqRedacted→
      (lookupResult rt g.orchestrator g.clock f sent).2=none) :
    StepsAlike rt answers g (.callStart request) := by
  have htwin : twinActions rt answers g (.callStart request)=[.callStart request] := by
    simp only [twinActions,hsame]
    cases (startCall rt g.orchestrator g.clock request).result <;> rfl
  refine StepsAlike.of_single htwin ?_ ?_ ?_
  · simp only [GatewayRuns.step,uncachedGateway,hstate,hsame]
  · simp only [GatewayRuns.step,uncachedGateway,Option.toList_some,outcomes]
    generalize startCall rt (uncached g.orchestrator) g.clock request=report' at hsame
    generalize startCall rt g.orchestrator g.clock request=report at hsame
    obtain ⟨o,effects,result⟩ := report
    obtain ⟨o',effects',result'⟩ := report'
    cases hsame
    cases result <;> rfl
  · intro request' f sent reqRedacted content ha hf hm hl
    cases ha
    rw [hnothing f sent reqRedacted hf hm] at hl
    cases hl

/-- The condition on a start that finds a result is about that result. -/
theorem findsOwn_iff {g : Gateway} {f : CallFrame} {sent content : Json} {reqRedacted : Bool}
    (hmediated : Mediated rt g.orchestrator g.clock f sent reqRedacted)
    (hlooked : (lookupResult rt g.orchestrator g.clock f sent).2=some content) :
    FindsOwn rt answers g (.callStart f.request) ↔
      Serves rt answers g.orchestrator f sent reqRedacted content := by
  constructor
  · exact fun h => h f.request f sent reqRedacted content rfl rfl hmediated hlooked
  · intro hown request f' sent' reqRedacted' content' ha hf hm hl
    cases ha
    obtain ⟨rfl,rfl,rfl⟩ := mediated_unique hmediated hm hf
    rw [hlooked] at hl
    cases hl
    exact hown

/-- The start of a call. -/
theorem stepsAlike_callStart (g : Gateway) (request : CallRequest) :
    StepsAlike rt answers g (.callStart request) := by
  obtain ⟨hstate,halike⟩ := startCall_alike rt g.orchestrator g.clock request
  cases halike with
  | missed same nothing => exact stepsAlike_missed hstate same nothing
  | found f sent reqRedacted content own mediated looked served waits redactor =>
    subst own
    have htwin : twinActions rt answers g (.callStart f.request)=[.callStart f.request,
        .callFinish g.pending.length (answers f.entry.client f.rawTool sent)] := by
      simp only [twinActions,served,waits]
    have hrun := run_answered rt (answers f.entry.client f.rawTool sent) hstate waits
    have hserved : outcomes (GatewayRuns.step rt g (.callStart f.request)).2.toList=
        [.returned ⟨f.entry.server.id,f.rawTool,content,false,0,reqRedacted,true⟩] := by
      simp only [GatewayRuns.step,Option.toList_some,outcomes]
      generalize startCall rt g.orchestrator g.clock f.request=report at served
      obtain ⟨o,effects,result⟩ := report
      cases served
      rfl
    have hnext : (GatewayRuns.step rt g (.callStart f.request)).1=
        {g with orchestrator := (startCall rt g.orchestrator g.clock f.request).orchestrator} := by
      simp only [GatewayRuns.step,served,List.append_nil]
    rw [←htwin] at hrun
    refine ⟨by rw [hrun.1,hnext],by rw [hserved,hrun.2]; rfl,?_⟩
    rw [SameResults,hserved,hrun.2,List.map_singleton,List.map_singleton,List.singleton_inj]
    rw [served_alike_iff,Serves,redactor]
    exact (findsOwn_iff mediated looked).symm

/-- Every action. -/
theorem stepsAlike (g : Gateway) (a : GatewayAction) : StepsAlike rt answers g a := by
  cases a with
  | callStart request => exact stepsAlike_callStart g request
  | registry action =>
    exact .of_single rfl rfl rfl (findsOwn_of_ne fun _ h => by cases h)
  | reload cfg =>
    refine .of_single rfl ?_ rfl (findsOwn_of_ne fun _ h => by cases h)
    simp only [GatewayRuns.step,uncachedGateway,swapPolicies_uncached]
  | installWebhooks =>
    exact .of_single rfl rfl rfl (findsOwn_of_ne fun _ h => by cases h)
  | manifest tag =>
    refine .of_single rfl ?_ rfl (findsOwn_of_ne fun _ h => by cases h)
    simp only [GatewayRuns.step,uncachedGateway,buildManifest_uncached]
  | tick elapsed =>
    exact .of_single rfl rfl rfl (findsOwn_of_ne fun _ h => by cases h)
  | callFinish index outcome =>
    refine .of_single rfl ?_ ?_ (findsOwn_of_ne fun _ h => by cases h)
    · cases hp : g.pending[index]? with
      | none => simp only [GatewayRuns.step,uncachedGateway,hp]
      | some call =>
        obtain ⟨hafter,hstate,-⟩ := finishCall_alike rt g.orchestrator g.clock call
          (clientAnswer rt outcome)
        simp only [GatewayRuns.step,uncachedGateway,hp,hstate,hafter]
    · cases hp : g.pending[index]? with
      | none => simp only [GatewayRuns.step,uncachedGateway,hp]
      | some call =>
        obtain ⟨-,-,hresult⟩ := finishCall_alike rt g.orchestrator g.clock call
          (clientAnswer rt outcome)
        simp only [GatewayRuns.step,uncachedGateway,hp,Option.toList_some,outcomes,
          List.filterMap_cons,List.filterMap_nil,hresult]

/-- Outcomes of two successive parts of a run. -/
theorem outcomes_append (events later : List GatewayEvent) :
    outcomes (events++later)=outcomes events++outcomes later := List.filterMap_append

/-- When as many calls end in the first parts of two runs, the runs end them
alike exactly when both parts do. -/
theorem sameResults_append {events events' later later' : List GatewayEvent}
    (h : (outcomes events).length=(outcomes events').length) :
    SameResults (events++later) (events'++later') ↔
      SameResults events events' ∧ SameResults later later' := by
  have hlength : ((outcomes events).map seen).length=((outcomes events').map seen).length := by
    rw [List.length_map,List.length_map,h]
  unfold SameResults
  rw [outcomes_append,outcomes_append,List.map_append,List.map_append]
  constructor
  · exact fun he => List.append_inj he hlength
  · rintro ⟨hfirst,hrest⟩
    rw [hfirst,hrest]

/-- A run and its twin end calls alike exactly when every call that finds a
result finds its own. -/
theorem sameResults_twin (g : Gateway) (actions : List GatewayAction) :
    SameResults (run (GatewayRuns.step rt) g actions).2
      (run (GatewayRuns.step rt) (uncachedGateway g) (twin rt answers g actions)).2 ↔
    Meets (fun g a => (GatewayRuns.step rt g a).1) (FindsOwn rt answers) g actions := by
  induction actions generalizing g with
  | nil => exact ⟨fun _ => trivial,fun _ => rfl⟩
  | cons a as ih =>
    have hstep : StepsAlike rt answers g a := stepsAlike g a
    have hrest := ih (GatewayRuns.step rt g a).1
    rw [run,twin,run_append,hstep.state,Meets]
    dsimp only
    rw [sameResults_append hstep.length,hstep.alike,hrest]

end Steps

/-- Booting without the result cache gives the gateway without it. -/
theorem boot_withoutResults {rt : Runtime} {cfg : GatewayConfig}
    {cbPolicy : CircuitBreakerPolicy} {now : ℚ} {g g' : Gateway}
    (hb : boot rt cfg cbPolicy now=.ok g)
    (hb' : boot rt (withoutResults cfg) cbPolicy now=.ok g') : g'=uncachedGateway g := by
  have hguardrails : (withoutResults cfg).guardrails=cfg.guardrails := rfl
  unfold boot at hb hb'
  rw [hguardrails] at hb'
  cases hs : SafetyFilter.new rt cfg.guardrails with
  | error text =>
    rw [hs] at hb
    cases hb
  | ok safety =>
    rw [hs] at hb hb'
    cases hb
    cases hb'
    rfl

/-- From boot on, every call of a run ends as it does with the result cache
off, but for its latency and the mark of the cache, exactly when every call
that finds an unexpired result finds what the response redaction makes of the
answer of its own upstream, and this changes the answer only if the arguments
were changed too. -/
theorem transparent_iff (rt : Runtime) (answers : ClientRef→String→Json→UpstreamOutcome)
    (cfg : GatewayConfig) (cbPolicy : CircuitBreakerPolicy) (now : ℚ) (g g' : Gateway)
    (hb : boot rt cfg cbPolicy now=.ok g)
    (hb' : boot rt (withoutResults cfg) cbPolicy now=.ok g') (actions : List GatewayAction) :
    SameResults (run (GatewayRuns.step rt) g actions).2
      (run (GatewayRuns.step rt) g' (twin rt answers g actions)).2 ↔
    Meets (fun g a => (GatewayRuns.step rt g a).1) (FindsOwn rt answers) g actions := by
  rw [boot_withoutResults hb hb']
  exact sameResults_twin g actions

section Keyed

variable {rt : Runtime} {answers : ClientRef→String→Json→UpstreamOutcome}
  {keyed : String→UpstreamAnswer}

/-- Upstreams answer by qualified name and delivered arguments, as far as they
answer with content, and a reload installs all of its policies. -/
def ByKey (rt : Runtime) (answers : ClientRef→String→Json→UpstreamOutcome)
    (keyed : String→UpstreamAnswer) (g : Gateway) : GatewayAction→Prop
  | .callStart request => ∀ f sent reqRedacted, f.request=request→
      Mediated rt g.orchestrator g.clock f sent reqRedacted→
      clientAnswer rt (answers f.entry.client f.rawTool sent)=
        keyed (ToolCache.resultKey rt f.qualified sent)
  | .callFinish index outcome => ∀ call value, g.pending[index]?=some call→
      clientAnswer rt outcome=.content value→
      keyed (ToolCache.resultKey rt call.frame.qualified call.sent)=.content value
  | .reload cfg => ∃ safety, SafetyFilter.new rt cfg.guardrails=.ok safety
  | _ => True

/-- Every stored result is what the redactor in force makes of the answer to
its key. -/
def OwnResults (rt : Runtime) (keyed : String→UpstreamAnswer) (o : Orchestrator) : Prop :=
  ∀ cache, o.cache=some cache→∀ key entry, cache.resultStore.entries.get? key=some entry→
    ∃ value flag, keyed key=.content value ∧
      o.redactor.redact rt .response value=.ok (entry.value,flag)

/-- A call that finds a result although response redaction changes its own
answer has its arguments changed too. -/
def Reported (rt : Runtime) (answers : ClientRef→String→Json→UpstreamOutcome) (g : Gateway)
    (a : GatewayAction) : Prop :=
  ∀ request f sent reqRedacted content value clean, a=.callStart request→f.request=request→
    Mediated rt g.orchestrator g.clock f sent reqRedacted→
    (lookupResult rt g.orchestrator g.clock f sent).2=some content→
    clientAnswer rt (answers f.entry.client f.rawTool sent)=.content value→
    g.orchestrator.redactor.redact rt .response value=.ok (clean,true)→ reqRedacted=true

/-- Fewer results under the same redactor are still its own. -/
theorem OwnResults.shrink {o o' : Orchestrator} (h : OwnResults rt keyed o)
    (hcache : CacheWithin o.cache o'.cache) (hredactor : o'.redactor=o.redactor) :
    OwnResults rt keyed o' := by
  intro cache' hc' key entry hentry
  obtain ⟨cache,hc,-,hold⟩ := hcache cache' hc' key entry hentry
  rw [hredactor]
  exact h cache hc key entry hold

/-- The first half of a call keeps the redactor. -/
theorem startCall_redactor (rt : Runtime) (o : Orchestrator) (now : ℚ) (request : CallRequest) :
    (startCall rt o now request).orchestrator.redactor=o.redactor := by
  unfold startCall
  cases resolve o.registry request.name request.serverId with
  | error e => rfl
  | ok found =>
    obtain ⟨entry,rawTool⟩ := found
    dsimp only
    split
    · rfl
    · obtain ⟨limiter,hgates⟩ := gates_frame rt o now ⟨request,entry,rawTool⟩
      rw [hgates]
      cases (gates rt o now ⟨request,entry,rawTool⟩).2 with
      | error refusal => rfl
      | ok pair =>
        have hlook := redactor_of_uncached (uncached_lookupResult rt
          {o with rateLimiter := limiter} now ⟨request,entry,rawTool⟩ pair.1)
        dsimp only
        split <;> exact hlook

/-- A manifest request keeps the redactor. -/
theorem buildManifest_redactor (o : Orchestrator) (now : ℚ) (tag : Option String) :
    (buildManifest o now tag).1.redactor=o.redactor := by
  unfold buildManifest
  split
  · dsimp only
    split <;> rfl
  · rfl

/-- The second half of a call stores its own result. -/
theorem own_finishCall {o : Orchestrator} {now : ℚ} {call : PendingCall} {outcome : UpstreamOutcome}
    (h : OwnResults rt keyed o)
    (hk : ∀ value, clientAnswer rt outcome=.content value→
      keyed (ToolCache.resultKey rt call.frame.qualified call.sent)=.content value) :
    OwnResults rt keyed (finishCall rt o now call (clientAnswer rt outcome)).orchestrator := by
  have hredactor := redactor_of_uncached
    (finishCall_alike rt o now call (clientAnswer rt outcome)).1
  intro later hc key entry hentry
  rw [hredactor]
  obtain ⟨cache,ho,-,hold | ⟨value,flag,hanswer,hred,hkey,-⟩⟩ := finishCall_stored hc hentry
  · exact h cache ho key entry hold
  · subst hkey
    exact ⟨value,flag,hk value hanswer,hred⟩

/-- Every action keeps the results their own while upstreams answer by key. -/
theorem own_step (g : Gateway) (a : GatewayAction) (h : OwnResults rt keyed g.orchestrator)
    (hk : ByKey rt answers keyed g a) :
    OwnResults rt keyed (GatewayRuns.step rt g a).1.orchestrator := by
  cases a with
  | registry action => exact h
  | installWebhooks => exact h
  | tick elapsed => exact h
  | manifest tag =>
    exact h.shrink (buildManifest_within g.orchestrator g.clock tag)
      (buildManifest_redactor g.orchestrator g.clock tag)
  | callStart request =>
    exact h.shrink (startCall_within rt g.orchestrator g.clock request)
      (startCall_redactor rt g.orchestrator g.clock request)
  | callFinish index outcome =>
    cases hp : g.pending[index]? with
    | none =>
      simp only [GatewayRuns.step,hp]
      exact h
    | some call =>
      simp only [GatewayRuns.step,hp]
      exact own_finishCall h fun value hanswer => hk call value hp hanswer
  | reload cfg =>
    obtain ⟨safety,hsafety⟩ := hk
    intro cache hc key entry hentry
    simp only [GatewayRuns.step,swapPolicies,hsafety] at hc
    cases hc
    cases hentry

/-- While results are their own, a call finds its own exactly when the
redaction of its answer is reported. -/
theorem findsOwn_iff_reported (g : Gateway) (a : GatewayAction)
    (h : OwnResults rt keyed g.orchestrator) (hk : ByKey rt answers keyed g a) :
    FindsOwn rt answers g a ↔ Reported rt answers g a := by
  constructor
  · intro hown request f sent reqRedacted content value clean ha hf hm hl hanswer hred
    obtain ⟨value',flag,hanswer',hred',hflag⟩ := hown request f sent reqRedacted content ha hf hm hl
    rw [hanswer] at hanswer'
    cases hanswer'
    rw [hred] at hred'
    cases hred'
    exact hflag rfl
  · intro hreported request f sent reqRedacted content ha hf hm hl
    obtain ⟨cache,hc,-,hget⟩ := lookupResult_some hl
    obtain ⟨entry,hentry,hvalue,-⟩ := ToolCache.getResult_some hget
    obtain ⟨value,flag,hanswer,hred⟩ := h cache hc _ entry hentry
    subst ha
    rw [←hk f sent reqRedacted hf hm] at hanswer
    rw [hvalue] at hred
    refine ⟨value,flag,hanswer,hred,fun hflag => ?_⟩
    rw [hflag] at hred
    exact hreported request f sent reqRedacted content value content rfl hf hm hl hanswer hred

/-- Where upstreams answer by qualified name and delivered arguments and
reloads succeed, the result cache is transparent exactly when no call finds a
result that response redaction changed without its arguments being changed
too. -/
theorem transparent_iff_reported (rt : Runtime)
    (answers : ClientRef→String→Json→UpstreamOutcome) (keyed : String→UpstreamAnswer)
    (cfg : GatewayConfig) (cbPolicy : CircuitBreakerPolicy) (now : ℚ) (g g' : Gateway)
    (hb : boot rt cfg cbPolicy now=.ok g)
    (hb' : boot rt (withoutResults cfg) cbPolicy now=.ok g') (actions : List GatewayAction)
    (hk : Meets (fun g a => (GatewayRuns.step rt g a).1) (ByKey rt answers keyed) g actions) :
    SameResults (run (GatewayRuns.step rt) g actions).2
      (run (GatewayRuns.step rt) g' (twin rt answers g actions)).2 ↔
    Meets (fun g a => (GatewayRuns.step rt g a).1) (Reported rt answers) g actions := by
  have hown : OwnResults rt keyed g.orchestrator := by
    have hexplained := explained_boot hb
    intro cache hc key entry hentry
    obtain ⟨_,_,_,_,_,_,_,hnone,-⟩ := hexplained.stored cache hc key entry hentry
    exact absurd hnone List.not_mem_nil
  rw [boot_withoutResults hb hb',sameResults_twin]
  exact meets_iff_of_meets (I:=fun g => OwnResults rt keyed g.orchestrator) own_step
    findsOwn_iff_reported hown hk

end Keyed

/-- One call is answered and then repeated. -/
def repeatedCall (outcome : UpstreamOutcome) : List GatewayAction :=
  [.registry (.register {id := "a"}),.callStart (serverRequest "a"),.callFinish 0 outcome,
    .callStart (serverRequest "a")]

/-- A plain answer. -/
def plainAnswer : UpstreamOutcome := .answered ⟨[.text "A"],false⟩

theorem transparent_iff_repeated :
    SameResults (run (GatewayRuns.step asciiRuntime) cachingGateway (repeatedCall plainAnswer)).2
      (run (GatewayRuns.step asciiRuntime) (uncachedGateway cachingGateway)
        (twin asciiRuntime (fun _ _ _ => plainAnswer) cachingGateway
          (repeatedCall plainAnswer))).2 ↔
    Meets (fun g a => (GatewayRuns.step asciiRuntime g a).1)
      (FindsOwn asciiRuntime (fun _ _ _ => plainAnswer)) cachingGateway
      (repeatedCall plainAnswer) :=
  transparent_iff asciiRuntime (fun _ _ _ => plainAnswer) cachingConfig {} 0 cachingGateway
    (uncachedGateway cachingGateway) rfl rfl (repeatedCall plainAnswer)

/-- Whether a result is reported as redacted. -/
def reported : CallOutcome→Option Bool
  | .returned result => some result.redacted
  | _ => none

/-- Calls that end alike are reported alike. -/
theorem sameResults_reported {events events' : List GatewayEvent}
    (h : SameResults events events') :
    (outcomes events).map reported=(outcomes events').map reported := by
  have hseen : reported∘seen=reported := by
    funext outcome
    cases outcome <;> rfl
  have hmap := congrArg (List.map reported) h
  rw [List.map_map,List.map_map,hseen] at hmap
  exact hmap

/-- An answer with a social security number. -/
def ssnAnswer : UpstreamOutcome := .answered ⟨[.text "SSN 123-45-6789"],false⟩

/-- The repeated call is answered with redacted content that is not reported
as redacted. -/
theorem hit_not_reported :
    ¬SameResults (run (GatewayRuns.step asciiRuntime) cachingGateway (repeatedCall ssnAnswer)).2
      (run (GatewayRuns.step asciiRuntime) (uncachedGateway cachingGateway)
        (twin asciiRuntime (fun _ _ _ => ssnAnswer) cachingGateway
          (repeatedCall ssnAnswer))).2 := by
  intro h
  have hcached : (outcomes (run (GatewayRuns.step asciiRuntime) cachingGateway
      (repeatedCall ssnAnswer)).2).map reported=[some true,some false] := by decide +kernel
  have huncached : (outcomes (run (GatewayRuns.step asciiRuntime) (uncachedGateway cachingGateway)
      (twin asciiRuntime (fun _ _ _ => ssnAnswer) cachingGateway
        (repeatedCall ssnAnswer))).2).map reported=[some true,some true] := by decide +kernel
  have hreported := sameResults_reported h
  rw [hcached,huncached] at hreported
  exact absurd hreported (by decide)

end McpGateway.CacheTransparency
