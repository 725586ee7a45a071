import Mathlib
import McpGateway.StepRun
import McpGateway.TokenRefill
import McpGateway.RateLimiting
import McpGateway.RateRuns

/-!
# Rate limits of different agents

Buckets of agent and tool are found by the text `<agent>:<tool>`. A name with
a colon on either side can make two pairs share a bucket, which then has the
settings of the tool that was checked first. Without such a coincidence the
checks of one agent can be removed without changing the outcomes of the
others, and every bucket has the settings of its tool.
-/

namespace McpGateway.AgentIsolation

open PyDict GatewaySettings StepRun TokenRefill RateLimiting RateRuns

/-- Key of the bucket of a check. -/
abbrev keyOf (c : TimedCheck) : String := toolKey c.agentId c.qualifiedTool

/-- Outcomes of one agent. -/
def outcomesOf (agentId : String) (events : List CheckEvent) : List CheckEvent :=
  events.filter (fun e => decide (e.check.agentId=agentId))

/-- The sequence without the checks of one agent. -/
def without (agentId : String) (checks : List TimedCheck) : List TimedCheck :=
  checks.filter (fun c => decide (c.agentId≠agentId))

/-- Agents do not interfere in a sequence of checks. -/
structure Isolated (cfg : RateLimiterConfig) (checks : List TimedCheck) : Prop where
  /-- The outcomes of one agent do not depend on the checks of another. -/
  independent : ∀ a b, a≠b→ outcomesOf a (outcomes (start cfg) checks)=
    outcomesOf a (outcomes (start cfg) (without b checks))
  /-- Every check is limited by a bucket with the settings of its tool. -/
  configured : ∀ before c after, checks=before++c::after→
    ((final step (start cfg) before).toolBucket c.agentId c.qualifiedTool c.time).rate=
      toolRate cfg c.qualifiedTool ∧
    ((final step (start cfg) before).toolBucket c.agentId c.qualifiedTool c.time).capacity=
      toolBurst cfg c.qualifiedTool

/-- Checks of different agents have different keys. -/
def KeysSeparate (checks : List TimedCheck) : Prop :=
  ∀ c∈checks, ∀ d∈checks, keyOf c=keyOf d→c.agentId=d.agentId

/-- One agent has one key for each tool. -/
theorem tool_of_keyOf {c d : TimedCheck} (h : keyOf c=keyOf d) (ha : c.agentId=d.agentId) :
    c.qualifiedTool=d.qualifiedTool := by
  rw [keyOf,keyOf,toolKey,toolKey,ha] at h
  have hletters := congrArg String.toList h
  simp only [String.toList_append] at hletters
  exact String.toList_inj.mp (List.append_cancel_left hletters)

/-- One tool has one key for each agent. -/
theorem agent_of_keyOf {c d : TimedCheck} (h : keyOf c=keyOf d)
    (ht : c.qualifiedTool=d.qualifiedTool) : c.agentId=d.agentId := by
  rw [keyOf,keyOf,toolKey,toolKey,ht] at h
  have hletters := congrArg String.toList h
  simp only [String.toList_append] at hletters
  have hagents := List.append_cancel_right (List.append_cancel_right hletters)
  exact String.toList_inj.mp hagents

/-- A disabled limiter grants everything and stores nothing. -/
theorem check_disabled {limiter : RateLimiter} (he : limiter.cfg.enabled=false) (now : ℚ)
    (agentId qualifiedTool : String) :
    limiter.check now agentId qualifiedTool=(limiter,.granted) := by
  unfold RateLimiter.check
  exact if_pos he

/-- A check leaves the buckets of other agents alone. -/
theorem agentBuckets_frame (limiter : RateLimiter) {c : TimedCheck} {agentId : String}
    (h : c.agentId≠agentId) :
    (step limiter c).agentBuckets.get? agentId=limiter.agentBuckets.get? agentId := by
  cases he : limiter.cfg.enabled with
  | false => rw [step,check_disabled he]
  | true => rw [step_agentBuckets he,Dict.get?_set_other _ h]

/-- A check leaves the buckets with other keys alone. -/
theorem toolBuckets_frame (limiter : RateLimiter) {c : TimedCheck} {key : String}
    (h : keyOf c≠key) :
    (step limiter c).toolBuckets.get? key=limiter.toolBuckets.get? key := by
  cases he : limiter.cfg.enabled with
  | false => rw [step,check_disabled he]
  | true =>
    rw [step_toolBuckets he]
    split
    · exact Dict.get?_set_other _ h _
    · rfl

/-- Two limiters that agree on what the checks of all agents but one read. -/
structure Agree (checks : List TimedCheck) (dropped : String) (limiter limiter' : RateLimiter) :
    Prop where
  /-- One configuration. -/
  cfg : limiter.cfg=limiter'.cfg
  /-- Buckets of the other agents. -/
  agents : ∀ agentId, agentId≠dropped→
    limiter.agentBuckets.get? agentId=limiter'.agentBuckets.get? agentId
  /-- Buckets of the other agents' checks. -/
  tools : ∀ d∈checks, d.agentId≠dropped→
    limiter.toolBuckets.get? (keyOf d)=limiter'.toolBuckets.get? (keyOf d)

section Steps

variable {checks : List TimedCheck} {dropped : String} {limiter limiter' : RateLimiter}
  {c : TimedCheck}

/-- A check of another agent has the same outcome and keeps the agreement. -/
theorem agree_kept (hc : c∈checks) (hother : c.agentId≠dropped)
    (h : Agree checks dropped limiter limiter') :
    Agree checks dropped (step limiter c) (step limiter' c) ∧
    (limiter.check c.time c.agentId c.qualifiedTool).2=
      (limiter'.check c.time c.agentId c.qualifiedTool).2 := by
  have hcfg := step_cfg limiter c
  have hcfg' := step_cfg limiter' c
  have hagent : limiter.agentBucket c.agentId c.time=limiter'.agentBucket c.agentId c.time := by
    rw [RateLimiter.agentBucket,RateLimiter.agentBucket,h.cfg,h.agents _ hother]
  have htool : limiter.toolBucket c.agentId c.qualifiedTool c.time=
      limiter'.toolBucket c.agentId c.qualifiedTool c.time := by
    rw [RateLimiter.toolBucket,RateLimiter.toolBucket,h.cfg,h.tools c hc hother]
  cases he : limiter.cfg.enabled with
  | false =>
    have he' : limiter'.cfg.enabled=false := h.cfg ▸ he
    rw [step,step,check_disabled he,check_disabled he']
    exact ⟨h,rfl⟩
  | true =>
    have he' : limiter'.cfg.enabled=true := h.cfg ▸ he
    refine ⟨⟨hcfg.trans (h.cfg.trans hcfg'.symm),?_,?_⟩,?_⟩
    · intro agentId hid
      rw [step_agentBuckets he,step_agentBuckets he',hagent,Dict.get?_set,
        Dict.get?_set,h.agents agentId hid]
    · intro d hd hid
      rw [step_toolBuckets he,step_toolBuckets he',hagent,htool]
      split
      · rw [Dict.get?_set,Dict.get?_set,h.tools d hd hid]
      · exact h.tools d hd hid
    · rw [check_verdict he,check_verdict he',hagent,htool]

/-- A check of the dropped agent keeps the agreement when it shares no key. -/
theorem agree_dropped (hs : KeysSeparate checks) (hc : c∈checks) (hid : c.agentId=dropped)
    (h : Agree checks dropped limiter limiter') :
    Agree checks dropped (step limiter c) limiter' := by
  have hcfg := step_cfg limiter c
  refine ⟨hcfg.trans h.cfg,?_,?_⟩
  · intro agentId hother
    have hne : c.agentId≠agentId := fun heq => hother (heq.symm.trans hid)
    exact (agentBuckets_frame limiter hne).trans (h.agents agentId hother)
  · intro d hd hother
    have hne : keyOf c≠keyOf d := fun heq => hother ((hs c hc d hd heq).symm.trans hid)
    exact (toolBuckets_frame limiter hne).trans (h.tools d hd hother)

end Steps

/-- Without shared keys the checks of one agent can be removed without
changing the outcomes of all others. -/
theorem outcomes_without {checks : List TimedCheck} (hs : KeysSeparate checks)
    (cfg : RateLimiterConfig) (dropped : String) :
    outcomes (start cfg) (without dropped checks)=
      (outcomes (start cfg) checks).filter (fun e => decide (e.check.agentId≠dropped)) := by
  refine run_filter (R:=Agree checks dropped) (C:=fun c => c∈checks) ?_ ?_
    ⟨rfl,fun _ _ => rfl,fun _ _ _ => rfl⟩ (fun _ hc => hc)
  · intro limiter limiter' c hc hkeep h
    have hother := of_decide_eq_true hkeep
    obtain ⟨hnext,hverdict⟩ := agree_kept hc hother h
    refine ⟨hnext,congrArg (fun verdict => some (CheckEvent.mk c verdict)) hverdict,?_⟩
    intro e he
    cases he
    exact hkeep
  · intro limiter limiter' c hc hkeep h
    have hid := of_not_not (of_decide_eq_false hkeep)
    refine ⟨agree_dropped hs hc hid h,?_⟩
    intro e he
    cases he
    exact hkeep

/-- Taking a token keeps the settings of a bucket. -/
theorem consume_settings (bucket : TokenBucket) (now : ℚ) :
    (bucket.consume now).1.rate=bucket.rate ∧ (bucket.consume now).1.capacity=bucket.capacity := by
  unfold TokenBucket.consume
  dsimp only
  split
  · exact ⟨rfl,rfl⟩
  · split <;> exact ⟨rfl,rfl⟩

/-- A check that its agent can pay for leaves the bucket it was limited by
for all later checks with its key. -/
theorem toolBucket_step {limiter : RateLimiter} (he : limiter.cfg.enabled=true) {c d : TimedCheck}
    (hgrant : passes ((limiter.agentBucket c.agentId c.time).consume c.time).2=true)
    (hkey : keyOf c=keyOf d) : (step limiter c).toolBucket d.agentId d.qualifiedTool d.time=
      ((limiter.toolBucket c.agentId c.qualifiedTool c.time).consume c.time).1 := by
  have htools := step_toolBuckets he c
  rw [hgrant,if_pos rfl] at htools
  have hread : toolKey d.agentId d.qualifiedTool=toolKey c.agentId c.qualifiedTool := hkey.symm
  rw [RateLimiter.toolBucket,htools,hread,Dict.get?_set_self,Option.getD_some]

/-- Checks with other keys leave the bucket of a check as it was. -/
theorem toolBucket_frame (limiter : RateLimiter) {c d : TimedCheck} (h : keyOf c≠keyOf d) :
    (step limiter c).toolBucket d.agentId d.qualifiedTool d.time=
      limiter.toolBucket d.agentId d.qualifiedTool d.time := by
  have hcfg := step_cfg limiter c
  rw [RateLimiter.toolBucket,RateLimiter.toolBucket,hcfg]
  exact congrArg (Option.getD · _) (toolBuckets_frame limiter h)

/-- The bucket of a check has the settings of its tool. -/
def HasSettings (limiter : RateLimiter) (c : TimedCheck) : Prop :=
  (limiter.toolBucket c.agentId c.qualifiedTool c.time).rate=
    toolRate limiter.cfg c.qualifiedTool ∧
  (limiter.toolBucket c.agentId c.qualifiedTool c.time).capacity=
    toolBurst limiter.cfg c.qualifiedTool

/-- Without shared keys a check keeps the settings of all buckets. -/
theorem hasSettings_step {checks : List TimedCheck} (hs : KeysSeparate checks)
    {limiter : RateLimiter} {c : TimedCheck} (hc : c∈checks)
    (h : ∀ d∈checks, HasSettings limiter d) : ∀ d∈checks, HasSettings (step limiter c) d := by
  intro d hd
  have hcfg := step_cfg limiter c
  by_cases hkey : keyOf c=keyOf d
  · have htool := tool_of_keyOf hkey (hs c hc d hd hkey)
    cases he : limiter.cfg.enabled with
    | false =>
      rw [step,check_disabled he]
      exact h d hd
    | true =>
      obtain ⟨hrate,hcapacity⟩ := h c hc
      obtain ⟨hrate',hcapacity'⟩ :=
        consume_settings (limiter.toolBucket c.agentId c.qualifiedTool c.time) c.time
      have htools := step_toolBuckets he c
      cases hgrant : passes ((limiter.agentBucket c.agentId c.time).consume c.time).2 with
      | false =>
        rw [hgrant,if_neg Bool.noConfusion] at htools
        rw [HasSettings,RateLimiter.toolBucket,hcfg,htools]
        exact h d hd
      | true =>
        rw [HasSettings,toolBucket_step he hgrant hkey,hcfg,←htool]
        exact ⟨hrate'.trans hrate,hcapacity'.trans hcapacity⟩
  · rw [HasSettings,toolBucket_frame limiter hkey,hcfg]
    exact h d hd

/-- Without shared keys no two agents interfere, for any configuration. -/
theorem isolated_of_keysSeparate {checks : List TimedCheck} (hs : KeysSeparate checks)
    (cfg : RateLimiterConfig) : Isolated cfg checks := by
  refine ⟨fun a b hab => ?_,fun before c after hsplit => ?_⟩
  · rw [outcomes_without hs,outcomesOf,outcomesOf,List.filter_filter]
    refine List.filter_congr fun e _ => ?_
    by_cases ha : e.check.agentId=a
    · simp [ha,hab]
    · simp [ha]
  · have hall : ∀ d∈before++c::after, HasSettings (final step (start cfg) before) d := by
      rw [hsplit] at hs
      have hmem : ∀ d∈before, d∈before++c::after := fun d hd => List.mem_append_left _ hd
      generalize before++c::after=checks at hs hmem
      have hstart : ∀ d∈checks, HasSettings (start cfg) d := fun _ _ => ⟨rfl,rfl⟩
      exact meets_invariant (I:=fun limiter => ∀ d∈checks, HasSettings limiter d)
        (C:=fun _ d => d∈checks) (fun _ _ h hd => hasSettings_step hs hd h)
        hstart (meets_of_forall (fun _ d hd => hmem d hd) _)
    have hc := hall c (List.mem_append_right _ List.mem_cons_self)
    rwa [HasSettings,final_cfg] at hc

/-- A configuration under which every check reaches the bucket of its tool,
and the buckets of one tool differ from all others. -/
def distinguishing (checks : List TimedCheck) (qualifiedTool : String) : RateLimiterConfig :=
  {defaultAgentRate := 0,defaultAgentBurst := checks.length,
    tools := Dict.empty.set qualifiedTool (Dict.empty.set "rate" 7)}

/-- The rate of the distinguished tool is different. -/
theorem toolRate_distinguishing (checks : List TimedCheck) (qualifiedTool other : String) :
    toolRate (distinguishing checks qualifiedTool) other=
      if qualifiedTool=other then 7 else 5 := by
  rw [toolRate,overridden,distinguishing]
  dsimp only
  rw [Dict.get?_set]
  split
  · rw [Option.getD_some,Dict.get?_set_self,Option.getD_some]
  · rfl

/-- Agents have spent at most one token for each check. -/
def Supplied (burst : ℚ) (made : ℕ) (limiter : RateLimiter) : Prop :=
  ∀ agentId now, (limiter.agentBucket agentId now).rate=0 ∧
    (limiter.agentBucket agentId now).capacity=burst ∧
    burst-made≤(limiter.agentBucket agentId now).tokens

section Supplies

variable {burst : ℚ} {made : ℕ} {limiter : RateLimiter}

/-- A refill at rate zero leaves what is there. -/
theorem supplied_filled (h : Supplied burst made limiter) (agentId : String) (now : ℚ) :
    burst-made≤(filled (limiter.agentBucket agentId now) now).tokens := by
  obtain ⟨hrate,hcapacity,htokens⟩ := h agentId now
  have hmade : 0≤(made : ℚ) := Nat.cast_nonneg made
  rw [filled,refill,hrate,hcapacity,mul_zero,add_zero]
  exact le_min (by linarith) htokens

/-- An agent can pay while fewer checks were made than it has tokens. -/
theorem supplied_grants (h : Supplied burst made limiter) (hmade : (made+1 : ℚ)≤burst)
    (agentId : String) (now : ℚ) :
    passes ((limiter.agentBucket agentId now).consume now).2=true := by
  have hfilled := supplied_filled h agentId now
  rw [consume_granted (by linarith)]
  rfl

/-- A check spends at most one token. -/
theorem supplied_step (h : Supplied burst made limiter) (he : limiter.cfg.enabled=true)
    (hmade : (made+1 : ℚ)≤burst) (c : TimedCheck) : Supplied burst (made+1) (step limiter c) := by
  intro agentId now
  have hcfg := step_cfg limiter c
  have hagents := step_agentBuckets he c
  by_cases hid : c.agentId=agentId
  · subst hid
    obtain ⟨hrate,hcapacity,-⟩ := h c.agentId c.time
    have hfilled := supplied_filled h c.agentId c.time
    rw [RateLimiter.agentBucket,hagents,Dict.get?_set_self,Option.getD_some,
      consume_granted (by linarith)]
    refine ⟨hrate,hcapacity,?_⟩
    push_cast
    linarith
  · obtain ⟨hrate,hcapacity,htokens⟩ := h agentId now
    have hsame : (step limiter c).agentBucket agentId now=limiter.agentBucket agentId now := by
      rw [RateLimiter.agentBucket,RateLimiter.agentBucket,hcfg,hagents,Dict.get?_set_other _ hid]
    rw [hsame]
    refine ⟨hrate,hcapacity,?_⟩
    push_cast
    linarith

end Supplies

/-- Every check of a sequence is paid for under the distinguishing settings. -/
theorem supplied_final (checks : List TimedCheck) (qualifiedTool : String)
    {before : List TimedCheck} (hlen : before.length≤checks.length) :
    Supplied checks.length before.length
      (final step (start (distinguishing checks qualifiedTool)) before) := by
  induction before using List.reverseRecOn with
  | nil =>
    intro agentId now
    refine ⟨rfl,rfl,?_⟩
    rw [List.length_nil,Nat.cast_zero,sub_zero]
    exact le_rfl
  | append_singleton before c ih =>
    rw [List.length_append,List.length_singleton] at hlen ⊢
    rw [final,List.foldl_append]
    refine supplied_step (ih (by omega)) ?_ (by exact_mod_cast hlen) c
    have hcfg := final_cfg (start (distinguishing checks qualifiedTool)) before
    rw [final] at hcfg
    rw [hcfg]
    rfl

/-- A bucket has the rate of the tool that was first checked with its key. -/
theorem bucket_origin (checks : List TimedCheck) (qualifiedTool : String)
    {before : List TimedCheck} (hlen : before.length≤checks.length) (d : TimedCheck) :
    ((final step (start (distinguishing checks qualifiedTool)) before).toolBucket d.agentId
      d.qualifiedTool d.time).rate=toolRate (distinguishing checks qualifiedTool)
        ((before.find? (fun c => decide (keyOf c=keyOf d))).getD d).qualifiedTool := by
  induction before using List.reverseRecOn generalizing d with
  | nil => rfl
  | append_singleton before c ih =>
    rw [List.length_append,List.length_singleton] at hlen
    have hpaid : before.length≤checks.length := by omega
    have hearlier := ih hpaid
    have hsupplied := supplied_final checks qualifiedTool hpaid
    have hcfg := final_cfg (start (distinguishing checks qualifiedTool)) before
    have hlast : final step (start (distinguishing checks qualifiedTool)) (before++[c])=
        step (final step (start (distinguishing checks qualifiedTool)) before) c :=
      List.foldl_append
    rw [hlast,List.find?_append]
    by_cases hkey : keyOf c=keyOf d
    · have hgrant := supplied_grants hsupplied (by exact_mod_cast hlen) c.agentId c.time
      have henabled : (final step (start (distinguishing checks qualifiedTool)) before).cfg.enabled=
          true := by rw [hcfg]; rfl
      rw [toolBucket_step henabled hgrant hkey,(consume_settings _ _).1,hearlier c]
      simp only [hkey,List.find?_singleton,decide_true,if_true]
      cases before.find? (fun e => decide (keyOf e=keyOf d)) <;> rfl
    · rw [toolBucket_frame _ hkey,hearlier d]
      simp only [hkey,List.find?_singleton,decide_false,Bool.false_eq_true,if_false,Option.or_none]

/-- Whatever else a test finds in a list comes after the first that it finds. -/
theorem found_before {p : TimedCheck→Bool} {checks : List TimedCheck} {first later : TimedCheck}
    (hfirst : checks.find? p=some first) (hlater : later∈checks) (hp : p later=true)
    (hne : first≠later) : ∃ before after, checks=before++later::after ∧
      before.find? p=some first := by
  obtain ⟨before,after,hsplit⟩ := List.append_of_mem hlater
  refine ⟨before,after,hsplit,?_⟩
  rw [hsplit,List.find?_append] at hfirst
  cases hf : before.find? p with
  | some e => rwa [hf] at hfirst
  | none =>
    rw [hf,Option.none_or,List.find?_cons_of_pos hp] at hfirst
    exact absurd (Option.some.inj hfirst).symm hne

/-- Two agents that share a key have a configuration under which the later
check is limited at the rate of the other's tool. -/
theorem keysSeparate_of_isolated {checks : List TimedCheck}
    (h : ∀ cfg, Isolated cfg checks) : KeysSeparate checks := by
  intro c hc d hd hkey
  by_contra hagents
  obtain ⟨first,hfirst⟩ : ∃ first, checks.find? (fun e => decide (keyOf e=keyOf c))=some first :=
    Option.isSome_iff_exists.mp (List.find?_isSome.mpr ⟨c,hc,decide_eq_true rfl⟩)
  have hfound := List.find?_some hfirst
  have hshared := of_decide_eq_true hfound
  obtain ⟨later,hlater,hsame,hother⟩ : ∃ later∈checks, keyOf later=keyOf c ∧
      first.agentId≠later.agentId := by
    by_cases hid : first.agentId=c.agentId
    · exact ⟨d,hd,hkey.symm,fun heq => hagents (hid.symm.trans heq)⟩
    · exact ⟨c,hc,rfl,hid⟩
  have hne : first≠later := fun heq => hother (congrArg TimedCheck.agentId heq)
  obtain ⟨before,after,hsplit,hbefore⟩ := found_before hfirst hlater (decide_eq_true hsame) hne
  have htools : first.qualifiedTool≠later.qualifiedTool :=
    fun htool => hother (agent_of_keyOf (hshared.trans hsame.symm) htool)
  have hlen : before.length≤checks.length := by
    rw [hsplit,List.length_append]
    omega
  obtain ⟨hrate,-⟩ := (h (distinguishing checks later.qualifiedTool)).configured before later after
    hsplit
  rw [←hsame] at hbefore
  rw [bucket_origin checks later.qualifiedTool hlen later,hbefore,Option.getD_some,
    toolRate_distinguishing,toolRate_distinguishing,if_neg (Ne.symm htools),if_pos rfl] at hrate
  norm_num at hrate

/-- For every sequence of checks, agents do not interfere under any
configuration exactly when no two agents of the sequence share a key. -/
theorem isolated_iff (checks : List TimedCheck) :
    (∀ cfg, Isolated cfg checks) ↔ KeysSeparate checks :=
  ⟨keysSeparate_of_isolated,fun hs cfg => isolated_of_keysSeparate hs cfg⟩

/-- Agent `a:b` on `c.x` and agent `a` on `b:c.x` use one bucket, so the call
of the first makes that of the second fail. -/
theorem shared_bucket : ¬Isolated {defaultToolBurst := 1}
    [⟨0,"a:b","c.x"⟩,⟨0,"a","b:c.x"⟩] := by
  intro h
  have hsame := congrArg (List.map (fun e => returns e.verdict))
    (h.independent "a" "a:b" (by decide))
  exact absurd hsame (by decide +kernel)

end McpGateway.AgentIsolation
