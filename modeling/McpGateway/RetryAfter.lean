import Mathlib
import McpGateway.StepRun
import McpGateway.TokenRefill
import McpGateway.PyNumber
import McpGateway.RateLimiting
import McpGateway.RateRuns

/-!
# The waiting time a refusal reports

A bucket refuses a request for more than it holds and names a wait, the time
until the missing part has flowed in, rounded to milliseconds. Requests that
are refused in the meantime only refill the bucket early. The wait is long
enough unless the rounding made it shorter.
-/

namespace McpGateway.RetryAfter

open PyNumber StepRun TokenRefill RateLimiting RateRuns

deriving instance DecidableEq for Consumed

/-- A call of `consume`. -/
structure Request where
  /-- Monotonic clock. -/
  time : ℚ
  /-- Requested tokens. -/
  amount : ℚ

/-- What a bucket answers. -/
def answer (bucket : TokenBucket) (r : Request) : Consumed := (bucket.consume r.time r.amount).2

/-- The bucket after a request. -/
def take (bucket : TokenBucket) (r : Request) : TokenBucket :=
  (bucket.consume r.time r.amount).1

/-- The clock does not go back. -/
def Later (bucket : TokenBucket) (r : Request) : Prop := bucket.last≤r.time

/-- A request at no earlier time that is not granted. -/
def LaterRefused (bucket : TokenBucket) (r : Request) : Prop :=
  Later bucket r ∧ passes (answer bucket r)=false

/-- Time until the missing part of a request has flowed in. -/
def shortage (bucket : TokenBucket) (r : Request) : ℚ :=
  (r.amount-(filled bucket r.time).tokens)/bucket.rate

/-- A request is answered from the refilled bucket. -/
theorem consume_filled (bucket : TokenBucket) (now amount : ℚ) : bucket.consume now amount=
    if amount≤(filled bucket now).tokens then
      ({filled bucket now with tokens := (filled bucket now).tokens-amount},.granted)
    else if bucket.rate=0 then (filled bucket now,.divisionByZero)
    else (filled bucket now,
      .refused (roundTo 3 ((amount-(filled bucket now).tokens)/bucket.rate))) := rfl

/-- A request is granted when the refilled bucket covers it. -/
theorem passes_iff (bucket : TokenBucket) (r : Request) :
    passes (answer bucket r)=true ↔ r.amount≤(filled bucket r.time).tokens := by
  rw [answer,consume_filled]
  by_cases h : r.amount≤(filled bucket r.time).tokens
  · rw [if_pos h]
    exact ⟨fun _ => h,fun _ => rfl⟩
  · rw [if_neg h]
    refine ⟨fun hp => ?_,fun hr => absurd hr h⟩
    split at hp <;> cases hp

/-- A request that is not granted leaves the refilled bucket. -/
theorem take_refused {bucket : TokenBucket} {r : Request} (h : passes (answer bucket r)=false) :
    take bucket r=filled bucket r.time := by
  have hshort : ¬r.amount≤(filled bucket r.time).tokens := fun hr => by
    rw [(passes_iff bucket r).mpr hr] at h
    cases h
  rw [take,consume_filled,if_neg hshort]
  split <;> rfl

/-- The reported wait is the shortage in milliseconds, rounded. -/
theorem answer_refused {bucket : TokenBucket} {r : Request} {w : ℚ}
    (h : answer bucket r=.refused w) :
    (filled bucket r.time).tokens<r.amount ∧ w=roundTo 3 (shortage bucket r) := by
  rw [answer,consume_filled] at h
  by_cases hr : r.amount≤(filled bucket r.time).tokens
  · rw [if_pos hr] at h
    cases h
  · rw [if_neg hr] at h
    split at h
    · cases h
    · cases h
      exact ⟨not_le.mp hr,rfl⟩

/-- Requests change neither the rate nor the capacity, and the bucket is known
at the time of the last one. -/
theorem take_frame (bucket : TokenBucket) (r : Request) : (take bucket r).rate=bucket.rate ∧
    (take bucket r).capacity=bucket.capacity ∧ (take bucket r).last=r.time := by
  rw [take,consume_filled]
  split
  · exact ⟨rfl,rfl,rfl⟩
  · split <;> exact ⟨rfl,rfl,rfl⟩

/-- Refused requests cannot be noticed by a later refill. -/
theorem filled_final {bucket : TokenBucket} (hr : 0≤bucket.rate) {requests : List Request}
    (h : Meets take LaterRefused bucket requests) {t : ℚ}
    (ht : (final take bucket requests).last≤t) :
    filled (final take bucket requests) t=filled bucket t := by
  induction requests generalizing bucket with
  | nil => rfl
  | cons r requests ih =>
    obtain ⟨⟨hlater,hrefused⟩,hrest⟩ := h
    obtain ⟨hrate,-,hlast⟩ := take_frame bucket r
    have hfirst := ih (hrate.symm ▸ hr) hrest ht
    have hpast : r.time≤t := by
      have hmono : (take bucket r).last≤(final take (take bucket r) requests).last := by
        refine meets_invariant (I:=fun b : TokenBucket => (take bucket r).last≤b.last)
          (fun b s hb hs => ?_) le_rfl hrest
        exact (hb.trans hs.1).trans_eq (take_frame b s).2.2.symm
      exact (hlast.symm.le.trans hmono).trans ht
    calc filled (final take bucket (r::requests)) t
        =filled (take bucket r) t := hfirst
      _=filled (filled bucket r.time) t := by rw [take_refused hrefused]
      _=filled bucket t := filled_filled hr hpast

/-- After a refusal the request is covered as soon as its shortage has
passed. -/
theorem covered_iff {bucket : TokenBucket} {r : Request} (hr : 0<bucket.rate)
    (hc : r.amount≤bucket.capacity) (t : ℚ) :
    r.amount≤(filled (filled bucket r.time) t).tokens ↔ shortage bucket r≤t-r.time := by
  have htokens : (filled (filled bucket r.time) t).tokens=
      min bucket.capacity ((filled bucket r.time).tokens+(t-r.time)*bucket.rate) := rfl
  have hinflow : shortage bucket r≤t-r.time ↔
      r.amount≤(filled bucket r.time).tokens+(t-r.time)*bucket.rate := by
    rw [shortage,div_le_iff₀ hr,sub_le_iff_le_add']
  rw [htokens,le_min_iff,hinflow]
  exact ⟨And.right,fun h => ⟨hc,h⟩⟩

/-- A repetition of the request, at any time after the wait and with any
refused requests in between, is granted. -/
def Honest (bucket : TokenBucket) (r : Request) (w : ℚ) : Prop :=
  ∀ between t, Meets take LaterRefused (take bucket r) between→ r.time+w≤t→
    (final take (take bucket r) between).last≤t→
    passes (answer (final take (take bucket r) between) ⟨t,r.amount⟩)=true

/-- In every state of a bucket with an inflow, however it was reached, a
refusal of a request within the capacity reports a sufficient wait exactly
when the shortage in milliseconds is not rounded down. -/
theorem retryAfter_honest_iff {bucket : TokenBucket} (hr : 0<bucket.rate) {r : Request}
    (hc : r.amount≤bucket.capacity) {w : ℚ} (hw : answer bucket r=.refused w) :
    Honest bucket r w ↔ ¬RoundsDown (shortage bucket r*10^3) := by
  obtain ⟨hshort,hround⟩ := answer_refused hw
  have hwait : 0≤w := by
    rw [hround]
    exact roundTo_nonneg 3 (div_nonneg (sub_nonneg.mpr hshort.le) hr.le)
  have hleft : take bucket r=filled bucket r.time := by
    refine take_refused ?_
    rw [hw]
    rfl
  rw [←le_roundTo_iff,←hround]
  constructor
  · intro h
    have hlast : (take bucket r).last≤r.time+w := by
      rw [hleft]
      exact le_add_of_nonneg_right hwait
    have hgranted := (passes_iff _ _).mp (h [] (r.time+w) trivial le_rfl hlast)
    have hcovered : r.amount≤(filled (filled bucket r.time) (r.time+w)).tokens := by
      rw [←hleft]
      exact hgranted
    rw [covered_iff hr hc,add_sub_cancel_left] at hcovered
    exact hcovered
  · intro h between t hbetween ht hlast
    have hsame := filled_final (hleft.symm ▸ hr.le) hbetween hlast
    rw [passes_iff,hsame,hleft,covered_iff hr hc]
    linarith

theorem retryAfter_honest_half :
    Honest (take (TokenBucket.new 2 1 0) ⟨0,1⟩) ⟨0,1⟩ (1/2) ↔
      ¬RoundsDown (shortage (take (TokenBucket.new 2 1 0) ⟨0,1⟩) ⟨0,1⟩*10^3) :=
  retryAfter_honest_iff (by decide +kernel) (by decide +kernel) (by decide +kernel)

theorem retryAfter_third :
    answer (take (TokenBucket.new 3 1 0) ⟨0,1⟩) ⟨0,1⟩=.refused (333/1000) ∧
    ¬Honest (take (TokenBucket.new 3 1 0) ⟨0,1⟩) ⟨0,1⟩ (333/1000) := by
  refine ⟨by decide +kernel,fun h => ?_⟩
  have hrefused : passes (answer (take (take (TokenBucket.new 3 1 0) ⟨0,1⟩) ⟨0,1⟩)
      ⟨0+333/1000,1⟩)=false := by decide +kernel
  have hgranted := h [] (0+333/1000) trivial le_rfl (by decide +kernel)
  exact Bool.noConfusion (hrefused.symm.trans hgranted)

end McpGateway.RetryAfter
