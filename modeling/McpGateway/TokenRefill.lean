import Mathlib

/-!
# Continuously refilled contents

A content grows at a constant rate up to a capacity and is spent in units. A
ledger lists the requests made to it in time order, each with whether a unit
was granted; what is left afterwards covers what was granted. The amount
granted in any window of time is bounded by the capacity and the inflow.
Contents and times are taken from any ordered field.
-/

namespace McpGateway.TokenRefill

variable {K : Type*} [Field K] [LinearOrder K]

/-- Content after some time in which nothing is spent. -/
def refill (capacity rate tokens elapsed : K) : K := min capacity (tokens+elapsed*rate)

variable {capacity rate tokens elapsed : K}

/-- The capacity is never exceeded. -/
theorem refill_le_capacity : refill capacity rate tokens elapsed≤capacity := min_le_left _ _

/-- The inflow is all that is added. -/
theorem refill_le_inflow : refill capacity rate tokens elapsed≤tokens+elapsed*rate :=
  min_le_right _ _

/-- At the same time nothing is added. -/
theorem refill_zero (h : tokens≤capacity) : refill capacity rate tokens 0=tokens := by
  rw [refill,zero_mul,add_zero]
  exact min_eq_right h

section Ordered

variable [IsStrictOrderedRing K]

/-- A content does not become negative by waiting. -/
theorem refill_nonneg (hc : 0≤capacity) (hr : 0≤rate) (ht : 0≤tokens) (he : 0≤elapsed) :
    0≤refill capacity rate tokens elapsed :=
  le_min hc (add_nonneg ht (mul_nonneg he hr))

/-- A larger content stays larger. -/
theorem refill_mono {tokens' : K} (h : tokens≤tokens') :
    refill capacity rate tokens elapsed≤refill capacity rate tokens' elapsed :=
  min_le_min_left _ (add_le_add_left h _)

/-- A full content stays full. -/
theorem refill_full (hr : 0≤rate) (he : 0≤elapsed) :
    refill capacity rate capacity elapsed=capacity := by
  have hinflow := mul_nonneg he hr
  exact min_eq_left (by linarith)

/-- Waiting twice is waiting once for the sum of the times. -/
theorem refill_refill (hr : 0≤rate) {later : K} (hl : 0≤later) :
    refill capacity rate (refill capacity rate tokens elapsed) later=
      refill capacity rate tokens (elapsed+later) := by
  have hinflow := mul_nonneg hl hr
  have hcomm : min capacity (tokens+elapsed*rate)+later*rate=
      min (capacity+later*rate) (tokens+(elapsed+later)*rate) := by
    rw [←min_add_add_right]
    congr 1
    ring
  rw [refill,refill,refill,hcomm,←min_assoc]
  rw [min_eq_left (by linarith : capacity≤capacity+later*rate)]

end Ordered

/-- Requests in time order from a content known at a time. Each finds the
content refilled and leaves at most what it did not grant. -/
inductive Ledger (capacity rate : K) : K→K→List (K×Bool)→Prop where
  /-- No requests. -/
  | nil {tokens last : K} : Ledger capacity rate tokens last []
  /-- A request at time `t`. -/
  | entry {tokens last t next : K} {granted : Bool} {rest : List (K×Bool)} (ht : last≤t)
      (hnext : 0≤next)
      (hspent : next+(if granted=true then 1 else 0)≤refill capacity rate tokens (t-last))
      (hrest : Ledger capacity rate next t rest) :
      Ledger capacity rate tokens last ((t,granted)::rest)

/-- Units granted from `t₁` to `t₂`. -/
def grantedWithin (t₁ t₂ : K) (entries : List (K×Bool)) : ℕ :=
  entries.countP (fun entry => entry.2 && decide (t₁≤entry.1 ∧ entry.1≤t₂))

/-- Requests of a ledger come after the time its content is known at. -/
theorem Ledger.last_le {last : K} {entries : List (K×Bool)}
    (h : Ledger capacity rate tokens last entries) : ∀ entry∈entries, last≤entry.1 := by
  induction h with
  | nil => exact fun _ hentry => absurd hentry List.not_mem_nil
  | entry ht _ _ _ ih =>
    intro entry hentry
    cases hentry with
    | head => exact ht
    | tail _ hentry => exact ht.trans (ih entry hentry)

/-- Nothing is granted in a window that ends before the ledger begins. -/
theorem Ledger.grantedWithin_early {last t₁ t₂ : K} {entries : List (K×Bool)}
    (h : Ledger capacity rate tokens last entries) (h₂ : t₂<last) :
    grantedWithin t₁ t₂ entries=0 := by
  refine List.countP_eq_zero.mpr fun entry hentry => ?_
  have hlast := h.last_le entry hentry
  have hout : ¬(t₁≤entry.1 ∧ entry.1≤t₂) := fun hin => absurd (hlast.trans hin.2) (not_le.mpr h₂)
  simp [hout]

/-- The part of a window before the ledger begins does not matter. -/
theorem Ledger.grantedWithin_start {last t₁ t₂ : K} {entries : List (K×Bool)}
    (h : Ledger capacity rate tokens last entries) (h₁ : t₁≤last) :
    grantedWithin t₁ t₂ entries=grantedWithin last t₂ entries := by
  refine List.countP_congr fun entry hentry => ?_
  have hlast := h.last_le entry hentry
  have hstart := h₁.trans hlast
  simp [hlast,hstart]

variable [IsStrictOrderedRing K]

/-- A full content may be known earlier. -/
theorem Ledger.full_earlier (hr : 0≤rate) {last earlier : K} {entries : List (K×Bool)}
    (h : Ledger capacity rate capacity last entries) (he : earlier≤last) :
    Ledger capacity rate capacity earlier entries := by
  cases h with
  | nil => exact .nil
  | @entry _ _ t _ _ _ ht hnext hspent hrest =>
    have hlong : 0≤t-earlier := sub_nonneg.mpr (he.trans ht)
    have hfull : refill capacity rate capacity (t-last)=
        refill capacity rate capacity (t-earlier) :=
      (refill_full hr (sub_nonneg.mpr ht)).trans (refill_full hr hlong).symm
    exact .entry (he.trans ht) hnext (hspent.trans_eq hfull) hrest

/-- What is granted in a window is bounded by the content at its beginning
and the inflow during it. -/
theorem Ledger.grantedWithin_le (hc : 0≤capacity) (hr : 0≤rate) {last t₁ t₂ : K}
    {entries : List (K×Bool)} (h : Ledger capacity rate tokens last entries) (ht : 0≤tokens)
    (h₁ : last≤t₁) (h₂ : t₁≤t₂) :
    (grantedWithin t₁ t₂ entries : K)≤refill capacity rate tokens (t₁-last)+rate*(t₂-t₁) := by
  induction h generalizing t₁ with
  | nil =>
    have hcontent := refill_nonneg hc hr ht (sub_nonneg.mpr h₁)
    have hinflow := mul_nonneg hr (sub_nonneg.mpr h₂)
    rw [grantedWithin,List.countP_nil,Nat.cast_zero]
    linarith
  | @entry tokens last t next granted rest hlast hnext hspent hrest ih =>
    rcases lt_or_ge t t₁ with hbefore | hafter
    · have hskip : grantedWithin t₁ t₂ ((t,granted)::rest)=grantedWithin t₁ t₂ rest := by
        simp [grantedWithin,not_le.mpr hbefore]
      have hleft : next≤refill capacity rate tokens (t-last) := by
        refine le_trans ?_ hspent
        split <;> linarith
      have hcontent : refill capacity rate next (t₁-t)≤refill capacity rate tokens (t₁-last) := by
        calc refill capacity rate next (t₁-t)
            ≤refill capacity rate (refill capacity rate tokens (t-last)) (t₁-t) :=
              refill_mono hleft
          _=refill capacity rate tokens (t-last+(t₁-t)) :=
              refill_refill hr (sub_nonneg.mpr hbefore.le)
          _=refill capacity rate tokens (t₁-last) := by rw [sub_add_sub_cancel']
      have hlater := ih hnext hbefore.le h₂
      rw [hskip]
      linarith
    · rcases lt_or_ge t₂ t with hout | hin
      · have hnone : grantedWithin t₁ t₂ ((t,granted)::rest)=0 := by
          have hzero : grantedWithin t₁ t₂ rest=0 := hrest.grantedWithin_early hout
          simpa [grantedWithin,not_le.mpr hout] using hzero
        have hcontent := refill_nonneg hc hr ht (sub_nonneg.mpr h₁)
        have hinflow := mul_nonneg hr (sub_nonneg.mpr h₂)
        rw [hnone,Nat.cast_zero]
        linarith
      · have hcount : (grantedWithin t₁ t₂ ((t,granted)::rest) : K)=
            grantedWithin t t₂ rest+(if granted=true then 1 else 0) := by
          rw [←hrest.grantedWithin_start hafter]
          cases granted <;> simp [grantedWithin,hafter,hin]
        have hcontent : refill capacity rate tokens (t-last)≤
            refill capacity rate tokens (t₁-last)+(t-t₁)*rate := by
          rw [←sub_add_sub_cancel' t₁ last t,←refill_refill hr (sub_nonneg.mpr hafter)]
          exact refill_le_inflow
        have hlater := ih hnext le_rfl hin
        have hnow : refill capacity rate next (t-t)≤next := by
          have hinflow : next+(t-t)*rate=next := by rw [sub_self,zero_mul,add_zero]
          exact refill_le_inflow.trans_eq hinflow
        rw [hcount]
        linarith

end McpGateway.TokenRefill
