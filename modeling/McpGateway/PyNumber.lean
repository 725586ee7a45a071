import Mathlib

/-!
# Rounding of exact numbers

`round(x, n)` on exact rationals, with ties to the even neighbour.
-/

namespace McpGateway.PyNumber

/-- Nearest integer, ties to even. -/
def roundHalfEven (q : ℚ) : ℤ :=
  let low := ⌊q⌋
  if q-low<1/2 then low
  else if 1/2<q-low then low+1
  else if low%2=0 then low else low+1

/-- `round(q, digits)`. -/
def roundTo (digits : ℕ) (q : ℚ) : ℚ := roundHalfEven (q*10^digits)/10^digits

/-- The nearest integer is below: the fraction is less than one half, or it is
one half and the integer is even. -/
def RoundsDown (q : ℚ) : Prop :=
  0<Int.fract q ∧ (Int.fract q<1/2 ∨ Int.fract q=1/2 ∧ ⌊q⌋%2=0)

/-- Rounding loses something exactly when it goes down. -/
theorem le_roundHalfEven_iff (q : ℚ) : q≤roundHalfEven q ↔ ¬RoundsDown q := by
  have hfract : q-⌊q⌋=Int.fract q := Int.self_sub_floor q
  have hlow : q≤⌊q⌋ ↔ Int.fract q≤0 := by rw [←hfract,sub_nonpos]
  have hhigh : q≤((⌊q⌋+1 : ℤ) : ℚ) := by
    push_cast
    exact (Int.lt_floor_add_one q).le
  unfold roundHalfEven RoundsDown
  dsimp only
  rw [hfract]
  split
  · rename_i hless
    rw [hlow,not_and_or,not_lt]
    exact ⟨Or.inl,fun h => h.resolve_right fun hn => hn (Or.inl hless)⟩
  · rename_i hhalf
    split
    · rename_i hmore
      refine ⟨fun _ h => ?_,fun _ => hhigh⟩
      rcases h.2 with hless | htie
      · exact hhalf hless
      · exact hmore.ne' htie.1
    · rename_i hmore
      have htie : Int.fract q=1/2 := le_antisymm (not_lt.mp hmore) (not_lt.mp hhalf)
      have hpos : 0<Int.fract q := by rw [htie]; norm_num
      split
      · rename_i heven
        rw [hlow]
        exact ⟨fun h => absurd h (not_le.mpr hpos),fun h => absurd ⟨hpos,Or.inr ⟨htie,heven⟩⟩ h⟩
      · rename_i hodd
        refine ⟨fun _ h => ?_,fun _ => hhigh⟩
        rcases h.2 with hless | heven
        · exact hhalf hless
        · exact hodd heven.2

/-- A number is rounded to at least its own value unless its last kept digit
is rounded down. -/
theorem le_roundTo_iff (digits : ℕ) (q : ℚ) : q≤roundTo digits q ↔ ¬RoundsDown (q*10^digits) := by
  have hscale : (0 : ℚ)<10^digits := by positivity
  rw [roundTo,le_div_iff₀ hscale]
  exact le_roundHalfEven_iff _

/-- What is not negative is not rounded below zero. -/
theorem roundTo_nonneg (digits : ℕ) {q : ℚ} (h : 0≤q) : 0≤roundTo digits q := by
  have hscale : (0 : ℚ)<10^digits := by positivity
  have hfloor : 0≤⌊q*10^digits⌋ := Int.floor_nonneg.mpr (mul_nonneg h hscale.le)
  have hround : 0≤roundHalfEven (q*10^digits) := by
    unfold roundHalfEven
    dsimp only
    split
    · exact hfloor
    · split
      · omega
      · split <;> omega
  exact div_nonneg (Int.cast_nonneg hround) hscale.le

end McpGateway.PyNumber
