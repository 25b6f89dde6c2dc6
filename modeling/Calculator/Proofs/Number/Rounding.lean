import Calculator.Binary64.Rounding

/-!
# Rounding

`nearestOrdinal_units`: every magnitude is the nearest one to itself. `nearestOrdinal_mul_right`: what is
nearest depends on the quotient alone. `pow_le_nearestOrdinal` and `nearestOrdinal_le_pow` tell in which power
of two the nearest magnitude lies.
-/

namespace Calculator

/-! ## Rounding to naturals -/

theorem roundDiv_mul_right (num den : Nat) {k : Nat} (hk : 0 < k) :
    roundDiv (num * k) (den * k) = roundDiv num den := by
  unfold roundDiv
  simp only [Nat.mul_div_mul_right _ _ hk, Nat.mul_mod_mul_right, ← Nat.mul_assoc, Nat.mul_lt_mul_right hk]

theorem roundDiv_mul_self (quotient : Nat) {den : Nat} (h : 0 < den) : roundDiv (quotient * den) den = quotient := by
  unfold roundDiv
  simp only [Nat.mul_div_cancel _ h, Nat.mul_mod_left]
  rw [if_pos h]

theorem div_le_roundDiv (num den : Nat) : num / den ≤ roundDiv num den := by
  unfold roundDiv
  simp only
  split
  · exact Nat.le_refl _
  · split <;> omega

theorem roundDiv_le (num den : Nat) : roundDiv num den ≤ num / den + 1 := by
  unfold roundDiv
  simp only
  split
  · omega
  · split <;> omega

namespace Binary64

/-! ## Rounding to magnitudes -/

theorem nearestOrdinal_mul_right (num den : Nat) {k : Nat} (hk : 0 < k) :
    nearestOrdinal (num * k) (den * k) = nearestOrdinal num den := by
  unfold nearestOrdinal
  simp only [Nat.mul_div_mul_right _ _ hk, Nat.mul_right_comm den k, roundDiv_mul_right _ _ hk]

theorem ofRatio_mul_right (negative : Bool) (num den : Nat) {k : Nat} (hk : 0 < k) :
    ofRatio negative (num * k) (den * k) = ofRatio negative num den := by
  unfold ofRatio
  rw [Nat.mul_right_comm, nearestOrdinal_mul_right _ _ hk]

theorem units_subnormal {ordinal : Nat} (h : ordinal < 2 ^ 52) : units ordinal = ordinal := by
  unfold units
  simp only [Nat.div_eq_of_lt h, Nat.mod_eq_of_lt h, ↓reduceIte]

theorem units_normal (exponent : Nat) {fraction : Nat} (h : fraction < 2 ^ 52) :
    units ((exponent + 1) * 2 ^ 52 + fraction) = (2 ^ 52 + fraction) * 2 ^ exponent := by
  have hq : ((exponent + 1) * 2 ^ 52 + fraction) / 2 ^ 52 = exponent + 1 := by omega
  have hr : ((exponent + 1) * 2 ^ 52 + fraction) % 2 ^ 52 = fraction := by omega
  unfold units
  simp only [hq, hr, Nat.add_one_ne_zero, ↓reduceIte, Nat.add_sub_cancel]

theorem subnormal_or_normal (ordinal : Nat) :
    ordinal < 2 ^ 52 ∨ ∃ exponent fraction, fraction < 2 ^ 52 ∧ ordinal = (exponent + 1) * 2 ^ 52 + fraction := by
  by_cases h : ordinal < 2 ^ 52
  · exact .inl h
  · exact .inr ⟨ordinal / 2 ^ 52 - 1, ordinal % 2 ^ 52, by omega, by omega⟩

theorem nearestOrdinal_units (ordinal : Nat) : nearestOrdinal (units ordinal) 1 = ordinal := by
  unfold nearestOrdinal
  rcases subnormal_or_normal ordinal with h | ⟨exponent, fraction, hf, rfl⟩
  · have hshift : (ordinal / 1).log2 - 52 = 0 := by
      rw [Nat.div_one, Nat.sub_eq_zero_iff_le]
      by_cases h0 : ordinal = 0
      · subst h0; decide
      · exact Nat.le_of_lt ((Nat.log2_lt h0).mpr h)
    rw [units_subnormal h]
    simp only [hshift, Nat.zero_mul, Nat.zero_add, Nat.pow_zero, Nat.mul_one]
    simpa using roundDiv_mul_self ordinal Nat.one_pos
  · -- the shift is the exponent, and dividing by its power leaves no remainder
    have hlog : ((2 ^ 52 + fraction) * 2 ^ exponent).log2 = 52 + exponent := by
      rw [Nat.log2_eq_iff (Nat.mul_ne_zero (by omega) (Nat.ne_of_gt (Nat.two_pow_pos _))), Nat.pow_add,
        Nat.add_right_comm, Nat.pow_add]
      exact ⟨Nat.mul_le_mul_right _ (by omega), Nat.mul_lt_mul_of_pos_right (by omega) (Nat.two_pow_pos _)⟩
    rw [units_normal exponent hf]
    simp only [Nat.div_one, hlog, Nat.add_sub_cancel_left, Nat.one_mul]
    rw [roundDiv_mul_self _ (Nat.two_pow_pos _)]
    omega

/-! ## Bounds -/

theorem pow_le_units {ordinal exponent : Nat} (h : (exponent + 1) * 2 ^ 52 ≤ ordinal) :
    2 ^ (52 + exponent) ≤ units ordinal := by
  rcases subnormal_or_normal ordinal with hs | ⟨e, fraction, hf, rfl⟩
  · omega
  · rw [units_normal e hf, Nat.pow_add]
    exact Nat.mul_le_mul (by omega) (Nat.pow_le_pow_right (by decide) (by omega))

theorem pow_le_nearestOrdinal {num den exponent : Nat} (hden : 0 < den) (h : den * 2 ^ (52 + exponent) ≤ num) :
    (exponent + 1) * 2 ^ 52 ≤ nearestOrdinal num den := by
  have hq : 2 ^ (52 + exponent) ≤ num / den := by
    rwa [Nat.le_div_iff_mul_le hden, Nat.mul_comm]
  have hne : num / den ≠ 0 := fun h0 => by
    rw [h0] at hq
    exact absurd hq (Nat.not_le.mpr (Nat.two_pow_pos _))
  have hlog : 52 + exponent ≤ (num / den).log2 := (Nat.le_log2 hne).mpr hq
  have hround : 2 ^ 52 ≤ roundDiv num (den * 2 ^ ((num / den).log2 - 52)) := by
    refine Nat.le_trans ?_ (div_le_roundDiv _ _)
    rw [← Nat.div_div_eq_div_mul, Nat.le_div_iff_mul_le (Nat.two_pow_pos _), ← Nat.pow_add]
    refine (Nat.le_log2 hne).mp ?_
    omega
  unfold nearestOrdinal
  simp only
  omega

theorem nearestOrdinal_le_pow {num den exponent : Nat} (hden : 0 < den) (h : num < den * 2 ^ (53 + exponent)) :
    nearestOrdinal num den ≤ (exponent + 2) * 2 ^ 52 := by
  have hq : num / den < 2 ^ (53 + exponent) := by
    rwa [Nat.div_lt_iff_lt_mul hden, Nat.mul_comm]
  have hlog : (num / den).log2 - 52 ≤ exponent := by
    by_cases h0 : num / den = 0
    · rw [h0, Nat.log2_zero]
      omega
    · have := (Nat.log2_lt h0).mpr hq
      omega
  have hround : roundDiv num (den * 2 ^ ((num / den).log2 - 52)) ≤ 2 ^ 53 := by
    refine Nat.le_trans (roundDiv_le _ _) ?_
    rw [← Nat.div_div_eq_div_mul, Nat.succ_le_iff, Nat.div_lt_iff_lt_mul (Nat.two_pow_pos _), ← Nat.pow_add]
    refine Nat.lt_of_lt_of_le Nat.lt_log2_self (Nat.pow_le_pow_right (by decide) ?_)
    omega
  unfold nearestOrdinal
  simp only
  omega

end Binary64
end Calculator
