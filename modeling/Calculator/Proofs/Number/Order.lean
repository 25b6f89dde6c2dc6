import Calculator.Binary64.Order
import Calculator.Proofs.Number.Whole
import Mathlib.Order.Monotone.Basic

/-!
# The order of the doubles

Ordinals are laid out so that comparing them compares magnitudes (`units_strictMono`), and ranks so that comparing them
compares numbers: `lt_iff`.
-/

namespace Calculator.Binary64

/-! ## Magnitudes -/

theorem units_lt_succ (ordinal : ℕ) : units ordinal < units (ordinal + 1) := by
  rcases subnormal_or_normal ordinal with h | ⟨exponent, fraction, hf, rfl⟩
  · rw [units_subnormal h]
    rcases Nat.lt_or_eq_of_le (Nat.succ_le_of_lt h) with hlt | heq
    · rw [units_subnormal hlt]
      exact Nat.lt_succ_self ordinal
    · -- the least magnitude of 53 bits
      have hunits := units_add (Nat.le_refl (2 ^ 52)) (by decide) 0
      rw [Nat.zero_mul, Nat.zero_add, Nat.pow_zero, Nat.mul_one, ← heq] at hunits
      rw [hunits]
      exact Nat.lt_succ_self ordinal
  · have hsplit : (exponent + 1) * 2 ^ 52 + fraction = exponent * 2 ^ 52 + (2 ^ 52 + fraction) := by omega
    rw [hsplit, Nat.add_assoc, units_add (Nat.le_add_right _ _) (by omega), units_add (by omega) (by omega)]
    exact Nat.mul_lt_mul_of_pos_right (Nat.lt_succ_self _) (Nat.two_pow_pos exponent)

theorem units_strictMono : StrictMono units := strictMono_nat_of_lt_succ units_lt_succ

/-! ## Values -/

def signed (negative : Bool) (magnitude : ℕ) : ℤ := if negative then -(magnitude : ℤ) else magnitude

theorem signed_lt_signed_iff {f : ℕ → ℕ} (hf : StrictMono f) (h0 : f 0 = 0) (s t : Bool) (m n : ℕ) :
    signed s (f m) < signed t (f n) ↔ signed s m < signed t n := by
  have hlt : ∀ {m n}, f m < f n ↔ m < n := hf.lt_iff_lt
  have hm : 0 < f m ↔ 0 < m := by rw [← h0, hlt, h0]
  have hn : 0 < f n ↔ 0 < n := by rw [← h0, hlt, h0]
  have hmn : f m < f n ↔ m < n := hlt
  have hnm : f n < f m ↔ n < m := hlt
  cases s <;> cases t <;> simp only [signed, Bool.false_eq_true, ↓reduceIte] <;> omega

theorem signed_bounds (s : Bool) (m : Fin finiteCount) :
    -(finiteCount : ℤ) < signed s m ∧ signed s m < finiteCount := by
  have := m.isLt
  unfold signed
  split <;> omega

theorem signed_not (s : Bool) (n : ℕ) : signed (!s) n = -signed s n := by cases s <;> simp [signed]

theorem signed_div (s : Bool) (n d : ℕ) : (signed s n : ℚ) / d = if s then -(n / d : ℚ) else n / d := by
  cases s <;> simp [signed, neg_div]

theorem toRat?_finite (s : Bool) (ordinal : Fin finiteCount) :
    (finite s ordinal).toRat? = some ((signed s (units ordinal) : ℚ) / unitsPerOne) :=
  congrArg some (signed_div s (units ordinal) unitsPerOne).symm

theorem rank?_finite (s : Bool) (ordinal : Fin finiteCount) : (finite s ordinal).rank? = some (signed s ordinal) := rfl

theorem eq_finite_of_toRat? {x : Binary64} {q : ℚ} (h : x.toRat? = some q) :
    ∃ s ordinal, x = finite s ordinal ∧ q = (signed s (units ordinal) : ℚ) / unitsPerOne := by
  cases x with
  | nan => cases h
  | infinite s => cases h
  | finite s ordinal =>
    rw [toRat?_finite] at h
    cases h
    exact ⟨s, ordinal, rfl, rfl⟩

theorem lt_iff {x y : Binary64} {p q : ℚ} (hx : x.toRat? = some p) (hy : y.toRat? = some q) :
    x.lt y = true ↔ p < q := by
  obtain ⟨s, m, rfl, rfl⟩ := eq_finite_of_toRat? hx
  obtain ⟨t, n, rfl, rfl⟩ := eq_finite_of_toRat? hy
  have hpos : (0 : ℚ) < unitsPerOne := Nat.cast_pos.mpr unitsPerOne_pos
  rw [div_lt_div_iff_of_pos_right hpos, Int.cast_lt, signed_lt_signed_iff units_strictMono units_zero]
  simp only [lt, rank?_finite, decide_eq_true_eq]

/-- The sign tells the two zeros apart and nothing else that the value would not. -/
theorem eq_of_toRat? {x y : Binary64} {q : ℚ} (hx : x.toRat? = some q) (hy : y.toRat? = some q)
    (hsign : x.isNegative = y.isNegative) : x = y := by
  obtain ⟨s, m, rfl, rfl⟩ := eq_finite_of_toRat? hx
  obtain ⟨t, n, rfl, hq⟩ := eq_finite_of_toRat? hy
  obtain rfl : s = t := hsign
  have hpos : (unitsPerOne : ℚ) ≠ 0 := Nat.cast_ne_zero.mpr (Nat.ne_of_gt unitsPerOne_pos)
  rw [div_left_inj' hpos, Int.cast_inj] at hq
  have hunits : units m = units n := by
    revert hq
    unfold signed
    split <;> omega
  rw [Fin.ext (units_injective hunits)]

theorem toRat?_neg {x : Binary64} {q : ℚ} (h : x.toRat? = some q) : (-x).toRat? = some (-q) := by
  obtain ⟨s, ordinal, rfl, rfl⟩ := eq_finite_of_toRat? h
  rw [neg_finite, toRat?_finite, signed_not, Int.cast_neg, neg_div]

end Calculator.Binary64
