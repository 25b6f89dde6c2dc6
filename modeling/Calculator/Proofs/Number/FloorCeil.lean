import Calculator.Evaluation.Environment
import Calculator.Proofs.Number.Order
import Mathlib.Data.Rat.Floor

/-!
# Rounding down and up

`floor_ceil_exact`: the greatest integer not above a double, and the least not below it, are doubles again, so rounding
down and up loses nothing on the way back. `exists_whole` is why: either a double is an integer itself, or it is small
enough for all bits of its neighbours.
-/

namespace Calculator.Binary64

/-- The greatest whole number not above `x`; a zero result is `+0`. -/
def floor : Binary64 → Binary64
  | finite negative ordinal =>
    let signed : Int := if negative then -(units ordinal : Int) else units ordinal
    ofInt (signed.fdiv unitsPerOne)
  | x => x

def ceil : Binary64 → Binary64
  | finite negative ordinal =>
    let signed : Int := if negative then -(units ordinal : Int) else units ordinal
    ofInt (-((-signed).fdiv unitsPerOne))
  | x => x

theorem rounded_floor (x : Binary64) : rounded Machine.floor x = .ok x.floor := by
  cases x <;> rfl

theorem rounded_ceil (x : Binary64) : rounded Machine.ceil x = .ok x.ceil := by
  cases x <;> rfl

/-! ## Integers next to a double -/

theorem exists_whole_small {n : ℕ} (h : n ≤ 2 ^ 53) : ∃ ordinal : Fin finiteCount, units ordinal = n * unitsPerOne := by
  have hlt : nearestOrdinal (n * unitsPerOne) 1 < finiteCount :=
    nearestOrdinal_natural_lt (Nat.le_trans h (Nat.pow_le_pow_right (by decide) (by decide)))
  have hshort : nearestNatural n = n := by
    have := nearestNatural_short h 0
    rwa [Nat.pow_zero, Nat.mul_one] at this
  refine ⟨⟨_, hlt⟩, ?_⟩
  rw [units_nearestOrdinal, hshort]

/-- Only magnitudes below `2 ^ 53` have a fraction. -/
theorem whole_or_small (ordinal : ℕ) : unitsPerOne ∣ units ordinal ∨ units ordinal < 2 ^ 53 * unitsPerOne := by
  obtain ⟨places, -, hp⟩ := exists_places
  obtain ⟨m, k, hm, hu⟩ := exists_significand ordinal
  rw [hu, hp]
  rcases Nat.le_total places k with hle | hle
  · exact .inl (Nat.dvd_mul_left_of_dvd (Nat.pow_dvd_pow 2 hle) m)
  · right
    calc m * 2 ^ k < 2 ^ 53 * 2 ^ k := Nat.mul_lt_mul_of_pos_right hm (Nat.two_pow_pos k)
      _ ≤ 2 ^ 53 * 2 ^ places := Nat.mul_le_mul_left _ (Nat.pow_le_pow_right (by decide) hle)

theorem exists_whole (ordinal : Fin finiteCount) {n : ℕ} (hlow : units ordinal < (n + 1) * unitsPerOne)
    (hhigh : n * unitsPerOne < units ordinal + unitsPerOne) :
    ∃ whole : Fin finiteCount, units whole = n * unitsPerOne := by
  rcases whole_or_small ordinal with ⟨k, hk⟩ | hsmall
  · -- the only integer within less than one of an integer is that integer
    rw [hk, Nat.mul_comm unitsPerOne] at hlow hhigh
    rw [← Nat.succ_mul] at hhigh
    have hkn := Nat.lt_of_mul_lt_mul_right hlow
    have hnk := Nat.lt_of_mul_lt_mul_right hhigh
    have hn : n = k := by omega
    exact ⟨ordinal, by rw [hk, hn, Nat.mul_comm]⟩
  · have hlt : n * unitsPerOne < (2 ^ 53 + 1) * unitsPerOne := by
      rw [Nat.succ_mul]
      exact Nat.lt_trans hhigh (Nat.add_lt_add_right hsmall _)
    have hn := Nat.lt_of_mul_lt_mul_right hlt
    exact exists_whole_small (by omega)

theorem natAbs_near {s : Bool} {u d : ℕ} (hd : 0 < d) {i : ℤ} (h : |(signed s u : ℚ) / d - i| < 1) :
    u < (i.natAbs + 1) * d ∧ i.natAbs * d < u + d := by
  have hpos : (0 : ℚ) < d := Nat.cast_pos.mpr hd
  have habs : |(signed s u : ℚ) / d| = u / d := by
    cases s <;> simp [signed, abs_div]
  have hdist := lt_of_le_of_lt (abs_abs_sub_abs_le ((signed s u : ℚ) / d) i) h
  rw [habs, ← Int.cast_abs, ← Nat.cast_natAbs, abs_lt] at hdist
  have hlow : (u : ℚ) / d < i.natAbs + 1 := by linarith
  have hhigh : (i.natAbs : ℚ) - 1 < u / d := by linarith
  rw [div_lt_iff₀ hpos] at hlow
  rw [lt_div_iff₀ hpos, sub_mul, one_mul, sub_lt_iff_lt_add] at hhigh
  exact ⟨by exact_mod_cast hlow, by exact_mod_cast hhigh⟩

theorem signed_natAbs (i : ℤ) : signed (decide (i < 0)) i.natAbs = i := by
  unfold signed
  simp only [decide_eq_true_eq]
  split <;> omega

theorem signed_mul (s : Bool) (m n : ℕ) : signed s (m * n) = signed s m * n := by
  cases s <;> simp [signed]

theorem ofInt_whole {i : ℤ} {whole : Fin finiteCount} (h : units whole = i.natAbs * unitsPerOne) :
    ofInt i = finite (decide (i < 0)) whole := by
  have hlt : nearestOrdinal (units whole) 1 < finiteCount := by
    rw [nearestOrdinal_units]
    exact whole.isLt
  rw [ofInt, ofRatio, ← h, ofOrdinal, dif_pos hlt]
  congr 1
  exact Fin.ext (nearestOrdinal_units whole)

/-- An integer within less than one of a double is a double. -/
theorem ofInt_near {x : Binary64} {q : ℚ} (hx : x.toRat? = some q) {i : ℤ} (h : |q - i| < 1) :
    (ofInt i).toRat? = some (i : ℚ) ∧ ofInt i ≠ finite true 0 := by
  obtain ⟨s, ordinal, rfl, rfl⟩ := eq_finite_of_toRat? hx
  obtain ⟨hlow, hhigh⟩ := natAbs_near unitsPerOne_pos h
  obtain ⟨whole, hwhole⟩ := exists_whole ordinal hlow hhigh
  rw [ofInt_whole hwhole]
  constructor
  · have hpos : (unitsPerOne : ℚ) ≠ 0 := Nat.cast_ne_zero.mpr (Nat.ne_of_gt unitsPerOne_pos)
    rw [toRat?_finite, hwhole, signed_mul, signed_natAbs, Int.cast_mul, Int.cast_natCast, mul_div_cancel_right₀ _ hpos]
  · intro hzero
    obtain ⟨hnegative, rfl⟩ := (finite.injEq ..).mp hzero
    have hunits : i.natAbs * unitsPerOne = 0 := by
      rw [← hwhole]
      exact units_zero
    have hnatAbs := (Nat.mul_eq_zero.mp hunits).resolve_right (Nat.ne_of_gt unitsPerOne_pos)
    have := of_decide_eq_true hnegative
    omega

/-! ## Comparisons -/

theorem le_iff {x y : Binary64} {p q : ℚ} (hx : x.toRat? = some p) (hy : y.toRat? = some q) :
    x.le y = true ↔ p ≤ q := by
  rw [← not_lt, ← lt_iff hy hx]
  obtain ⟨s, m, rfl, -⟩ := eq_finite_of_toRat? hx
  obtain ⟨t, n, rfl, -⟩ := eq_finite_of_toRat? hy
  simp [le, lt, rank?_finite]

theorem same_iff {x y : Binary64} {p q : ℚ} (hx : x.toRat? = some p) (hy : y.toRat? = some q) :
    x.same y = true ↔ p = q := by
  rw [le_antisymm_iff (a := p), ← le_iff hx hy, ← le_iff hy hx]
  obtain ⟨s, m, rfl, -⟩ := eq_finite_of_toRat? hx
  obtain ⟨t, n, rfl, -⟩ := eq_finite_of_toRat? hy
  simp only [le, same, rank?_finite, beq_iff_eq, decide_eq_true_eq]
  exact le_antisymm_iff

theorem rank?_infinite (s : Bool) : (infinite s).rank? = some (signed s finiteCount) := rfl

theorem ne_nan_of_le {x y : Binary64} (h : x.le y = true) : x ≠ nan ∧ y ≠ nan := by
  constructor <;> rintro rfl
  · cases y <;> cases h
  · cases x <;> cases h

theorem infinite_le {x : Binary64} (h : x ≠ nan) : (infinite true).le x = true := by
  rcases x with _ | (_ | _) | ⟨s, m⟩
  · exact absurd rfl h
  · decide
  · decide
  · simp only [le, rank?_infinite, rank?_finite, decide_eq_true_eq]
    exact (signed_bounds s m).1.le

theorem le_infinite {x : Binary64} (h : x ≠ nan) : x.le (infinite false) = true := by
  rcases x with _ | (_ | _) | ⟨s, m⟩
  · exact absurd rfl h
  · decide
  · decide
  · simp only [le, rank?_infinite, rank?_finite, decide_eq_true_eq]
    exact (signed_bounds s m).2.le

theorem not_le_infinite (s : Bool) (ordinal : Fin finiteCount) : (finite s ordinal).le (infinite true) ≠ true := by
  simp only [le, rank?_infinite, rank?_finite, ne_eq, decide_eq_true_eq, not_le]
  exact (signed_bounds s ordinal).1

theorem not_infinite_le (s : Bool) (ordinal : Fin finiteCount) : (infinite false).le (finite s ordinal) ≠ true := by
  simp only [le, rank?_infinite, rank?_finite, ne_eq, decide_eq_true_eq, not_le]
  exact (signed_bounds s ordinal).2

/-! ## Rounding to integers -/

structure RoundingLaws (f : Binary64 → Binary64) : Prop where
  ne_negative_zero : ∀ s ordinal, f (finite s ordinal) ≠ finite true 0
  nan : f nan = nan
  infinite : ∀ s, f (infinite s) = infinite s
  mono : ∀ {x y : Binary64}, x.le y = true → (f x).le (f y) = true
  idem : ∀ x, f (f x) = f x
  fixes_iff : ∀ {x : Binary64} {q : ℚ}, x.toRat? = some q → ((f x).same x = true ↔ ∃ n : ℤ, q = n)

/-- On finite numbers `f` is the integer `r` of their value, which is less than one away. -/
structure Rounds (f : Binary64 → Binary64) (r : ℚ → ℤ) : Prop where
  finite : ∀ {x : Binary64} {q : ℚ}, x.toRat? = some q → f x = ofInt (r q)
  nan : f nan = nan
  infinite : ∀ s, f (infinite s) = infinite s
  near : ∀ q : ℚ, |q - r q| < 1
  mono : ∀ {p q : ℚ}, p ≤ q → r p ≤ r q
  fixes : ∀ n : ℤ, r n = n

namespace Rounds
variable {f : Binary64 → Binary64} {r : ℚ → ℤ} (h : Rounds f r) {x : Binary64} {q : ℚ}
include h

theorem exact (hx : x.toRat? = some q) : (f x).toRat? = some (r q : ℚ) ∧ f x ≠ .finite true 0 := by
  rw [h.finite hx]
  exact ofInt_near hx (h.near q)

theorem idem (hx : x.toRat? = some q) : f (f x) = f x := by
  rw [h.finite (h.exact hx).1, h.fixes, h.finite hx]

theorem same_iff (hx : x.toRat? = some q) : (f x).same x = true ↔ ∃ n : ℤ, q = n := by
  rw [Binary64.same_iff (h.exact hx).1 hx]
  constructor
  · exact fun hq => ⟨r q, hq.symm⟩
  · rintro ⟨n, rfl⟩
    rw [h.fixes]

theorem ne_nan (hx : x ≠ .nan) : f x ≠ .nan := by
  rcases x with _ | s | ⟨s, m⟩
  · exact absurd rfl hx
  · rw [h.infinite]
    exact hx
  · intro hnan
    have hvalue := (h.exact (toRat?_finite s m)).1
    rw [hnan] at hvalue
    cases hvalue

theorem le {y : Binary64} (hle : x.le y = true) : (f x).le (f y) = true := by
  obtain ⟨hx, hy⟩ := ne_nan_of_le hle
  rcases x with _ | (_ | _) | ⟨s, m⟩
  · exact absurd rfl hx
  · rcases y with _ | t | ⟨t, n⟩
    · exact absurd rfl hy
    · rwa [h.infinite, h.infinite]
    · exact absurd hle (not_infinite_le t n)
  · rw [h.infinite]
    exact infinite_le (h.ne_nan hy)
  · rcases y with _ | (_ | _) | ⟨t, n⟩
    · exact absurd rfl hy
    · rw [h.infinite]
      exact le_infinite (h.ne_nan hx)
    · exact absurd hle (not_le_infinite s m)
    · have hp := toRat?_finite s m
      have hq := toRat?_finite t n
      rw [le_iff (h.exact hp).1 (h.exact hq).1, Int.cast_le]
      exact h.mono ((le_iff hp hq).mp hle)

theorem laws : RoundingLaws f where
  ne_negative_zero s ordinal := (h.exact (toRat?_finite s ordinal)).2
  nan := h.nan
  infinite := h.infinite
  mono := h.le
  idem x := by
    rcases x with _ | s | ⟨s, m⟩
    · rw [h.nan, h.nan]
    · rw [h.infinite, h.infinite]
    · exact h.idem (toRat?_finite s m)
  fixes_iff := h.same_iff

end Rounds

/-! ## Down and up -/

theorem fdiv_unitsPerOne (i : ℤ) : i.fdiv unitsPerOne = ⌊(i : ℚ) / unitsPerOne⌋ := by
  rw [Rat.floor_intCast_div_natCast, Int.fdiv_eq_ediv_of_nonneg _ (Int.natCast_nonneg _)]

theorem rounds_floor : Rounds floor (⌊·⌋) where
  finite {x q} hx := by
    obtain ⟨s, ordinal, rfl, rfl⟩ := eq_finite_of_toRat? hx
    rw [← fdiv_unitsPerOne]
    rfl
  nan := rfl
  infinite _ := rfl
  near q := by
    have hlow := Int.floor_le q
    have hhigh := Int.lt_floor_add_one q
    exact abs_lt.mpr ⟨by linarith, by linarith⟩
  mono h := Int.floor_mono h
  fixes := Int.floor_intCast

theorem rounds_ceil : Rounds ceil (⌈·⌉) where
  finite {x q} hx := by
    obtain ⟨s, ordinal, rfl, rfl⟩ := eq_finite_of_toRat? hx
    have hneg : ⌈(signed s (units ordinal) : ℚ) / unitsPerOne⌉ = -(-signed s (units ordinal)).fdiv unitsPerOne := by
      rw [fdiv_unitsPerOne, Int.cast_neg, neg_div, Int.floor_neg, Int.neg_neg]
    rw [hneg]
    rfl
  nan := rfl
  infinite _ := rfl
  near q := by
    have hlow := Int.le_ceil q
    have hhigh := Int.ceil_lt_add_one q
    exact abs_lt.mpr ⟨by linarith, by linarith⟩
  mono h := Int.ceil_mono h
  fixes := Int.ceil_intCast

theorem ceil_same_neg_floor_neg {x : Binary64} (h : x ≠ nan) : x.ceil.same (-(-x).floor) = true := by
  rcases x with _ | (_ | _) | ⟨s, m⟩
  · exact absurd rfl h
  · decide
  · decide
  · have hx := toRat?_finite s m
    rw [same_iff (rounds_ceil.exact hx).1 (toRat?_neg (rounds_floor.exact (toRat?_neg hx)).1), Int.floor_neg,
      Int.cast_neg, Rat.neg_neg]

theorem floor_ceil_exact :
    (∃ b, FunctionTable.standard.find? "floor" = some b ∧ b.arity = 1 ∧ ∀ x, b.apply [x] = .ok x.floor) ∧
    (∃ b, FunctionTable.standard.find? "ceil" = some b ∧ b.arity = 1 ∧ ∀ x, b.apply [x] = .ok x.ceil) ∧
    (∀ (x : Binary64) (q : ℚ), x.toRat? = some q →
      (∃ n : ℤ, x.floor.toRat? = some (n : ℚ) ∧ IsGreatest {m : ℤ | (m : ℚ) ≤ q} n) ∧
      ∃ n : ℤ, x.ceil.toRat? = some (n : ℚ) ∧ IsLeast {m : ℤ | q ≤ m} n) ∧
    RoundingLaws floor ∧ RoundingLaws ceil ∧ ∀ x : Binary64, x ≠ nan → x.ceil.same (-(-x).floor) = true := by
  refine ⟨⟨_, rfl, rfl, rounded_floor⟩, ⟨_, rfl, rfl, rounded_ceil⟩, fun x q hx => ⟨?_, ?_⟩, rounds_floor.laws,
    rounds_ceil.laws, fun x => ceil_same_neg_floor_neg⟩
  · exact ⟨⌊q⌋, (rounds_floor.exact hx).1, Int.floor_le q, fun m hm => Int.le_floor.mpr hm⟩
  · exact ⟨⌈q⌉, (rounds_ceil.exact hx).1, Int.le_ceil q, fun m hm => Int.ceil_le.mpr hm⟩

theorem floor_ceil_exact_least_magnitude : (finite true 1).toRat? = some (-(1 / unitsPerOne) : ℚ) ∧
    (∃ n : ℤ, (finite true 1).floor.toRat? = some (n : ℚ) ∧ IsGreatest {m : ℤ | (m : ℚ) ≤ -(1 / unitsPerOne)} n) ∧
    (∃ n : ℤ, (finite true 1).ceil.toRat? = some (n : ℚ) ∧ IsLeast {m : ℤ | -(1 / unitsPerOne : ℚ) ≤ m} n) ∧
    (finite true 1).le (finite false 1) = true ∧ (finite true 1).ceil.le (finite false 1).ceil = true ∧
    finite true 1 ≠ nan ∧ (finite true 1).ceil.same (-(-finite true 1).floor) = true := by
  have hvalue : (finite true 1).toRat? = some (-(1 / unitsPerOne) : ℚ) := by
    have hone : units (1 : Fin finiteCount) = 1 := units_subnormal (by decide)
    rw [toRat?, if_pos rfl, hone, Nat.cast_one]
  obtain ⟨-, -, hexact, -, hceil, hopposite⟩ := floor_ceil_exact
  have hle : (finite true 1).le (finite false 1) = true := by decide
  obtain ⟨hdown, hup⟩ := hexact _ _ hvalue
  exact ⟨hvalue, hdown, hup, hle, hceil.mono hle, by decide, hopposite _ (by decide)⟩

end Calculator.Binary64
