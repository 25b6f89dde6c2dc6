import Calculator.Binary64.Integral
import Calculator.Proofs.Number.Numeral
import Mathlib.Algebra.Order.Field.Basic
import Mathlib.Data.Rat.Cast.Order
import Mathlib.Tactic.Linarith

/-!
# Whole numbers among the doubles

`units_nearestOrdinal`: the double nearest to a natural number is a natural number again, `nearestNatural`.
`nearestNatural_short`: one of at most 53 significant bits is its own. `toRat?_ofInt`, `toInt64_ofInt`: what
this says of integers that are turned into doubles and cut down again.
-/

namespace Calculator.Binary64

def toRat? : Binary64 → Option ℚ
  | finite negative ordinal =>
    some (if negative then -(units ordinal / unitsPerOne : ℚ) else units ordinal / unitsPerOne)
  | _ => none

/-! ## Significands -/

theorem units_zero : units 0 = 0 := units_subnormal (by decide)

theorem units_injective {ordinal ordinal' : Nat} (h : units ordinal = units ordinal') : ordinal = ordinal' := by
  rw [← nearestOrdinal_units ordinal, h, nearestOrdinal_units]

theorem units_add {significand : Nat} (h : 2 ^ 52 ≤ significand) (h' : significand ≤ 2 ^ 53) (exponent : Nat) :
    units (exponent * 2 ^ 52 + significand) = significand * 2 ^ exponent := by
  rcases Nat.lt_or_eq_of_le h' with hlt | rfl
  · have hsum : exponent * 2 ^ 52 + significand = (exponent + 1) * 2 ^ 52 + (significand - 2 ^ 52) := by omega
    rw [hsum, units_normal exponent (by omega), Nat.add_sub_cancel' h]
  · have hsum : exponent * 2 ^ 52 + 2 ^ 53 = (exponent + 1 + 1) * 2 ^ 52 + 0 := by omega
    rw [hsum, units_normal (exponent + 1) (by decide), Nat.add_zero, ← Nat.pow_add, ← Nat.pow_add]
    congr 1
    omega

theorem exists_significand (ordinal : Nat) : ∃ m k, m < 2 ^ 53 ∧ units ordinal = m * 2 ^ k := by
  rcases subnormal_or_normal ordinal with h | ⟨k, fraction, hf, rfl⟩
  · exact ⟨ordinal, 0, by omega, by rw [units_subnormal h, Nat.pow_zero, Nat.mul_one]⟩
  · exact ⟨2 ^ 52 + fraction, k, by omega, units_normal k hf⟩

/-! ## Natural numbers -/

/-- What is left of a natural number that is rounded to 53 significant bits. -/
def nearestNatural (n : Nat) : Nat := roundDiv n (2 ^ (n.log2 - 52)) * 2 ^ (n.log2 - 52)

theorem nearestNatural_small {n : Nat} (h : n < 2 ^ 53) : nearestNatural n = n := by
  have hshift : n.log2 - 52 = 0 := by
    by_cases h0 : n = 0
    · subst h0
      decide
    · have := (Nat.log2_lt h0).mpr h
      omega
  have hround := roundDiv_mul_self n Nat.one_pos
  rw [Nat.mul_one] at hround
  rw [nearestNatural, hshift, Nat.pow_zero, hround, Nat.mul_one]

theorem significand_bounds {n : Nat} (h : 52 ≤ n.log2) :
    2 ^ 52 ≤ roundDiv n (2 ^ (n.log2 - 52)) ∧ roundDiv n (2 ^ (n.log2 - 52)) ≤ 2 ^ 53 := by
  have hne : n ≠ 0 := by
    rintro rfl
    exact absurd h (by decide)
  constructor
  · refine Nat.le_trans ?_ (div_le_roundDiv _ _)
    rw [Nat.le_div_iff_mul_le (Nat.two_pow_pos _), ← Nat.pow_add, Nat.add_sub_cancel' h]
    exact Nat.log2_self_le hne
  · refine Nat.le_trans (roundDiv_le _ _) ?_
    rw [Nat.succ_le_iff, Nat.div_lt_iff_lt_mul (Nat.two_pow_pos _), ← Nat.pow_add]
    have hsum : 53 + (n.log2 - 52) = n.log2 + 1 := by omega
    rw [hsum]
    exact Nat.lt_log2_self

theorem log2_mul_pow {n : Nat} (h : n ≠ 0) (k : Nat) : (n * 2 ^ k).log2 = n.log2 + k := by
  rw [Nat.log2_eq_iff (Nat.mul_ne_zero h (Nat.ne_of_gt (Nat.two_pow_pos k))), Nat.add_right_comm, Nat.pow_add,
    Nat.pow_add _ _ k]
  exact ⟨Nat.mul_le_mul_right _ (Nat.log2_self_le h), Nat.mul_lt_mul_of_pos_right Nat.lt_log2_self (Nat.two_pow_pos k)⟩

theorem filled_bounds {n : Nat} (h0 : n ≠ 0) (h : n.log2 < 52) :
    2 ^ 52 ≤ n * 2 ^ (52 - n.log2) ∧ n * 2 ^ (52 - n.log2) ≤ 2 ^ 53 := by
  have hlow : n.log2 + (52 - n.log2) = 52 := by omega
  have hhigh : n.log2 + 1 + (52 - n.log2) = 53 := by omega
  constructor
  · rw [← hlow, Nat.pow_add, hlow]
    exact Nat.mul_le_mul_right _ (Nat.log2_self_le h0)
  · rw [← hhigh, Nat.pow_add]
    exact Nat.mul_le_mul_right _ (Nat.le_of_lt Nat.lt_log2_self)

theorem units_nearestOrdinal (n : Nat) :
    units (nearestOrdinal (n * unitsPerOne) 1) = nearestNatural n * unitsPerOne := by
  obtain ⟨places, hplaces, hp⟩ := exists_places
  by_cases h0 : n = 0
  · subst h0
    have hnearest := nearestOrdinal_units 0
    rw [units_zero] at hnearest
    rw [Nat.zero_mul, hnearest, units_zero, nearestNatural_small (by decide), Nat.zero_mul]
  unfold nearestOrdinal
  simp only [hp, Nat.div_one, log2_mul_pow h0, Nat.one_mul]
  rcases Nat.lt_or_ge n.log2 52 with h | h
  · -- the last of the 53 bits stands for less than one, and nothing is rounded away
    obtain ⟨hlow, hhigh⟩ := filled_bounds h0 h
    have hexponent : 52 - n.log2 + (n.log2 + places - 52) = places := by omega
    have hsplit : n * 2 ^ places = n * 2 ^ (52 - n.log2) * 2 ^ (n.log2 + places - 52) := by
      rw [Nat.mul_assoc, ← Nat.pow_add, hexponent]
    have hsmall : n < 2 ^ 53 := (Nat.log2_lt h0).mp (Nat.lt_succ_of_lt h)
    rw [hsplit, roundDiv_mul_self _ (Nat.two_pow_pos _), units_add hlow hhigh, ← hsplit, nearestNatural_small hsmall]
  · have hshift : n.log2 + places - 52 = n.log2 - 52 + places := by omega
    obtain ⟨hlow, hhigh⟩ := significand_bounds h
    rw [hshift, Nat.pow_add, roundDiv_mul_right _ _ (Nat.two_pow_pos places), units_add hlow hhigh, Nat.pow_add,
      ← Nat.mul_assoc, nearestNatural]

theorem nearestNatural_of_dvd {n : Nat} (h : 2 ^ (n.log2 - 52) ∣ n) : nearestNatural n = n := by
  obtain ⟨q, hq⟩ := h
  rw [Nat.mul_comm] at hq
  have hround := roundDiv_mul_self q (Nat.two_pow_pos (n.log2 - 52))
  rw [← hq] at hround
  rw [nearestNatural, hround, ← hq]

theorem nearestNatural_short {m : Nat} (h : m ≤ 2 ^ 53) (k : Nat) : nearestNatural (m * 2 ^ k) = m * 2 ^ k := by
  apply nearestNatural_of_dvd
  by_cases h0 : m = 0
  · subst h0
    rw [Nat.zero_mul]
    exact Nat.dvd_zero _
  rw [log2_mul_pow h0]
  rcases Nat.lt_or_eq_of_le h with hlt | rfl
  · have hlog := (Nat.log2_lt h0).mpr hlt
    exact Nat.dvd_mul_left_of_dvd (Nat.pow_dvd_pow 2 (by omega)) m
  · rw [Nat.log2_two_pow, ← Nat.pow_add]
    exact Nat.pow_dvd_pow 2 (by omega)

theorem nearestNatural_cases (n : Nat) : nearestNatural n = n ∨
    52 ≤ n.log2 ∧ ∃ m, 2 ^ 52 ≤ m ∧ m ≤ 2 ^ 53 ∧ nearestNatural n = m * 2 ^ (n.log2 - 52) := by
  rcases Nat.lt_or_ge n.log2 52 with h | h
  · left
    apply nearestNatural_of_dvd
    rw [Nat.sub_eq_zero_of_le (Nat.le_of_lt h)]
    exact Nat.one_dvd n
  · exact .inr ⟨h, _, (significand_bounds h).1, (significand_bounds h).2, rfl⟩

theorem nearestNatural_idem (n : Nat) : nearestNatural (nearestNatural n) = nearestNatural n := by
  rcases nearestNatural_cases n with h | ⟨-, m, -, hm, h⟩
  · rw [h, h]
  · rw [h, nearestNatural_short hm]

theorem nearestNatural_pos {n : Nat} (h : 0 < n) : 0 < nearestNatural n := by
  rcases nearestNatural_cases n with hn | ⟨-, m, hm, -, hn⟩
  · rwa [hn]
  · rw [hn]
    exact Nat.mul_pos (by omega) (Nat.two_pow_pos _)

theorem nearestNatural_le_pow {n k : Nat} (h : n ≤ 2 ^ k) : nearestNatural n ≤ 2 ^ k := by
  rcases nearestNatural_cases n with hn | ⟨hlog, m, -, hm, hn⟩
  · rwa [hn]
  rcases Nat.lt_or_eq_of_le h with hlt | rfl
  · have hne : n ≠ 0 := by
      rintro rfl
      exact absurd hlog (by decide)
    have hexponent := (Nat.log2_lt hne).mpr hlt
    calc nearestNatural n = m * 2 ^ (n.log2 - 52) := hn
      _ ≤ 2 ^ 53 * 2 ^ (n.log2 - 52) := Nat.mul_le_mul_right _ hm
      _ = 2 ^ (53 + (n.log2 - 52)) := (Nat.pow_add ..).symm
      _ ≤ 2 ^ k := Nat.pow_le_pow_right (by decide) (by omega)
  · have hshort := nearestNatural_short (show 1 ≤ 2 ^ 53 by decide) k
    rw [Nat.one_mul] at hshort
    exact Nat.le_of_eq hshort

/-! ## Integers -/

def nearestInt (i : ℤ) : ℤ := if i < 0 then -(nearestNatural i.natAbs) else nearestNatural i.natAbs

/-- So many bits and a sign, negative numbers in two's complement. -/
def FitsIn (bits : ℕ) (i : ℤ) : Prop := -2 ^ bits ≤ i ∧ i < 2 ^ bits

instance (bits : ℕ) (i : ℤ) : Decidable (FitsIn bits i) := inferInstanceAs (Decidable (_ ∧ _))

/-- At most 53 significant bits. -/
def IsShort (i : ℤ) : Prop := ∃ (m : ℤ) (k : ℕ), FitsIn 53 m ∧ i = m * 2 ^ k

theorem FitsIn.natAbs_le {i : ℤ} (h : FitsIn 63 i) : i.natAbs ≤ 2 ^ 63 := by
  obtain ⟨hlow, hhigh⟩ := h
  omega

theorem nearestInt_of_natAbs {i : ℤ} (h : nearestNatural i.natAbs = i.natAbs) : nearestInt i = i := by
  rw [nearestInt, h]
  split <;> omega

theorem IsShort.nearestInt {i : ℤ} (h : IsShort i) : nearestInt i = i := by
  obtain ⟨m, k, ⟨hlow, hhigh⟩, rfl⟩ := h
  apply nearestInt_of_natAbs
  have hm : m.natAbs ≤ 2 ^ 53 := by omega
  rw [Int.natAbs_mul, Int.natAbs_pow]
  exact nearestNatural_short hm k

/-! ## Integers as doubles -/

theorem ofInt_eq {i : ℤ} (h : FitsIn 63 i) : ∃ ordinal : Fin finiteCount,
    ofInt i = finite (decide (i < 0)) ordinal ∧ units ordinal = nearestNatural i.natAbs * unitsPerOne := by
  have hlt := nearestOrdinal_natural_lt h.natAbs_le
  exact ⟨⟨_, hlt⟩, by rw [ofInt, ofRatio, ofOrdinal, dif_pos hlt], units_nearestOrdinal _⟩

theorem truncate?_ofInt {i : ℤ} (h : FitsIn 63 i) : (ofInt i).truncate? = some (nearestInt i) := by
  obtain ⟨ordinal, he, hu⟩ := ofInt_eq h
  have hquotient : (units ordinal : ℤ) / (unitsPerOne : ℤ) = nearestNatural i.natAbs := by
    rw [← Int.natCast_ediv, hu, Nat.mul_div_cancel _ unitsPerOne_pos]
  rw [he, truncate?]
  simp only [hquotient, decide_eq_true_eq]
  rfl

theorem toRat?_ofInt {i : ℤ} (h : FitsIn 63 i) : (ofInt i).toRat? = some (nearestInt i : ℚ) := by
  obtain ⟨ordinal, he, hu⟩ := ofInt_eq h
  have hpos : (unitsPerOne : ℚ) ≠ 0 := Nat.cast_ne_zero.mpr (Nat.ne_of_gt unitsPerOne_pos)
  have hquotient : (units ordinal / unitsPerOne : ℚ) = nearestNatural i.natAbs := by
    rw [hu, Nat.cast_mul, mul_div_cancel_right₀ _ hpos]
  rw [he, toRat?, hquotient, nearestInt]
  simp only [decide_eq_true_eq]
  split <;> push_cast <;> rfl

/-! ## Doubles as integers -/

theorem toInt_toInt64 (x : Binary64) :
    (∃ t, x.truncate? = some t ∧ FitsIn 63 t ∧ x.toInt64.toInt = t) ∨
      (∀ t, x.truncate? = some t → ¬FitsIn 63 t) ∧ x.toInt64.toInt = -2 ^ 63 := by
  have hmin : Int64.minValue.toInt = -2 ^ 63 := by decide
  have hrange : ∀ t, Int64.minValue.toInt ≤ t ∧ t ≤ Int64.maxValue.toInt ↔ FitsIn 63 t := by
    intro t
    have hmax : Int64.maxValue.toInt = 2 ^ 63 - 1 := by decide
    rw [hmin, hmax, FitsIn]
    omega
  unfold toInt64
  cases x.truncate? with
  | none => exact .inr ⟨nofun, hmin⟩
  | some t =>
    simp only [hrange, Option.some.injEq, forall_eq', exists_eq_left']
    split
    · rename_i h
      exact .inl ⟨h, Int64.toInt_ofInt_of_le h.1 h.2⟩
    · rename_i h
      exact .inr ⟨h, hmin⟩

theorem toInt_toInt64_of_truncate {x : Binary64} {t : ℤ} (h : x.truncate? = some t) (hfits : FitsIn 63 t) :
    x.toInt64.toInt = t := by
  rcases toInt_toInt64 x with ⟨t', h', -, hi⟩ | ⟨hnone, -⟩
  · rw [h] at h'
    cases h'
    exact hi
  · exact absurd hfits (hnone t h)

theorem fitsIn_toInt64 (x : Binary64) : FitsIn 63 x.toInt64.toInt := ⟨x.toInt64.le_toInt, x.toInt64.toInt_lt⟩

theorem truncate?_eq_zero_iff (x : Binary64) :
    x.truncate? = some 0 ↔ ∃ q, x.toRat? = some q ∧ -1 < q ∧ q < 1 := by
  cases x with
  | nan => simp [truncate?, toRat?]
  | infinite s => simp [truncate?, toRat?]
  | finite s ordinal =>
    have hpos : (0 : ℚ) < unitsPerOne := Nat.cast_pos.mpr unitsPerOne_pos
    have hquotient : (units ordinal : ℤ) / (unitsPerOne : ℤ) = 0 ↔ (units ordinal / unitsPerOne : ℚ) < 1 := by
      rw [← Int.natCast_ediv, Int.natCast_eq_zero, Nat.div_eq_zero_iff_lt unitsPerOne_pos, div_lt_one hpos,
        Nat.cast_lt]
    have hnonneg : (0 : ℚ) ≤ units ordinal / unitsPerOne := div_nonneg (Nat.cast_nonneg _) (Nat.cast_nonneg _)
    simp only [truncate?, toRat?, Option.some.injEq, exists_eq_left']
    cases s with
    | false =>
      simp only [Bool.false_eq_true, ↓reduceIte, hquotient]
      exact ⟨fun h => ⟨by linarith, h⟩, fun h => h.2⟩
    | true =>
      simp only [↓reduceIte, Int.neg_eq_zero, hquotient]
      exact ⟨fun h => ⟨by linarith, by linarith⟩, fun h => by linarith [h.1]⟩

theorem exists_quotient {m : ℕ} (h : m < 2 ^ 53) (k places : ℕ) : ∃ m' k', m' < 2 ^ 53 ∧
    m * 2 ^ k / 2 ^ places = m' * 2 ^ k' := by
  rcases Nat.le_total places k with hle | hle
  · refine ⟨m, k - places, h, ?_⟩
    rw [Nat.mul_div_assoc _ (Nat.pow_dvd_pow 2 hle), Nat.pow_div hle (by decide)]
  · refine ⟨m / 2 ^ (places - k), 0, Nat.lt_of_le_of_lt (Nat.div_le_self ..) h, ?_⟩
    have hsum : places = places - k + k := by omega
    rw [hsum, Nat.pow_add, Nat.mul_div_mul_right _ _ (Nat.two_pow_pos k), Nat.pow_zero, Nat.mul_one,
      Nat.add_sub_cancel]

theorem isShort_truncate {x : Binary64} {t : ℤ} (h : x.truncate? = some t) : IsShort t := by
  cases x with
  | nan => cases h
  | infinite s => cases h
  | finite s ordinal =>
    obtain ⟨places, -, hp⟩ := exists_places
    obtain ⟨m, k, hm, hu⟩ := exists_significand ordinal
    obtain ⟨m', k', hm', hq⟩ := exists_quotient hm k places
    have hwhole : (units ordinal : ℤ) / (unitsPerOne : ℤ) = m' * 2 ^ k' := by
      rw [← Int.natCast_ediv, hp, hu, hq]
      push_cast
      rfl
    cases h
    rw [hwhole]
    cases s with
    | false => exact ⟨m', k', ⟨by omega, by omega⟩, rfl⟩
    | true => exact ⟨-m', k', ⟨by omega, by omega⟩, (neg_mul _ _).symm⟩

theorem isShort_least : IsShort (-2 ^ 63) := ⟨-1, 63, by decide, by decide⟩

theorem isShort_toInt64 (x : Binary64) : IsShort x.toInt64.toInt := by
  rcases toInt_toInt64 x with ⟨t, h, -, hi⟩ | ⟨-, hi⟩ <;> rw [hi]
  · exact isShort_truncate h
  · exact isShort_least

/-- What was rounded to a number within the range is cut to that number again. -/
theorem toInt64_ofInt {i : ℤ} (h : FitsIn 63 i) (hround : FitsIn 63 (nearestInt i)) :
    (ofInt i).toInt64.toInt = nearestInt i :=
  toInt_toInt64_of_truncate (truncate?_ofInt h) hround

end Calculator.Binary64
