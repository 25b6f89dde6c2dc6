import Calculator.Evaluation.Basic
import Calculator.Proofs.Number.Bits

/-!
# Operators on integers

`remainder_and_exact`: the remainder and the bitwise and of any two doubles are the integers that they ought to
be, without rounding. `bitOr_again`: a bitwise or is rounded, and is its own bitwise or with zero unless it was
rounded up to `2 ^ 63`.
-/

namespace Calculator
open Binary64

namespace Binary64

/-- A double that is an integer, written without a sign if it is zero, and that is cut down to that integer. -/
structure IsInteger (z : Binary64) (i : ℤ) : Prop where
  value : z.toRat? = some (i : ℚ)
  ne_negative_zero : z ≠ finite true 0
  truncated : z.toInt64.toInt = i

theorem ofInt_ne_negative_zero {i : ℤ} (h : FitsIn 63 i) : ofInt i ≠ finite true 0 := by
  obtain ⟨ordinal, he, hu⟩ := ofInt_eq h
  rw [he]
  intro hz
  obtain ⟨hnegative, rfl⟩ := (finite.injEq ..).mp hz
  have hzero : units (0 : Fin finiteCount).val = 0 := units_zero
  rw [hzero] at hu
  have hne : 0 < i.natAbs := Int.natAbs_pos.mpr (Int.ne_of_lt (of_decide_eq_true hnegative))
  exact absurd hu (Nat.ne_of_lt (Nat.mul_pos (nearestNatural_pos hne) unitsPerOne_pos))

theorem isInteger_ofInt {i : ℤ} (hshort : IsShort i) (hfits : FitsIn 63 i) : IsInteger (ofInt i) i := by
  have hvalue := toRat?_ofInt hfits
  have htruncated := toInt64_ofInt hfits
  rw [hshort.nearestInt] at hvalue htruncated
  exact ⟨hvalue, ofInt_ne_negative_zero hfits, htruncated hfits⟩

theorem toInt64_eq_zero_iff (y : Binary64) :
    y.toInt64.toInt = 0 ↔ ∃ q, y.toRat? = some q ∧ -1 < q ∧ q < 1 := by
  rw [← truncate?_eq_zero_iff]
  constructor
  · intro h
    rcases toInt_toInt64 y with ⟨t, ht, -, hi⟩ | ⟨-, hi⟩
    · rw [ht, ← hi, h]
    · rw [h] at hi
      exact absurd hi (by decide)
  · exact fun h => toInt_toInt64_of_truncate h (by decide)

end Binary64

/-! ## Remainder and bitwise and -/

theorem tmod_spec (a : ℤ) {b : ℤ} (h : b ≠ 0) :
    a = b * a.tdiv b + a.tmod b ∧ |a.tmod b| < |b| ∧ (a.tmod b = 0 ∨ (a.tmod b).sign = a.sign) := by
  refine ⟨by rw [Int.add_comm, Int.tmod_add_mul_tdiv], ?_, ?_⟩
  · rw [Int.abs_eq_natAbs, Int.abs_eq_natAbs, Int.natAbs_tmod, Nat.cast_lt]
    exact Nat.mod_lt _ (Int.natAbs_pos.mpr h)
  · rw [Int.sign_tmod]
    split
    · rename_i hdvd
      exact .inl (Int.tmod_eq_zero_of_dvd hdvd)
    · exact .inr rfl

theorem isInteger_tmod (x y : Binary64) (h : y.toInt64.toInt ≠ 0) :
    IsInteger (ofInt (x.toInt64.toInt.tmod y.toInt64.toInt)) (x.toInt64.toInt.tmod y.toInt64.toInt) :=
  isInteger_ofInt ((isShort_toInt64 x).tmod (isShort_toInt64 y) h) ((fitsIn_toInt64 x).tmod _)

theorem isInteger_bitAnd (x y : Binary64) : IsInteger (x.bitAnd y) (x.toInt64.toInt.land y.toInt64.toInt) := by
  rw [bitAnd, toInt_and]
  exact isInteger_ofInt ((isShort_toInt64 x).land (isShort_toInt64 y))
    (fitsIn_land (fitsIn_toInt64 x) (fitsIn_toInt64 y))

theorem toInt64_bitAnd (x y : Binary64) : (x.bitAnd y).toInt64 = x.toInt64 &&& y.toInt64 := by
  rw [← Int64.toInt_inj, (isInteger_bitAnd x y).truncated, toInt_and]

theorem bitAnd_assoc (x y z : Binary64) : (x.bitAnd y).bitAnd z = x.bitAnd (y.bitAnd z) := by
  show ofInt ((x.bitAnd y).toInt64 &&& z.toInt64).toInt = ofInt (x.toInt64 &&& (y.bitAnd z).toInt64).toInt
  rw [toInt64_bitAnd, toInt64_bitAnd, Int64.and_assoc]

theorem bitAnd_comm (x y : Binary64) : x.bitAnd y = y.bitAnd x := by
  rw [bitAnd, bitAnd, Int64.and_comm]

theorem apply_mod_cases (x y : Binary64) :
    (Operator.mod.apply x y = .error .integerDivisionByZero ∧ y.toInt64.toInt = 0) ∨
      y.toInt64.toInt ≠ 0 ∧ Operator.mod.apply x y = .ok (ofInt (x.toInt64.toInt.tmod y.toInt64.toInt)) := by
  by_cases h : y.toInt64.toInt = 0
  · exact .inl ⟨by rw [Operator.apply, remainder?, if_pos h], h⟩
  · exact .inr ⟨h, by rw [Operator.apply, remainder?, if_neg h]⟩

/-- Without rounding, the remainder is that of truncated division and the bitwise and that of two's complement;
only a divisor between minus one and one has no remainder. -/
theorem remainder_and_exact (x y : Binary64) :
    ((∃ q, y.toRat? = some q ∧ -1 < q ∧ q < 1) ∧ Operator.mod.apply x y = .error .integerDivisionByZero ∨
      (¬∃ q, y.toRat? = some q ∧ -1 < q ∧ q < 1) ∧ ∃ z quotient r, Operator.mod.apply x y = .ok z ∧ IsInteger z r ∧
        x.toInt64.toInt = y.toInt64.toInt * quotient + r ∧ |r| < |y.toInt64.toInt| ∧
        (r = 0 ∨ r.sign = x.toInt64.toInt.sign)) ∧
    (∃ z, Operator.bitAnd.apply x y = .ok z ∧ IsInteger z (x.toInt64.toInt.land y.toInt64.toInt)) ∧
    Operator.bitAnd.apply x y = Operator.bitAnd.apply y x ∧
    ∀ z, (Operator.bitAnd.apply x y).bind (Operator.bitAnd.apply · z) =
      (Operator.bitAnd.apply y z).bind (Operator.bitAnd.apply x) := by
  refine ⟨?_, ⟨_, rfl, isInteger_bitAnd x y⟩, congrArg Except.ok (bitAnd_comm x y),
    fun z => congrArg Except.ok (bitAnd_assoc x y z)⟩
  rw [← toInt64_eq_zero_iff]
  rcases apply_mod_cases x y with ⟨hm, h⟩ | ⟨h, hm⟩
  · exact .inl ⟨h, hm⟩
  · exact .inr ⟨h, _, _, _, hm, isInteger_tmod x y h, tmod_spec _ h⟩

/-! ## Bitwise or -/

theorem nearestNatural_top {n : ℕ} (h : 2 ^ 62 ≤ n) (h' : n < 2 ^ 63) : nearestNatural n = roundDiv n 1024 * 1024 := by
  have hlog : n.log2 = 62 := (Nat.log2_eq_iff (by omega)).mpr ⟨h, h'⟩
  rw [nearestNatural, hlog]

theorem roundDiv_top {n : ℕ} (h : n < 2 ^ 63) : 2 ^ 63 - 512 ≤ n ∧ roundDiv n 1024 = 2 ^ 53 ∨
    n < 2 ^ 63 - 512 ∧ roundDiv n 1024 < 2 ^ 53 := by
  unfold roundDiv
  simp only
  split
  · omega
  · split <;> omega

/-- Only the last half step below the end of the range is rounded out of it. -/
theorem nearestInt_range {i : ℤ} (h : FitsIn 63 i) :
    2 ^ 63 - 512 ≤ i ∧ nearestInt i = 2 ^ 63 ∨ i < 2 ^ 63 - 512 ∧ FitsIn 63 (nearestInt i) := by
  have hle : nearestNatural i.natAbs ≤ 2 ^ 63 := nearestNatural_le_pow h.natAbs_le
  obtain ⟨hlow, hhigh⟩ := h
  unfold nearestInt FitsIn
  split
  · right
    omega
  rcases Nat.lt_or_ge i.natAbs (2 ^ 62) with h | h
  · have hsmall : nearestNatural i.natAbs ≤ 2 ^ 62 := nearestNatural_le_pow (Nat.le_of_lt h)
    right
    omega
  · have hround := roundDiv_top (n := i.natAbs) (by omega)
    rw [nearestNatural_top h (by omega)]
    omega

theorem natAbs_nearestInt (i : ℤ) : (nearestInt i).natAbs = nearestNatural i.natAbs := by
  unfold nearestInt
  split
  · rw [Int.natAbs_neg, Int.natAbs_natCast]
  · rw [Int.natAbs_natCast]

theorem nearestInt_neg_iff (i : ℤ) : nearestInt i < 0 ↔ i < 0 := by
  unfold nearestInt
  split
  · rename_i h
    have := nearestNatural_pos (n := i.natAbs) (by omega)
    omega
  · rename_i h
    omega

theorem ofInt_nearestInt {i : ℤ} (h : FitsIn 63 i) (hround : FitsIn 63 (nearestInt i)) :
    ofInt (nearestInt i) = ofInt i := by
  obtain ⟨ordinal, he, hu⟩ := ofInt_eq h
  obtain ⟨ordinal', he', hu'⟩ := ofInt_eq hround
  rw [natAbs_nearestInt, nearestNatural_idem, ← hu] at hu'
  rw [he, he', Fin.ext (units_injective hu'), decide_eq_decide.mpr (nearestInt_neg_iff i)]

theorem bitOr_eq (x y : Binary64) : x.bitOr y = ofInt (x.toInt64.toInt.lor y.toInt64.toInt) := by
  rw [bitOr, toInt_or]

theorem bitOr_zero (x : Binary64) : x.bitOr zero = ofInt x.toInt64.toInt := by
  have hzero : zero.toInt64 = 0 := by decide +kernel
  rw [bitOr, hzero, Int64.or_zero]

theorem toInt64_ofInt_overflow {i : ℤ} (h : FitsIn 63 i) (hround : nearestInt i = 2 ^ 63) :
    (ofInt i).toInt64.toInt = -2 ^ 63 := by
  rcases toInt_toInt64 (ofInt i) with ⟨t, ht, hfits, -⟩ | ⟨-, hi⟩
  · rw [truncate?_ofInt h, hround] at ht
    cases ht
    exact absurd hfits (by decide)
  · exact hi

/-- A bitwise or is in the range of its operands, and a bitwise or with zero leaves it as it is, unless the exact
one is within half a step of `2 ^ 63`: that is rounded up, and the next operator takes it for the least integer. -/
theorem bitOr_again (x y : Binary64) :
    (x.toInt64.toInt.lor y.toInt64.toInt < 2 ^ 63 - 512 ∧ ∃ z, Operator.bitOr.apply x y = .ok z ∧
        (∃ i : ℤ, z.toRat? = some (i : ℚ) ∧ -2 ^ 63 ≤ i ∧ i < 2 ^ 63) ∧ Operator.bitOr.apply z zero = .ok z) ∨
      2 ^ 63 - 512 ≤ x.toInt64.toInt.lor y.toInt64.toInt ∧ ∃ z z', Operator.bitOr.apply x y = .ok z ∧
        z.toRat? = some (2 ^ 63) ∧ Operator.bitOr.apply z zero = .ok z' ∧ z'.toRat? = some (-2 ^ 63) := by
  have hfits := fitsIn_lor (fitsIn_toInt64 x) (fitsIn_toInt64 y)
  have happly : Operator.bitOr.apply x y = .ok (ofInt (x.toInt64.toInt.lor y.toInt64.toInt)) :=
    congrArg Except.ok (bitOr_eq x y)
  rw [happly]
  generalize x.toInt64.toInt.lor y.toInt64.toInt = i at hfits ⊢
  have hvalue := toRat?_ofInt hfits
  rcases nearestInt_range hfits with ⟨htop, hround⟩ | ⟨hbelow, hround⟩
  · have hleast := toRat?_ofInt (show FitsIn 63 (-2 ^ 63) by decide)
    rw [isShort_least.nearestInt] at hleast
    rw [hround] at hvalue
    refine .inr ⟨htop, _, _, rfl, by rw [hvalue]; norm_num, rfl, ?_⟩
    rw [bitOr_zero, toInt64_ofInt_overflow hfits hround, hleast]
    norm_num
  · refine .inl ⟨hbelow, _, rfl, ⟨_, hvalue, hround⟩, ?_⟩
    show Except.ok ((ofInt i).bitOr zero) = _
    rw [bitOr_zero, toInt64_ofInt hfits hround, ofInt_nearestInt hfits hround]

/-- The largest double below `2 ^ 63`, with the bits filled in that it has no room for. -/
theorem bitOr_again_differs :
    Operator.bitOr.apply (ofBits 0x43DFFFFFFFFFFFFF) (ofBits 0x408FF80000000000) = .ok (ofBits 0x43E0000000000000) ∧
      Operator.bitOr.apply (ofBits 0x43E0000000000000) zero = .ok (ofBits 0xC3E0000000000000) ∧
      ofBits 0xC3E0000000000000 ≠ ofBits 0x43E0000000000000 := by
  decide +kernel

end Calculator
