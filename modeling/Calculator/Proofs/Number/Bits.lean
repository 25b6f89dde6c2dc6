import Calculator.Proofs.Number.Whole
import Mathlib.Data.Int.Bitwise
import Mathlib.Tactic.Ring

/-!
# Bits of integers

`toInt_and`, `toInt_or`: the bitwise operations on signed 64-bit integers are those on integers.
`IsShort.land`, `IsShort.tmod`: a bitwise and and a remainder of integers of at most 53 significant bits
have at most that many.
-/

namespace Calculator
open Binary64

/-! ## The lowest bit and the others -/

theorem exists_bit (i : ℤ) : ∃ b high, i = Int.bit b high := ⟨_, _, (Int.bit_decomp i).symm⟩

theorem fitsIn_bit {b : Bool} {high : ℤ} {bits : ℕ} : FitsIn (bits + 1) (Int.bit b high) ↔ FitsIn bits high := by
  rw [FitsIn, FitsIn, Int.bit_val, pow_succ]
  cases b <;> simp only [cond_true, cond_false] <;> omega

theorem fitsIn_natBitwise (f : Bool → Bool → Bool) : FitsIn 0 (Int.natBitwise f 0 0) := by
  unfold Int.natBitwise
  rw [Nat.bitwise_zero_left, Nat.bitwise_zero_left, ite_self, ite_self]
  cases f false false <;> decide

theorem fitsIn_bitwise (f : Bool → Bool → Bool) : ∀ (bits : ℕ) {i j : ℤ}, FitsIn bits i → FitsIn bits j →
    FitsIn bits (Int.bitwise f i j)
  | 0, i, j, hi, hj => by
    rw [FitsIn, pow_zero] at hi hj
    obtain rfl | rfl : i = 0 ∨ i = -1 := by omega
    · obtain rfl | rfl : j = 0 ∨ j = -1 := by omega
      · exact fitsIn_natBitwise f
      · exact fitsIn_natBitwise fun x y => f x !y
    · obtain rfl | rfl : j = 0 ∨ j = -1 := by omega
      · exact fitsIn_natBitwise fun x y => f (!x) y
      · exact fitsIn_natBitwise fun x y => f (!x) !y
  | bits + 1, i, j, hi, hj => by
    obtain ⟨b, high, rfl⟩ := exists_bit i
    obtain ⟨b', high', rfl⟩ := exists_bit j
    rw [Int.bitwise_bit, fitsIn_bit]
    exact fitsIn_bitwise f bits (fitsIn_bit.mp hi) (fitsIn_bit.mp hj)

theorem fitsIn_land {bits : ℕ} {i j : ℤ} (hi : FitsIn bits i) (hj : FitsIn bits j) : FitsIn bits (i.land j) := by
  rw [← Int.bitwise_and]
  exact fitsIn_bitwise and bits hi hj

theorem fitsIn_lor {bits : ℕ} {i j : ℤ} (hi : FitsIn bits i) (hj : FitsIn bits j) : FitsIn bits (i.lor j) := by
  rw [← Int.bitwise_or]
  exact fitsIn_bitwise or bits hi hj

/-! ## Signed 64-bit integers -/

theorem getLsbD_ofInt (width : ℕ) : ∀ (i : ℤ) (n : ℕ),
    (BitVec.ofInt width i).getLsbD n = (decide (n < width) && i.testBit n)
  | (m : ℕ), n => by rw [BitVec.ofInt_natCast, BitVec.getLsbD_ofNat]; rfl
  | Int.negSucc m, n => by
    rw [BitVec.ofInt_negSucc_eq_not_ofNat, BitVec.getLsbD_not, BitVec.getLsbD_ofNat]
    cases decide (n < width) <;> rfl

theorem getLsbD_toBitVec (x : Int64) {n : ℕ} (h : n < 64) : x.toBitVec.getLsbD n = x.toInt.testBit n := by
  rw [← BitVec.ofInt_toInt (x := x.toBitVec), getLsbD_ofInt, decide_eq_true h, Bool.true_and,
    Int64.toInt_toBitVec]

theorem toInt_bitwise {f : Bool → Bool → Bool} {x y z : Int64}
    (h : ∀ n, z.toBitVec.getLsbD n = f (x.toBitVec.getLsbD n) (y.toBitVec.getLsbD n)) :
    z.toInt = Int.bitwise f x.toInt y.toInt := by
  obtain ⟨hlow, hhigh⟩ := fitsIn_bitwise f 63 ⟨x.le_toInt, x.toInt_lt⟩ ⟨y.le_toInt, y.toInt_lt⟩
  have hbits : z.toBitVec = BitVec.ofInt 64 (Int.bitwise f x.toInt y.toInt) := by
    apply BitVec.eq_of_getLsbD_eq
    intro n hn
    rw [h, getLsbD_ofInt, Int.testBit_bitwise, decide_eq_true hn, Bool.true_and, getLsbD_toBitVec x hn,
      getLsbD_toBitVec y hn]
  rw [← Int64.toInt_toBitVec, hbits, BitVec.toInt_ofInt_eq_self (by decide) hlow hhigh]

theorem toInt_and (x y : Int64) : (x &&& y).toInt = x.toInt.land y.toInt := by
  rw [← Int.bitwise_and]
  exact toInt_bitwise fun n => by rw [Int64.toBitVec_and, BitVec.getLsbD_and]

theorem toInt_or (x y : Int64) : (x ||| y).toInt = x.toInt.lor y.toInt := by
  rw [← Int.bitwise_or]
  exact toInt_bitwise fun n => by rw [Int64.toBitVec_or, BitVec.getLsbD_or]

/-! ## Significant bits -/

theorem land_comm : ∀ i j : ℤ, i.land j = j.land i
  | (m : ℕ), (n : ℕ) => congrArg Int.ofNat (Nat.land_comm m n)
  | (_ : ℕ), Int.negSucc _ => rfl
  | Int.negSucc _, (_ : ℕ) => rfl
  | Int.negSucc m, Int.negSucc n => congrArg Int.negSucc (Nat.lor_comm m n)

theorem mul_pow_land (m j : ℤ) : ∀ k : ℕ, (m * 2 ^ k).land j = m.land (j / 2 ^ k) * 2 ^ k
  | 0 => by simp
  | k + 1 => by
    obtain ⟨b, high, rfl⟩ := exists_bit j
    have hleft : m * 2 ^ (k + 1) = Int.bit false (m * 2 ^ k) := by
      rw [Int.bit_val, cond_false]
      ring
    have hhalf : Int.bit b high / 2 = high := by
      rw [Int.bit_val]
      cases b <;> simp only [cond_true, cond_false] <;> omega
    rw [hleft, Int.land_bit, Bool.false_and, mul_pow_land m high k, Int.bit_val, cond_false, pow_succ',
      ← Int.ediv_ediv_of_nonneg (by decide), hhalf]
    ring

namespace Binary64

theorem FitsIn.ediv {bits : ℕ} {m : ℤ} (h : FitsIn bits m) (places : ℕ) : FitsIn bits (m / 2 ^ places) := by
  obtain ⟨hlow, hhigh⟩ := h
  have hpos : (0 : ℤ) < 2 ^ places := by positivity
  have hgrows : (2 : ℤ) ^ bits ≤ 2 ^ bits * 2 ^ places := le_mul_of_one_le_right (by positivity) hpos
  constructor
  · rw [Int.le_ediv_iff_mul_le hpos, neg_mul]
    linarith
  · rw [Int.ediv_lt_iff_lt_mul hpos]
    linarith

theorem FitsIn.tmod {bits : ℕ} {m : ℤ} (h : FitsIn bits m) (n : ℤ) : FitsIn bits (m.tmod n) := by
  obtain ⟨hlow, hhigh⟩ := h
  have hle : (m.tmod n).natAbs ≤ m.natAbs := by
    rw [Int.natAbs_tmod]
    exact Nat.mod_le ..
  rw [FitsIn]
  rcases Int.le_total 0 m with h0 | h0
  · have hsign := Int.tmod_nonneg n h0
    omega
  · have hsign := Int.tmod_nonneg n (Int.neg_nonneg.mpr h0)
    rw [Int.neg_tmod] at hsign
    omega

theorem fitsIn_tmod_divisor {bits : ℕ} (m : ℤ) {n : ℤ} (h : FitsIn bits n) (h0 : n ≠ 0) : FitsIn bits (m.tmod n) := by
  obtain ⟨hlow, hhigh⟩ := h
  have hsize := Int.natAbs_tmod m n
  have hlt := Nat.mod_lt m.natAbs (Int.natAbs_pos.mpr h0)
  rw [FitsIn]
  omega

namespace IsShort

variable {i j : ℤ}

theorem tmod (hi : IsShort i) (hj : IsShort j) (h0 : j ≠ 0) : IsShort (i.tmod j) := by
  obtain ⟨m, k, hm, rfl⟩ := hi
  obtain ⟨n, l, hn, rfl⟩ := hj
  -- the power of two that both have in common is one of the remainder, too
  rcases Nat.le_total k l with h | h
  · obtain ⟨d, rfl⟩ := Nat.exists_eq_add_of_le h
    refine ⟨m.tmod (n * 2 ^ d), k, hm.tmod _, ?_⟩
    rw [pow_add, mul_comm m, mul_left_comm, Int.mul_tmod_mul_of_pos _ _ (by positivity), mul_comm]
  · obtain ⟨d, rfl⟩ := Nat.exists_eq_add_of_le h
    refine ⟨(m * 2 ^ d).tmod n, l, fitsIn_tmod_divisor _ hn (left_ne_zero_of_mul h0), ?_⟩
    rw [pow_add, mul_left_comm, mul_comm n, Int.mul_tmod_mul_of_pos _ _ (by positivity), mul_comm]

theorem land_of_le {m n : ℤ} {k l : ℕ} (hm : FitsIn 53 m) (hn : FitsIn 53 n) (h : l ≤ k) :
    IsShort ((m * 2 ^ k).land (n * 2 ^ l)) := by
  obtain ⟨d, rfl⟩ := Nat.exists_eq_add_of_le h
  have hquotient : n * 2 ^ l / 2 ^ (l + d) = n / 2 ^ d := by
    rw [pow_add, mul_comm n, Int.mul_ediv_mul_of_pos _ _ (by positivity)]
  exact ⟨m.land (n / 2 ^ d), l + d, fitsIn_land hm (hn.ediv d), by rw [mul_pow_land, hquotient]⟩

theorem land (hi : IsShort i) (hj : IsShort j) : IsShort (i.land j) := by
  obtain ⟨m, k, hm, rfl⟩ := hi
  obtain ⟨n, l, hn, rfl⟩ := hj
  rcases Nat.le_total l k with h | h
  · exact land_of_le hm hn h
  · rw [land_comm]
    exact land_of_le hn hm h

end IsShort
end Binary64
end Calculator
