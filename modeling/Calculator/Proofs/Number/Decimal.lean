import Calculator.Decimal.Shortest
import Calculator.Proofs.Number.Rounding

/-!
# Decimals

`toBinary64_scale`: trailing zeros of the coefficient may be moved to the exponent. `toBinary64_shortest`: the
shortest decimal of a magnitude denotes it. `exists_significant`: the digits without trailing zeros are those
of a coefficient, and the decimal is that coefficient with another exponent.
-/

namespace Calculator.Decimal
open Binary64

/-! ## What a decimal denotes -/

theorem toBinary64_eq (d : Decimal) (places : Nat) (h : 0 ≤ d.exponent + places) :
    d.toBinary64 = ofRatio false (d.coefficient * 10 ^ (d.exponent + places).toNat) (10 ^ places) := by
  unfold toBinary64
  split
  · rename_i he
    have hsum : (d.exponent + places).toNat = d.exponent.toNat + places := by omega
    rw [hsum, Nat.pow_add, ← Nat.mul_assoc, ← ofRatio_mul_right _ _ 1 (Nat.pow_pos (by decide) : 0 < 10 ^ places),
      Nat.one_mul]
  · rename_i he
    have hsum : places = (-d.exponent).toNat + (d.exponent + places).toNat := by omega
    rw [← ofRatio_mul_right _ _ _ (Nat.pow_pos (by decide) : 0 < 10 ^ (d.exponent + places).toNat), ← Nat.pow_add,
      ← hsum]

theorem toBinary64_scale (coefficient zeros : Nat) (exponent : Int) :
    toBinary64 ⟨coefficient * 10 ^ zeros, exponent⟩ = toBinary64 ⟨coefficient, exponent + zeros⟩ := by
  have h : 0 ≤ exponent + ((-exponent).toNat : Int) := by omega
  have hsum : zeros + (exponent + ((-exponent).toNat : Int)).toNat =
      (exponent + zeros + ((-exponent).toNat : Int)).toNat := by omega
  rw [toBinary64_eq _ (-exponent).toNat h, toBinary64_eq _ (-exponent).toNat (by simp only; omega)]
  simp only
  rw [Nat.mul_assoc, ← Nat.pow_add, hsum]

theorem toBinary64_zero (exponent : Int) : toBinary64 ⟨0, exponent⟩ = zero := by
  have hzero : ∀ den, 0 < den → nearestOrdinal 0 den = 0 := by
    intro den h
    unfold nearestOrdinal
    simp only [Nat.zero_div, Nat.log2_zero, Nat.zero_sub, Nat.zero_mul, Nat.zero_add, Nat.pow_zero, Nat.mul_one]
    have := roundDiv_mul_self 0 h
    rwa [Nat.zero_mul] at this
  rw [toBinary64_eq _ (-exponent).toNat (by simp only; omega), ofRatio]
  simp only [Nat.zero_mul]
  rw [hzero _ (Nat.pow_pos (by decide))]
  rfl

/-! ## The shortest decimal -/

theorem toBinary64_onGrid? {ordinal : Fin finiteCount} {exponent : Int} {d : Decimal}
    (h : onGrid? ordinal exponent = some d) : d.toBinary64 = .finite false ordinal := by
  unfold onGrid? at h
  simp only at h
  obtain ⟨coefficient, -, hc⟩ := List.exists_of_findSome?_eq_some h
  split at hc
  · rename_i hd
    cases hc
    exact hd
  · cases hc

/-- A step is a power of five times a power of ten, so every magnitude is a decimal. -/
theorem toBinary64_places (ordinal : Fin finiteCount) (places : Nat) (h : unitsPerOne = 2 ^ places) :
    toBinary64 ⟨units ordinal * 5 ^ places, -places⟩ = .finite false ordinal := by
  have hnearest := nearestOrdinal_mul_right (units ordinal) 1 (Nat.pow_pos (by decide) : 0 < 10 ^ places)
  rw [Nat.one_mul, nearestOrdinal_units] at hnearest
  rw [toBinary64_eq _ places (by simp only; omega), ofRatio, h]
  simp only [Int.add_left_neg, Int.toNat_zero, Nat.pow_zero, Nat.mul_one]
  rw [Nat.mul_assoc, ← Nat.mul_pow, hnearest, ofOrdinal, dif_pos ordinal.isLt]

theorem toBinary64_exact (ordinal : Fin finiteCount) : (exact ordinal).toBinary64 = .finite false ordinal :=
  toBinary64_places ordinal 1074 (by rw [unitsPerOne])

theorem toBinary64_shortest (ordinal : Fin finiteCount) : (shortest ordinal).toBinary64 = .finite false ordinal := by
  unfold shortest
  split
  · rename_i h
    have : ordinal = 0 := Fin.ext h
    subst this
    exact toBinary64_zero 0
  · simp only
    cases hg : (List.range 17).findSome? fun (k : Nat) => onGrid? ordinal (leadingExponent ordinal - k) with
    | none => exact toBinary64_exact ordinal
    | some d =>
      obtain ⟨k, -, hk⟩ := List.exists_of_findSome?_eq_some hg
      exact toBinary64_onGrid? hk

theorem shortest_of_coefficient_zero {ordinal : Fin finiteCount} (h : (shortest ordinal).coefficient = 0) :
    shortest ordinal = ⟨0, 0⟩ := by
  have hv := toBinary64_shortest ordinal
  have hd : shortest ordinal = ⟨0, (shortest ordinal).exponent⟩ := by rw [← h]
  rw [hd, toBinary64_zero] at hv
  cases hv
  rfl

/-! ## Digits -/

theorem toDigits_mul_ten {n : Nat} (h : 0 < n) : Nat.toDigits 10 (n * 10) = Nat.toDigits 10 n ++ ['0'] := by
  have := Nat.toDigits_append_toDigits (b := 10) (d := 0) (by decide) h (by decide)
  rw [Nat.add_zero, Nat.toDigits_zero, Nat.mul_comm] at this
  exact this.symm

theorem toDigits_mul_pow {n : Nat} (h : 0 < n) : ∀ zeros,
    Nat.toDigits 10 (n * 10 ^ zeros) = Nat.toDigits 10 n ++ List.replicate zeros '0'
  | 0 => by simp
  | zeros + 1 => by
    rw [Nat.pow_succ, ← Nat.mul_assoc, toDigits_mul_ten (Nat.mul_pos h (Nat.pow_pos (by decide))),
      toDigits_mul_pow h zeros, List.append_assoc, List.replicate_succ']

theorem digitChar_ne_zero {n : Nat} (h : n < 10) (hn : n ≠ 0) : n.digitChar ≠ '0' := by
  intro hc
  have := Nat.toNat_digitChar_sub_48_of_lt_ten h
  rw [hc] at this
  exact hn this.symm

theorem getLast?_toDigits {n : Nat} (h : n % 10 ≠ 0) : (Nat.toDigits 10 n).getLast? ≠ some '0' := by
  have hn := digitChar_ne_zero (Nat.mod_lt n (by decide)) h
  rw [Nat.toDigits_eq_if (by decide)]
  split
  · rename_i hlt
    rw [Nat.mod_eq_of_lt hlt] at hn
    simpa using hn
  · simpa using hn

theorem exists_eq_mul_pow : ∀ n : Nat, 0 < n → ∃ m zeros, n = m * 10 ^ zeros ∧ m % 10 ≠ 0
  | n, h => by
    by_cases h10 : n % 10 = 0
    · obtain ⟨m, zeros, hm, hlast⟩ := exists_eq_mul_pow (n / 10) (by omega)
      refine ⟨m, zeros + 1, ?_, hlast⟩
      rw [Nat.pow_succ, ← Nat.mul_assoc, ← hm]
      omega
    · exact ⟨n, 0, by simp, h10⟩

theorem exists_trimmed {d : Decimal} (h0 : d.coefficient ≠ 0) : ∃ (m zeros : Nat), d.coefficient = m * 10 ^ zeros ∧
    m % 10 ≠ 0 ∧ d.significantDigits = Nat.toDigits 10 m ∧
    d.pointPlace = (Nat.toDigits 10 m).length + (d.exponent + zeros) := by
  obtain ⟨m, zeros, hm, hlast⟩ := exists_eq_mul_pow d.coefficient (Nat.pos_of_ne_zero h0)
  have hdigits := toDigits_mul_pow (show 0 < m by omega) zeros
  refine ⟨m, zeros, hm, hlast, ?_, ?_⟩
  · have hkept : ((Nat.toDigits 10 m).reverse.dropWhile (· == '0')) = (Nat.toDigits 10 m).reverse := by
      have := getLast?_toDigits hlast
      rw [← List.head?_reverse] at this
      cases hr : (Nat.toDigits 10 m).reverse with
      | nil => rfl
      | cons c cs =>
        rw [hr] at this
        exact List.dropWhile_cons_of_neg (by simpa using this)
    unfold significantDigits
    simp only [hm, hdigits, List.reverse_append, List.reverse_replicate]
    rw [List.dropWhile_append_of_pos (by simp), hkept, List.reverse_reverse]
    split
    · rename_i hnil
      exact absurd hnil Nat.toDigits_ne_nil
    · rfl
  · rw [pointPlace, hm, hdigits, List.length_append, List.length_replicate]
    omega

theorem exists_significant (d : Decimal) : ∃ (m zeros : Nat), d.coefficient = m * 10 ^ zeros ∧
    d.significantDigits = Nat.toDigits 10 m ∧
    d.pointPlace = (Nat.toDigits 10 m).length + (d.exponent + zeros) := by
  by_cases h0 : d.coefficient = 0
  · refine ⟨0, 0, by rw [h0, Nat.zero_mul], ?_, ?_⟩
    · simp [significantDigits, h0]
    · simp [pointPlace, h0]
  · obtain ⟨m, zeros, hm, -, hs, hp⟩ := exists_trimmed h0
    exact ⟨m, zeros, hm, hs, hp⟩

theorem getLast?_significantDigits {d : Decimal} (h0 : d.coefficient ≠ 0) :
    d.significantDigits.getLast? ≠ some '0' := by
  obtain ⟨m, -, -, hlast, hs, -⟩ := exists_trimmed h0
  rw [hs]
  exact getLast?_toDigits hlast

end Calculator.Decimal
