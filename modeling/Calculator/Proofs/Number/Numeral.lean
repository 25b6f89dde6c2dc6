import Calculator.Proofs.Number.Decimal
import Calculator.Proofs.Token.Lexeme

/-!
# Numerals and the doubles they spell

`value_ofMagnitude`, `isInRange_ofMagnitude`: the numeral written for a finite magnitude is read back as that
magnitude. `isFinite_value_of_integer`: only a numeral with a point can be too large for a double, and
`exists_overflowing` gives one that is.
-/

namespace Calculator

namespace Binary64

-- the exponent is a variable below, since the power itself is not to be computed
theorem exists_places : ∃ places, places = 1074 ∧ unitsPerOne = 2 ^ places := ⟨1074, rfl, by rw [unitsPerOne]⟩

theorem unitsPerOne_pos : 0 < unitsPerOne := by
  obtain ⟨places, -, h⟩ := exists_places
  rw [h]
  exact Nat.two_pow_pos _

theorem pow_le_units_natural {n : Nat} (h : 2 ^ 63 ≤ n) :
    2 ^ 63 * unitsPerOne ≤ units (nearestOrdinal (n * unitsPerOne) 1) := by
  obtain ⟨places, -, hp⟩ := exists_places
  have hpow : 2 ^ 63 * unitsPerOne = 2 ^ (52 + (11 + places)) := by
    rw [hp, ← Nat.pow_add, ← Nat.add_assoc]
  have hle := Nat.mul_le_mul_right unitsPerOne h
  rw [hpow] at hle ⊢
  refine pow_le_units (pow_le_nearestOrdinal Nat.one_pos ?_)
  rwa [Nat.one_mul]

theorem nearestOrdinal_natural_lt {n : Nat} (h : n ≤ 2 ^ 63) :
    nearestOrdinal (n * unitsPerOne) 1 < finiteCount := by
  obtain ⟨places, hplaces, hp⟩ := exists_places
  have hpow : 2 ^ 64 * unitsPerOne = 2 ^ (53 + (11 + places)) := by
    rw [hp, ← Nat.pow_add, ← Nat.add_assoc]
  have hlt := Nat.mul_lt_mul_of_pos_right (Nat.lt_of_le_of_lt h (by decide : 2 ^ 63 < 2 ^ 64)) unitsPerOne_pos
  rw [hpow] at hlt
  have hle : nearestOrdinal (n * unitsPerOne) 1 ≤ (11 + places + 2) * 2 ^ 52 := by
    refine nearestOrdinal_le_pow Nat.one_pos ?_
    rwa [Nat.one_mul]
  rw [hplaces] at hle
  exact Nat.lt_of_le_of_lt hle (by decide)

end Binary64

namespace Numeral
open Binary64

/-! ## Values -/

theorem value_eq (n : Numeral) : n.value = .infinite false ∨ ∃ ordinal, n.value = .finite false ordinal := by
  have hratio : ∀ num den, ofRatio false num den = .infinite false ∨
      ∃ ordinal, ofRatio false num den = .finite false ordinal := by
    intro num den
    unfold ofRatio ofOrdinal
    split
    · exact .inr ⟨_, rfl⟩
    · exact .inl rfl
  unfold value Decimal.toBinary64
  split <;> exact hratio _ _

theorem value_integer (digits : List Char) :
    value ⟨digits, none⟩ = ofRatio false (Nat.ofDigitChars 10 digits 0) 1 := by
  simp [value, toDecimal, Decimal.toBinary64]

theorem isFinite_value_of_integer {n : Numeral} (h : n.isInRange = true) (hf : n.fraction = none) :
    n.value.isFinite = true := by
  obtain ⟨whole, fraction⟩ := n
  cases hf
  simp only [isInRange, Option.isSome_none, Bool.false_or, Bool.and_eq_true, decide_eq_true_eq] at h
  have hlt : Nat.ofDigitChars 10 whole 0 < 2 ^ 63 := Nat.lt_of_le_of_lt h.2 (by decide)
  rw [value_integer, ofRatio, ofOrdinal, dif_pos (nearestOrdinal_natural_lt (Nat.le_of_lt hlt))]
  rfl

/-! ## Positional spellings -/

/-- The three places for the point: before the digits, behind them, and among them. -/
theorem ofDecimal_cases (d : Decimal) : ∃ (m k : Nat) (exponent : Int),
    d.toBinary64 = Decimal.toBinary64 ⟨m, exponent⟩ ∧ (m = 0 → d.coefficient = 0) ∧
    (ofDecimal d = ⟨['0'], some (List.replicate k '0' ++ Nat.toDigits 10 m)⟩ ∧
        exponent = -((k + (Nat.toDigits 10 m).length : Nat) : Int) ∨
      ofDecimal d = ⟨Nat.toDigits 10 m ++ List.replicate k '0', none⟩ ∧ exponent = k ∨
      ofDecimal d = ⟨(Nat.toDigits 10 m).take k, some ((Nat.toDigits 10 m).drop k)⟩ ∧
        0 < k ∧ exponent = -(((Nat.toDigits 10 m).length - k : Nat) : Int)) := by
  obtain ⟨m, zeros, hc, hs, hp⟩ := d.exists_significant
  have hv : d.toBinary64 = Decimal.toBinary64 ⟨m, d.exponent + zeros⟩ := by
    rw [← Decimal.toBinary64_scale, ← hc]
  have h0 : m = 0 → d.coefficient = 0 := by
    rintro rfl
    rw [hc, Nat.zero_mul]
  unfold ofDecimal ofDigits
  simp only [hs, hp]
  split
  · exact ⟨m, _, _, hv, h0, .inl ⟨rfl, by omega⟩⟩
  · split
    · exact ⟨m, _, _, hv, h0, .inr (.inl ⟨rfl, by omega⟩)⟩
    · exact ⟨m, _, _, hv, h0, .inr (.inr ⟨rfl, by omega, by omega⟩)⟩

theorem value_ofDecimal (d : Decimal) : (ofDecimal d).value = d.toBinary64 := by
  obtain ⟨m, k, exponent, hv, -, ⟨hn, he⟩ | ⟨hn, he⟩ | ⟨hn, -, he⟩⟩ := ofDecimal_cases d <;>
    rw [hn, hv, he, value, toDecimal]
  · simp [Nat.ofDigitChars_cons, Nat.ofDigitChars_append]
  · have := Decimal.toBinary64_scale m k 0
    rw [Int.zero_add] at this
    simp [← this, Nat.ofDigitChars_append, Nat.mul_comm]
  · simp

theorem isDigit_toDigits (m : Nat) : ∀ c ∈ Nat.toDigits 10 m, c.isDigit = true :=
  fun _ hc => Nat.isDigit_of_mem_toDigits (by decide) (by decide) hc

theorem isDigit_zeros (k : Nat) : ∀ c ∈ List.replicate k '0', c.isDigit = true := by
  intro c hc
  rw [List.eq_of_mem_replicate hc]
  decide

theorem isSpelling_ofDecimal (d : Decimal) : (ofDecimal d).isSpelling = true := by
  obtain ⟨m, k, -, -, -, ⟨hn, -⟩ | ⟨hn, -⟩ | ⟨hn, hk, -⟩⟩ := ofDecimal_cases d <;> rw [hn, isSpelling]
  · simp only [List.all_append, Bool.and_eq_true, List.all_eq_true]
    exact ⟨isDigit_zeros 1, ⟨isDigit_zeros k, isDigit_toDigits m⟩, rfl⟩
  · simp only [List.all_append, Bool.and_eq_true, List.all_eq_true]
    exact ⟨⟨isDigit_toDigits m, isDigit_zeros k⟩, by simp⟩
  · have hd := isDigit_toDigits m
    simp only [Bool.and_eq_true, List.all_eq_true]
    refine ⟨fun c hc => hd c (List.mem_of_mem_take hc), fun c hc => hd c (List.mem_of_mem_drop hc), ?_⟩
    simp [Nat.ne_of_gt hk]

theorem value_pointed (n : Numeral) : n.pointed.value = n.value := by
  obtain ⟨whole, fraction⟩ := n
  cases fraction with
  | some digits => rfl
  | none =>
    have := Decimal.toBinary64_scale (Nat.ofDigitChars 10 whole 0) 1 (-1)
    simpa [pointed, value, toDecimal, Nat.ofDigitChars_append, Nat.ofDigitChars_cons, Nat.mul_comm] using this

theorem isSpelling_pointed {n : Numeral} (h : n.isSpelling = true) : n.pointed.isSpelling = true := by
  obtain ⟨whole, fraction⟩ := n
  cases fraction with
  | some digits => exact h
  | none =>
    simp only [isSpelling, Bool.and_eq_true] at h
    simp [isSpelling, pointed, h.1]

/-! ## Magnitudes -/

/-- The spelling of a finite magnitude. A whole number beyond `maxInteger` needs a point. -/
def ofMagnitude (ordinal : Fin finiteCount) : Numeral :=
  let n := ofDecimal (Decimal.shortest ordinal)
  if n.fraction.isNone && decide (maxInteger * unitsPerOne < units ordinal) then n.pointed else n

theorem ofMagnitude_cases (ordinal : Fin finiteCount) :
    ofMagnitude ordinal = (ofDecimal (Decimal.shortest ordinal)).pointed ∨
      ofMagnitude ordinal = ofDecimal (Decimal.shortest ordinal) ∧
        ((ofMagnitude ordinal).fraction = none → units ordinal ≤ maxInteger * unitsPerOne) := by
  unfold ofMagnitude
  simp only
  split
  · exact .inl rfl
  · rename_i h
    refine .inr ⟨rfl, fun hf => ?_⟩
    rw [hf] at h
    simpa using h

theorem value_ofMagnitude (ordinal : Fin finiteCount) : (ofMagnitude ordinal).value = .finite false ordinal := by
  rw [← Decimal.toBinary64_shortest, ← value_ofDecimal]
  rcases ofMagnitude_cases ordinal with h | ⟨h, -⟩ <;> rw [h]
  exact value_pointed _

theorem isSpelling_ofMagnitude (ordinal : Fin finiteCount) : (ofMagnitude ordinal).isSpelling = true := by
  have := isSpelling_ofDecimal (Decimal.shortest ordinal)
  rcases ofMagnitude_cases ordinal with h | ⟨h, -⟩ <;> rw [h]
  · exact isSpelling_pointed this
  · exact this

theorem lt_of_value_integer {digits : List Char} {ordinal : Fin finiteCount}
    (hv : value ⟨digits, none⟩ = .finite false ordinal) (hu : units ordinal ≤ maxInteger * unitsPerOne) :
    Nat.ofDigitChars 10 digits 0 < 2 ^ 63 := by
  rw [← Nat.not_le]
  intro h
  have hle := pow_le_units_natural h
  rw [value_integer, ofRatio, ofOrdinal] at hv
  split at hv
  · cases hv
    have hlt : maxInteger * unitsPerOne < 2 ^ 63 * unitsPerOne :=
      Nat.mul_lt_mul_of_pos_right (by decide) unitsPerOne_pos
    exact absurd (Nat.le_trans hle hu) (Nat.not_le.mpr hlt)
  · cases hv

theorem isInRange_ofMagnitude (ordinal : Fin finiteCount) : (ofMagnitude ordinal).isInRange = true := by
  have hv := value_ofMagnitude ordinal
  rcases ofMagnitude_cases ordinal with h | ⟨h, hu⟩
  · rw [h]
    rfl
  rw [h] at hv hu ⊢
  obtain ⟨m, k, -, -, h0, ⟨hn, -⟩ | ⟨hn, -⟩ | ⟨hn, -⟩⟩ := ofDecimal_cases (Decimal.shortest ordinal)
  · rw [hn]
    rfl
  · -- only here is there no point; the digits are then those of a whole number without leading zeros
    by_cases hm : m = 0
    · rw [Decimal.shortest_of_coefficient_zero (h0 hm)]
      decide
    · rw [hn] at hv hu ⊢
      rw [← Decimal.toDigits_mul_pow (Nat.pos_of_ne_zero hm)] at hv hu ⊢
      have hlt := lt_of_value_integer hv (hu rfl)
      rw [Nat.ofDigitChars_ten_toDigits] at hlt
      have hlen : (Nat.toDigits 10 (m * 10 ^ k)).length ≤ 19 :=
        (Nat.length_toDigits_le_iff (by decide) (by decide)).mpr (by omega)
      simp only [isInRange, Option.isSome_none, Bool.false_or, Bool.and_eq_true, decide_eq_true_eq,
        Nat.ofDigitChars_ten_toDigits]
      exact ⟨Nat.le_trans hlen (by decide), Nat.le_sub_one_of_lt hlt⟩
  · rw [hn]
    rfl

theorem isWritten_ofMagnitude (ordinal : Fin finiteCount) : (Lexeme.number (ofMagnitude ordinal)).isWritten = true := by
  rw [Lexeme.isWritten, isSpelling_ofMagnitude, isInRange_ofMagnitude]
  rfl

/-! ## Overflow -/

theorem ofDigitChars_power (k : Nat) : Nat.ofDigitChars 10 ('1' :: List.replicate k '0') 0 = 10 ^ k := by
  have hzeros : Nat.ofDigitChars 10 (List.replicate k '0') 1 = 10 ^ k * 1 := Nat.ofDigitChars_replicate_zero
  rw [Nat.mul_one] at hzeros
  exact hzeros

theorem ofRatio_overflows {k : Nat} (h : k = 342) : ofRatio false (10 ^ k) 1 = .infinite false := by
  obtain ⟨places, hplaces, hp⟩ := exists_places
  obtain ⟨exponent, he⟩ : ∃ exponent, exponent = 2046 := ⟨_, rfl⟩
  have hle : places ≤ 52 + exponent := by rw [hplaces, he]; decide
  have hten : 2 ^ (52 + exponent - places) ≤ 10 ^ k := by
    calc 2 ^ (52 + exponent - places) ≤ 2 ^ (3 * k) := Nat.pow_le_pow_right (by decide) (by omega)
      _ = (2 ^ 3) ^ k := Nat.pow_mul 2 3 k
      _ ≤ 10 ^ k := Nat.pow_le_pow_left (by decide) k
  have hpow : 2 ^ (52 + exponent) = 2 ^ (52 + exponent - places) * unitsPerOne := by
    rw [hp, ← Nat.pow_add, Nat.sub_add_cancel hle]
  have hlarge : (exponent + 1) * 2 ^ 52 ≤ nearestOrdinal (10 ^ k * unitsPerOne) 1 := by
    apply pow_le_nearestOrdinal Nat.one_pos
    rw [Nat.one_mul, hpow]
    exact Nat.mul_le_mul_right _ hten
  have hcount : finiteCount ≤ (exponent + 1) * 2 ^ 52 := by rw [he]
  rw [ofRatio, ofOrdinal, dif_neg (Nat.not_lt.mpr (Nat.le_trans hcount hlarge))]

theorem exists_overflowing : ∃ n : Numeral, (Lexeme.number n).isWritten = true ∧ n.value = .infinite false := by
  obtain ⟨k, hk⟩ : ∃ k, k = 342 := ⟨_, rfl⟩
  refine ⟨⟨'1' :: List.replicate k '0', some []⟩, ?_, ?_⟩
  · simp [Lexeme.isWritten, isSpelling, isInRange]
  · have hvalue := ofRatio_overflows hk
    rw [← ofDigitChars_power] at hvalue
    simpa [value, toDecimal, Decimal.toBinary64] using hvalue

end Numeral
end Calculator
