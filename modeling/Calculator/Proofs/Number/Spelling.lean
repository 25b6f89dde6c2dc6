import Calculator.Expr.Parser
import Calculator.Expr.Printer
import Calculator.Proofs.Number.Dump
import Calculator.Proofs.Number.Whole
import Calculator.Proofs.Token.Segmentation

/-!
# Magnitudes in expressions

`numberSource_read_back`: the text of a finite double in an expression is one numeral, behind a minus sign if there is
one, and reading it gives the double back. `fraction_ofMagnitude_iff`: exactly the integers below `2 ^ 63` are written
without a point.
-/

namespace Calculator
open Binary64

namespace Decimal

theorem significantDigits_scale {coefficient : ℕ} (h : 0 < coefficient) (zeros : ℕ) (exponent exponent' : ℤ) :
    significantDigits ⟨coefficient * 10 ^ zeros, exponent⟩ =
      significantDigits ⟨coefficient, exponent'⟩ := by
  unfold significantDigits
  simp only [toDigits_mul_pow h, List.reverse_append, List.reverse_replicate]
  rw [List.dropWhile_append_of_pos (by simp)]

/-! ## The shortest decimal of a whole number -/

theorem leadingExponent_nonneg {ordinal : ℕ} (h : unitsPerOne ≤ units ordinal) : 0 ≤ leadingExponent ordinal := by
  obtain ⟨places, hplaces, hp⟩ := exists_places
  have hne : units ordinal ≠ 0 := Nat.ne_of_gt (Nat.lt_of_lt_of_le unitsPerOne_pos h)
  rw [hp] at h
  have hlog : places ≤ (units ordinal).log2 := (Nat.le_log2 hne).mpr h
  have hbinary : (0 : ℤ) ≤ (units ordinal).log2 - 1074 := by omega
  have hdecimal : (0 : ℤ) ≤ (((units ordinal).log2 - 1074 : ℤ) * 30102).fdiv 100000 :=
    Int.fdiv_nonneg (by omega) (by decide)
  unfold leadingExponent
  simp only [if_pos hbinary]
  split <;> omega

theorem onGrid?_whole {ordinal : Fin finiteCount} {n : ℕ} (h : units ordinal = n * unitsPerOne) :
    onGrid? ordinal 0 = some ⟨n, 0⟩ := by
  have hvalue : toBinary64 ⟨n, 0⟩ = finite false ordinal := by
    have hnearest := nearestOrdinal_units ordinal
    rw [h] at hnearest
    rw [toBinary64, if_pos (Int.le_refl 0), ofRatio]
    simp only [Int.toNat_zero, Nat.pow_zero, Nat.mul_one, hnearest]
    rw [ofOrdinal, dif_pos ordinal.isLt]
  unfold onGrid?
  simp only [gridRatio, Int.le_refl, ↓reduceIte, Int.toNat_zero, Nat.pow_zero, Nat.mul_one]
  rw [h, roundDiv_mul_self n unitsPerOne_pos, List.findSome?_cons_of_isSome] <;> simp [hvalue]

theorem exponent_onGrid? {ordinal : Fin finiteCount} {exponent : ℤ} {d : Decimal}
    (h : onGrid? ordinal exponent = some d) : d.exponent = exponent := by
  unfold onGrid? at h
  simp only at h
  obtain ⟨coefficient, -, hc⟩ := List.exists_of_findSome?_eq_some h
  split at hc
  · cases hc
    rfl
  · cases hc

theorem exists_exact (ordinal : ℕ) : ∃ places : ℕ, unitsPerOne = 2 ^ places ∧
    exact ordinal = ⟨units ordinal * 5 ^ places, -places⟩ :=
  ⟨1074, by rw [unitsPerOne], by rw [exact]; rfl⟩

theorem shortest_whole {ordinal : Fin finiteCount} {n : ℕ} (h : units ordinal = n * unitsPerOne)
    (h0 : ordinal.val ≠ 0) :
    ∃ zeros : ℕ, 10 ^ zeros ∣ (shortest ordinal).coefficient ∧ 0 ≤ (shortest ordinal).exponent + zeros := by
  have hpos : 0 < units ordinal := Nat.pos_of_ne_zero fun hzero => h0 (units_injective (hzero.trans units_zero.symm))
  have hle : unitsPerOne ≤ units ordinal := by
    rw [h] at hpos ⊢
    exact Nat.le_mul_of_pos_left _ (Nat.pos_of_mul_pos_right hpos)
  have hleading := leadingExponent_nonneg hle
  unfold shortest
  rw [if_neg h0]
  simp only
  cases hg : (List.range 17).findSome? fun (k : ℕ) => onGrid? ordinal (leadingExponent ordinal - k) with
  | none =>
    obtain ⟨places, hp, he⟩ := exists_exact ordinal
    rw [Option.getD_none, he]
    refine ⟨places, ⟨n, ?_⟩, by simp only; omega⟩
    rw [h, hp, Nat.mul_assoc, ← Nat.mul_pow, Nat.mul_comm]
  | some d =>
    rw [Option.getD_some]
    refine ⟨0, Nat.one_dvd _, ?_⟩
    obtain ⟨before, k, behind, hrange, hk, hbefore⟩ := List.findSome?_eq_some_iff.mp hg
    rw [List.range_eq_range'] at hrange
    obtain ⟨count, -, rfl, hbehind⟩ := List.range'_eq_append_iff.mp hrange
    obtain ⟨rfl, -⟩ := List.range'_eq_cons_iff.mp hbehind.symm
    have hexponent := exponent_onGrid? hk
    by_contra hneg
    have hnone := hbefore (leadingExponent ordinal).toNat (List.mem_range'_1.mpr ⟨by omega, by omega⟩)
    rw [Int.toNat_of_nonneg hleading, Int.sub_self, onGrid?_whole h] at hnone
    cases hnone

end Decimal

namespace Numeral

/-! ## Where there is a point -/

theorem ofDecimal_scale {coefficient : ℕ} (h : 0 < coefficient) (zeros : ℕ) (exponent : ℤ) :
    ofDecimal ⟨coefficient * 10 ^ zeros, exponent⟩ = ofDecimal ⟨coefficient, exponent + zeros⟩ := by
  have hplace : Decimal.pointPlace ⟨coefficient * 10 ^ zeros, exponent⟩ =
      Decimal.pointPlace ⟨coefficient, exponent + zeros⟩ := by
    unfold Decimal.pointPlace
    simp only [Decimal.toDigits_mul_pow h, List.length_append, List.length_replicate]
    omega
  unfold ofDecimal
  rw [Decimal.significantDigits_scale h zeros exponent (exponent + zeros), hplace]

theorem fraction_of_exponent {d : Decimal} (h : 0 ≤ d.exponent) : (ofDecimal d).fraction = none := by
  obtain ⟨m, zeros, -, hs, hp⟩ := d.exists_significant
  have hpos : 0 < (Nat.toDigits 10 m).length := List.length_pos_of_ne_nil Nat.toDigits_ne_nil
  unfold ofDecimal ofDigits
  simp only [hs, hp]
  rw [if_neg (by omega), if_pos (by omega)]

theorem fraction_shortest {ordinal : Fin finiteCount} {n : ℕ} (h : units ordinal = n * unitsPerOne) :
    (ofDecimal (Decimal.shortest ordinal)).fraction = none := by
  by_cases h0 : (Decimal.shortest ordinal).coefficient = 0
  · rw [Decimal.shortest_of_coefficient_zero h0]
    decide
  have hne : ordinal.val ≠ 0 := fun hz => h0 (by rw [Decimal.shortest, if_pos hz])
  obtain ⟨zeros, ⟨m, hm⟩, he⟩ := Decimal.shortest_whole h hne
  rw [Nat.mul_comm] at hm
  have hd : Decimal.shortest ordinal = ⟨m * 10 ^ zeros, (Decimal.shortest ordinal).exponent⟩ := by rw [← hm]
  have hpos : 0 < m := Nat.pos_of_ne_zero fun hz => h0 (by rw [hm, hz, Nat.zero_mul])
  rw [hd, ofDecimal_scale hpos]
  exact fraction_of_exponent he

theorem toRat?_eq_natCast_iff {ordinal : Fin finiteCount} {n : ℕ} :
    (finite false ordinal).toRat? = some (n : ℚ) ↔ units ordinal = n * unitsPerOne := by
  have hpos : (unitsPerOne : ℚ) ≠ 0 := Nat.cast_ne_zero.mpr (Nat.ne_of_gt unitsPerOne_pos)
  rw [toRat?, if_neg Bool.false_ne_true, Option.some.injEq, div_eq_iff hpos, ← Nat.cast_mul, Nat.cast_inj]

theorem units_of_value {n : Numeral} {ordinal : Fin finiteCount} (hf : n.fraction = none)
    (h : n.value = finite false ordinal) :
    units ordinal = nearestNatural (Nat.ofDigitChars 10 n.whole 0) * unitsPerOne := by
  obtain ⟨whole, fraction⟩ := n
  cases hf
  rw [value_integer, ofRatio, ofOrdinal] at h
  split at h
  · cases h
    exact units_nearestOrdinal _
  · cases h

theorem fraction_ofMagnitude_iff (ordinal : Fin finiteCount) : (ofMagnitude ordinal).fraction = none ↔
    ∃ n : ℕ, (finite false ordinal).toRat? = some (n : ℚ) ∧ n < 2 ^ 63 := by
  simp only [toRat?_eq_natCast_iff]
  constructor
  · intro h
    rcases ofMagnitude_cases ordinal with hn | ⟨-, hle⟩
    · rw [hn] at h
      cases h
    · have hu := units_of_value h (value_ofMagnitude ordinal)
      have hmax := hle h
      rw [hu] at hmax
      exact ⟨_, hu, Nat.lt_of_le_of_lt (Nat.le_of_mul_le_mul_right hmax unitsPerOne_pos) (by decide)⟩
  · rintro ⟨n, hu, hn⟩
    have hmax : units ordinal ≤ maxInteger * unitsPerOne := by
      rw [hu]
      exact Nat.mul_le_mul_right _ (Nat.le_pred_of_lt hn)
    unfold ofMagnitude
    simp only [Nat.not_lt.mpr hmax, decide_false, Bool.and_false]
    exact fraction_shortest hu

theorem whole_ofMagnitude (ordinal : Fin finiteCount) : (ofMagnitude ordinal).whole ≠ [] := by
  rcases ofMagnitude_cases ordinal with h | ⟨h, -⟩ <;> rw [h] <;> exact whole_ofDecimal _

theorem fraction_ofMagnitude {ordinal : Fin finiteCount} {digits : List Char}
    (h : (ofMagnitude ordinal).fraction = some digits) : digits ≠ [] := by
  rcases ofMagnitude_cases ordinal with hn | ⟨hn, -⟩ <;> rw [hn] at h
  · cases hf : (ofDecimal (Decimal.shortest ordinal)).fraction with
    | none =>
      rw [pointed, hf] at h
      cases h
      exact List.cons_ne_nil _ _
    | some digits' =>
      rw [pointed, hf] at h
      cases h
      exact (fraction_ofDigits (Decimal.significantDigits_spec _).1 hf).1
  · exact (fraction_ofDigits (Decimal.significantDigits_spec _).1 h).1

/-! ## The text of a magnitude -/

def AreDigits (cs : List Char) : Prop := cs ≠ [] ∧ ∀ c ∈ cs, c.isDigit = true

theorem text_ofMagnitude (ordinal : Fin finiteCount) :
    (ofMagnitude ordinal).fraction = none ∧ AreDigits (ofMagnitude ordinal).text.toList ∨
      (ofMagnitude ordinal).fraction ≠ none ∧ ¬AreDigits (ofMagnitude ordinal).text.toList ∧
        ∃ whole fraction, (ofMagnitude ordinal).text.toList = whole ++ '.' :: fraction ∧
          AreDigits whole ∧ AreDigits fraction := by
  have hspelling := isSpelling_ofMagnitude ordinal
  have hwhole := whole_ofMagnitude ordinal
  have hfraction := @fraction_ofMagnitude ordinal
  generalize ofMagnitude ordinal = n at *
  obtain ⟨whole, fraction⟩ := n
  rw [text, String.toList_ofList, chars]
  cases fraction with
  | none =>
    simp only [isSpelling, Bool.and_eq_true, List.all_eq_true] at hspelling
    exact .inl ⟨rfl, hwhole, hspelling.1⟩
  | some digits =>
    simp only [isSpelling, Bool.and_eq_true, List.all_eq_true] at hspelling
    have hpoint : ¬AreDigits (whole ++ '.' :: digits) := fun h =>
      absurd (h.2 '.' (List.mem_append_right _ List.mem_cons_self)) (by decide)
    exact .inr ⟨Option.some_ne_none _, hpoint, whole, digits, rfl, ⟨hwhole, hspelling.1⟩, hfraction rfl, hspelling.2.1⟩

end Numeral

/-! ## What is written is read -/

theorem tokens_numeral {n : Numeral} (h : (Lexeme.number n).isWritten = true) :
    tokens n.text = .ok [⟨.number n, 1⟩] := by
  have hseg : Segmentation 1 ((Lexeme.number n).chars ++ []) [⟨.number n, 1⟩] :=
    .lexeme _ h nofun (.done _)
  rw [List.append_nil] at hseg
  exact tokens_eq_ok_iff.mpr hseg

theorem parse_numeral {n : Numeral} (h : (Lexeme.number n).isWritten = true) (limit : ℕ) :
    Expr.parseWithin (limit + 1) n.text = .ok (.number n.value) := by
  rw [Expr.parseWithin, tokens_numeral h]
  rfl

/-- The text of a magnitude is one numeral, read back as that magnitude. It consists of digits alone exactly for an
integer below `2 ^ 63` and has otherwise digits on both sides of a point. -/
theorem numberSource_read_back (ordinal : Fin finiteCount) : ∃ n : Numeral,
    Expr.numberSource (.finite false ordinal) = .ok n.text ∧
    Expr.numberSource (.finite true ordinal) = .ok ("-" ++ n.text) ∧
    tokens n.text = .ok [⟨.number n, 1⟩] ∧ n.value = .finite false ordinal ∧
    (∀ limit, Expr.parseWithin (limit + 1) n.text = .ok (.number (.finite false ordinal))) ∧
    (Numeral.AreDigits n.text.toList ↔ ∃ k : ℕ, (finite false ordinal).toRat? = some (k : ℚ) ∧ k < 2 ^ 63) ∧
    (Numeral.AreDigits n.text.toList ∨ ∃ whole fraction, n.text.toList = whole ++ '.' :: fraction ∧
      Numeral.AreDigits whole ∧ Numeral.AreDigits fraction) := by
  have hwritten := Numeral.isWritten_ofMagnitude ordinal
  have hvalue := Numeral.value_ofMagnitude ordinal
  have hparse := parse_numeral hwritten
  rw [hvalue] at hparse
  have hsource := Expr.numberSource_finite false ordinal
  rw [signText, if_neg Bool.false_ne_true, String.empty_append] at hsource
  refine ⟨Numeral.ofMagnitude ordinal, hsource, Expr.numberSource_finite true ordinal, tokens_numeral hwritten, hvalue,
    hparse, ?_⟩
  rw [← Numeral.fraction_ofMagnitude_iff]
  rcases Numeral.text_ofMagnitude ordinal with ⟨hf, hdigits⟩ | ⟨hf, hdigits, hpoint⟩
  · exact ⟨iff_of_true hdigits hf, .inl hdigits⟩
  · exact ⟨iff_of_false hdigits hf, .inr hpoint⟩

end Calculator
