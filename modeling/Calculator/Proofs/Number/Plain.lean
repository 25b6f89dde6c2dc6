import Calculator.Expr.Printer
import Calculator.Proofs.Number.Numeral
import Mathlib.Data.List.Basic

/-!
# Plain spellings

Numbers are written in expressions without an exponent. `ofScientific_scientific`: spelling out a decimal that is
written with an exponent gives its positional spelling. `numberSource_finite`: so the text of a finite double in an
expression is the numeral of its magnitude, behind a minus sign if there is one.
-/

namespace Calculator

/-! ## Scientific notation -/

namespace Decimal

def mantissa : List Char → List Char
  | first :: second :: rest => first :: '.' :: second :: rest
  | short => short

def exponentDigits (n : Nat) : List Char :=
  List.replicate (2 - (Nat.toDigits 10 n).length) '0' ++ Nat.toDigits 10 n

theorem toList_scientific (d : Decimal) : d.scientific.toList = mantissa d.significantDigits ++
    'e' :: (if d.pointPlace - 1 < 0 then '-' else '+') :: exponentDigits (d.pointPlace - 1).natAbs := by
  rw [scientific, String.toList_ofList]
  rfl

theorem isDigit_exponentDigits (n : Nat) : ∀ c ∈ exponentDigits n, c.isDigit = true :=
  List.forall_mem_append.mpr ⟨Numeral.isDigit_zeros _, Numeral.isDigit_toDigits n⟩

theorem ofDigitChars_exponentDigits (n : Nat) : Nat.ofDigitChars 10 (exponentDigits n) 0 = n := by
  rw [exponentDigits, Nat.ofDigitChars_append, Nat.ofDigitChars_replicate_zero, Nat.mul_zero,
    Nat.ofDigitChars_ten_toDigits]

theorem exponentDigits_injective {m n : Nat} (h : exponentDigits m = exponentDigits n) : m = n := by
  rw [← ofDigitChars_exponentDigits m, h, ofDigitChars_exponentDigits]

theorem length_exponentDigits (n : Nat) : 2 ≤ (exponentDigits n).length := by
  rw [exponentDigits, List.length_append, List.length_replicate]
  omega

theorem significantDigits_spec (d : Decimal) :
    d.significantDigits ≠ [] ∧ ∀ c ∈ d.significantDigits, c.isDigit = true := by
  obtain ⟨m, -, -, hs, -⟩ := d.exists_significant
  rw [hs]
  exact ⟨Nat.toDigits_ne_nil, Numeral.isDigit_toDigits m⟩

theorem mem_mantissa {digits : List Char} {c : Char} (h : c ∈ mantissa digits) : c ∈ digits ∨ c = '.' := by
  unfold mantissa at h
  split at h
  · rw [List.mem_cons, List.mem_cons] at h
    rcases h with rfl | rfl | h
    · exact .inl List.mem_cons_self
    · exact .inr rfl
    · exact .inl (List.mem_cons_of_mem _ h)
  · exact .inl h

theorem not_mem_mantissa (d : Decimal) : 'e' ∉ mantissa d.significantDigits := by
  intro h
  rcases mem_mantissa h with hdigit | hpoint
  · exact absurd (d.significantDigits_spec.2 _ hdigit) (by decide)
  · exact absurd hpoint (by decide)

/-- An exponent has two digits at least, so no `.0` stands at the end. -/
theorem scientific_ne (d : Decimal) (cs : List Char) : d.scientific.toList ≠ cs ++ ['.', '0'] := by
  intro h
  rw [toList_scientific, ← List.singleton_append, ← List.append_assoc, List.append_cons] at h
  have hsuffix := List.suffix_of_suffix_length_le ⟨cs, rfl⟩ ⟨_, h⟩ (length_exponentDigits _)
  exact absurd (isDigit_exponentDigits _ _ (hsuffix.mem (by simp : '.' ∈ ['.', '0']))) (by decide)

theorem exponentValue_cons (i : Int) :
    exponentValue ((if i < 0 then '-' else '+') :: exponentDigits i.natAbs) = i := by
  split
  · rw [exponentValue, ofDigitChars_exponentDigits]
    omega
  · rw [exponentValue, ofDigitChars_exponentDigits]
    · omega
    · decide

end Decimal

namespace Numeral

theorem ofDigits_mantissa {digits : List Char} (hne : digits ≠ []) (hd : ∀ c ∈ digits, c.isDigit = true)
    (exponent : Int) :
    ofDigits ((Decimal.mantissa digits).takeWhile (· != '.') ++ ((Decimal.mantissa digits).dropWhile (· != '.')).drop 1)
        (((Decimal.mantissa digits).takeWhile (· != '.')).length + exponent) = ofDigits digits (1 + exponent) := by
  have hpoint : ∀ c ∈ digits, (c != '.') = true := by
    intro c hc
    rw [bne_iff_ne]
    rintro rfl
    exact absurd (hd _ hc) (by decide)
  match digits, hne with
  | [first], _ =>
    have hfirst := hpoint first (by simp)
    simp [Decimal.mantissa, hfirst]
  | first :: second :: rest, _ =>
    have hfirst := hpoint first (by simp)
    simp [Decimal.mantissa, hfirst]

theorem ofScientific_scientific (d : Decimal) : ofScientific d.scientific.toList = ofDecimal d := by
  have hmantissa : ∀ c ∈ Decimal.mantissa d.significantDigits, (c != 'e') = true := by
    intro c hc
    rw [bne_iff_ne]
    rintro rfl
    exact d.not_mem_mantissa hc
  obtain ⟨hne, hdigits⟩ := d.significantDigits_spec
  rw [ofScientific, Decimal.toList_scientific, List.takeWhile_append_of_pos hmantissa,
    List.dropWhile_append_of_pos hmantissa, List.takeWhile_cons_of_neg (by decide),
    List.dropWhile_cons_of_neg (by decide), List.append_nil]
  simp only [List.drop_succ_cons, List.drop_zero, Decimal.exponentValue_cons]
  rw [ofDigits_mantissa hne hdigits, ofDecimal]
  congr 1
  omega

theorem mem_chars {n : Numeral} (h : n.isSpelling = true) {c : Char} (hc : c ∈ n.chars) :
    isNumeralStart c = true := by
  obtain ⟨whole, fraction⟩ := n
  rw [isNumeralStart, Bool.or_eq_true, beq_iff_eq]
  cases fraction with
  | none =>
    simp only [isSpelling, Bool.and_eq_true, List.all_eq_true] at h
    exact .inl (h.1 c hc)
  | some digits =>
    simp only [isSpelling, Bool.and_eq_true, List.all_eq_true] at h
    rw [chars, List.mem_append, List.mem_cons] at hc
    rcases hc with hc | rfl | hc
    · exact .inl (h.1 c hc)
    · exact .inr rfl
    · exact .inl (h.2.1 c hc)

theorem whole_ofDecimal (d : Decimal) : (ofDecimal d).whole ≠ [] := by
  obtain ⟨m, k, -, -, -, ⟨hn, -⟩ | ⟨hn, -⟩ | ⟨hn, hk, -⟩⟩ := ofDecimal_cases d <;> rw [hn]
  · exact List.cons_ne_nil _ _
  · exact List.append_ne_nil_of_left_ne_nil Nat.toDigits_ne_nil _
  · simpa using Nat.ne_of_gt hk

/-! ## Points and zeros -/

theorem contains_point {n : Numeral} (h : n.isSpelling = true) : n.text.toList.contains '.' = n.fraction.isSome := by
  obtain ⟨whole, fraction⟩ := n
  rw [text, String.toList_ofList, chars]
  cases fraction with
  | some digits => simp
  | none =>
    simp only [isSpelling, Bool.and_eq_true, List.all_eq_true] at h
    simp only [Option.isSome_none, List.contains_eq_mem, decide_eq_false_iff_not]
    exact fun hc => absurd (h.1 _ hc) (by decide)

theorem not_contains_letter {n : Numeral} (h : n.isSpelling = true) : n.text.toList.contains 'e' = false := by
  rw [text, String.toList_ofList, List.contains_eq_mem, decide_eq_false_iff_not]
  exact fun hc => absurd (mem_chars h hc) (by decide)

theorem chars_ne {n : Numeral} (h : n.isSpelling = true) (hf : n.fraction ≠ some ['0']) (cs : List Char) :
    n.chars ≠ cs ++ ['.', '0'] := by
  have hpoint : ∀ {digits : List Char}, (∀ c ∈ digits, c.isDigit = true) → '.' ∉ digits :=
    fun h hmem => absurd (h _ hmem) (by decide)
  obtain ⟨whole, fraction⟩ := n
  cases fraction with
  | none =>
    simp only [isSpelling, Bool.and_eq_true, List.all_eq_true] at h
    intro hc
    have hwhole : whole = cs ++ ['.', '0'] := hc
    exact hpoint h.1 (by simp [hwhole])
  | some digits =>
    simp only [isSpelling, Bool.and_eq_true, List.all_eq_true] at h
    intro hc
    obtain ⟨-, -, hdigits⟩ := (List.append_cons_inj_of_notMem (hpoint h.1) (hpoint h.2.1)).mp hc
    exact hf (congrArg some hdigits)

theorem fraction_ofDigits {digits cs : List Char} {place : Int} (hne : digits ≠ [])
    (h : (ofDigits digits place).fraction = some cs) : cs ≠ [] ∧ cs.getLast? = digits.getLast? := by
  unfold ofDigits at h
  split at h
  · cases h
    exact ⟨List.append_ne_nil_of_right_ne_nil _ hne, by rw [List.getLast?_append_of_ne_nil _ hne]⟩
  · split at h
    · cases h
    · rename_i hshort
      cases h
      have hdrop : digits.drop place.toNat ≠ [] := by rwa [Ne, List.drop_eq_nil_iff]
      refine ⟨hdrop, ?_⟩
      rw [List.getLast?_drop, if_neg hshort]

/-- The shortest decimal has no zero for its last digit behind the point. -/
theorem fraction_shortest_ne (ordinal : Fin finiteCount) :
    (ofDecimal (Decimal.shortest ordinal)).fraction ≠ some ['0'] := by
  by_cases h0 : (Decimal.shortest ordinal).coefficient = 0
  · rw [Decimal.shortest_of_coefficient_zero h0]
    decide
  · intro hf
    obtain ⟨-, hlast⟩ := fraction_ofDigits (Decimal.significantDigits_spec _).1 hf
    exact Decimal.getLast?_significantDigits h0 hlast.symm

end Numeral

/-! ## Leaving a `.0` out -/

theorem cutPointZero_append (cs : List Char) : cutPointZero (String.ofList (cs ++ ['.', '0'])) = String.ofList cs := by
  simp [cutPointZero]

theorem cutPointZero_cases (text : String) :
    (cutPointZero text).toList = text.toList ∨ text.toList = (cutPointZero text).toList ++ ['.', '0'] := by
  unfold cutPointZero
  split
  · rename_i rest h
    right
    rw [String.toList_ofList, ← List.reverse_inj, h]
    simp
  · exact .inl rfl

theorem cutPointZero_numeral {n : Numeral} (h : n.isSpelling = true) (hf : n.fraction ≠ some ['0']) :
    cutPointZero n.text = n.text := by
  rcases cutPointZero_cases n.text with hsame | hcut
  · exact String.toList_inj.mp hsame
  · rw [Numeral.text, String.toList_ofList] at hcut
    exact absurd hcut (Numeral.chars_ne h hf _)

theorem cutPointZero_pointed {n : Numeral} (h : n.isSpelling = true) (hf : n.fraction ≠ some ['0']) :
    cutPointZero n.pointed.text = n.text := by
  obtain ⟨whole, fraction⟩ := n
  cases fraction with
  | none => exact cutPointZero_append whole
  | some digits => exact cutPointZero_numeral h hf

/-! ## Numbers in expressions -/

namespace Expr
open Binary64

theorem magnitudeSource_finite (ordinal : Fin finiteCount) :
    magnitudeSource (.finite false ordinal) = (Numeral.ofMagnitude ordinal).text := by
  have hf := Numeral.fraction_shortest_ne ordinal
  have hd := Numeral.isSpelling_ofDecimal (Decimal.shortest ordinal)
  have hshort : cutPointZero (if (Decimal.shortest ordinal).text.toList.contains 'e' then
      (Numeral.ofScientific (Decimal.shortest ordinal).text.toList).text else (Decimal.shortest ordinal).text) =
      (Numeral.ofDecimal (Decimal.shortest ordinal)).text := by
    unfold Decimal.text
    split
    · rw [Numeral.not_contains_letter (Numeral.isSpelling_pointed hd), if_neg Bool.false_ne_true]
      exact cutPointZero_pointed hd hf
    · rw [if_pos (by simp [Decimal.toList_scientific]), Numeral.ofScientific_scientific]
      exact cutPointZero_numeral hd hf
  have htext : (finite false ordinal).text = (Decimal.shortest ordinal).text := String.empty_append
  unfold magnitudeSource Numeral.ofMagnitude
  rw [htext]
  simp only [hshort, Numeral.contains_point hd, exceeds]
  generalize Numeral.ofDecimal (Decimal.shortest ordinal) = n
  obtain ⟨whole, fraction⟩ := n
  cases fraction with
  | some digits => rfl
  | none =>
    simp only [Option.isSome_none, Bool.not_false, Option.isNone_none, Bool.true_and]
    split
    · rw [← String.toList_inj]
      simp [Numeral.text, Numeral.chars, Numeral.pointed]
    · rfl

theorem numberSource_finite (negative : Bool) (ordinal : Fin finiteCount) :
    numberSource (.finite negative ordinal) = .ok (signText negative ++ (Numeral.ofMagnitude ordinal).text) := by
  cases negative with
  | true => exact congrArg (fun text => Except.ok ("-" ++ text)) (magnitudeSource_finite ordinal)
  | false =>
    rw [signText, if_neg Bool.false_ne_true, String.empty_append]
    exact congrArg Except.ok (magnitudeSource_finite ordinal)

end Expr
end Calculator
