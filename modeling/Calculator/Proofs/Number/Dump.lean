import Calculator.Expr.Dump
import Calculator.Proofs.Number.Plain
import Mathlib.Data.List.Basic

/-!
# Dumped numbers

`dump_injective`: no two finite doubles are dumped alike. A dump is a sign and, behind it, either a numeral or a
decimal in scientific notation; both tell the magnitude that they were written for.
-/

namespace Calculator

namespace Decimal

theorem filter_mantissa {digits : List Char} (h : ∀ c ∈ digits, c.isDigit = true) :
    (mantissa digits).filter Char.isDigit = digits := by
  unfold mantissa
  split
  · rename_i first second rest
    rw [List.forall_mem_cons, List.forall_mem_cons] at h
    rw [List.filter_cons_of_pos h.1, List.filter_cons_of_neg (by decide), List.filter_cons_of_pos h.2.1,
      List.filter_eq_self.mpr h.2.2]
  · exact List.filter_eq_self.mpr h

/-- The significant digits and the place of the point tell what a decimal denotes. -/
theorem toBinary64_of_digits {d d' : Decimal} (hdigits : d.significantDigits = d'.significantDigits)
    (hplace : d.pointPlace = d'.pointPlace) : d.toBinary64 = d'.toBinary64 := by
  obtain ⟨m, zeros, hm, hs, hp⟩ := d.exists_significant
  obtain ⟨m', zeros', hm', hs', hp'⟩ := d'.exists_significant
  have hvalue : ∀ {d : Decimal} {m zeros : Nat}, d.coefficient = m * 10 ^ zeros →
      d.toBinary64 = toBinary64 ⟨m, d.exponent + zeros⟩ := by
    intro d m zeros h
    rw [← toBinary64_scale, ← h]
  obtain rfl : m = m' := by
    rw [← Nat.ofDigitChars_ten_toDigits (n := m), ← hs, hdigits, hs', Nat.ofDigitChars_ten_toDigits]
  have hexponent : d.exponent + zeros = d'.exponent + zeros' := by omega
  rw [hvalue hm, hvalue hm', hexponent]

theorem toBinary64_of_scientific {d d' : Decimal} (h : d.scientific = d'.scientific) :
    d.toBinary64 = d'.toBinary64 := by
  have hchars := congrArg String.toList h
  rw [toList_scientific, toList_scientific] at hchars
  have hletter : ∀ (c : Char) (n : Nat), c ≠ 'e' → 'e' ∉ c :: exponentDigits n := by
    intro c n hc hmem
    rcases List.mem_cons.mp hmem with he | hdigit
    · exact hc he.symm
    · exact absurd (isDigit_exponentDigits n _ hdigit) (by decide)
  have hsigns : ∀ i : Int, (if i < 0 then '-' else '+') ≠ 'e' := by
    intro i
    split <;> decide
  obtain ⟨hmantissa, -, hbehind⟩ :=
    (List.append_cons_inj_of_notMem d.not_mem_mantissa (hletter _ _ (hsigns _))).mp hchars
  rw [List.cons.injEq] at hbehind
  have habs := exponentDigits_injective hbehind.2
  refine toBinary64_of_digits ?_ ?_
  · rw [← filter_mantissa d.significantDigits_spec.2, hmantissa, filter_mantissa d'.significantDigits_spec.2]
  · have hneg : d.pointPlace - 1 < 0 ↔ d'.pointPlace - 1 < 0 := by
      have hsign := hbehind.1
      split at hsign <;> split at hsign
      · exact ⟨fun _ => ‹_›, fun _ => ‹_›⟩
      · exact absurd hsign (by decide)
      · exact absurd hsign (by decide)
      · exact ⟨fun h => absurd h ‹_›, fun h => absurd h ‹_›⟩
    omega

end Decimal

/-! ## Magnitudes -/

namespace Numeral

theorem spells_whole {n : Numeral} {cs : List Char} (hn : n.pointed.isSpelling = true) (hw : n.whole ≠ [])
    (hc : n.pointed.chars = cs ++ ['.', '0']) :
    pointed ⟨cs, none⟩ = n.pointed ∧ isSpelling ⟨cs, none⟩ = true := by
  simp only [isSpelling, pointed, Bool.and_eq_true, List.all_eq_true] at hn
  have hpoint : ∀ {digits : List Char}, (∀ c ∈ digits, c.isDigit = true) → '.' ∉ digits :=
    fun h hmem => absurd (h _ hmem) (by decide)
  obtain ⟨rfl, -, hfraction⟩ := (List.append_cons_inj_of_notMem (hpoint hn.1) (hpoint hn.2.1)).mp hc
  refine ⟨by rw [pointed, pointed, hfraction]; rfl, ?_⟩
  simp only [isSpelling, Bool.and_eq_true, List.all_eq_true]
  exact ⟨hn.1, by simpa using hw⟩

end Numeral

namespace Binary64

def WritesMagnitude (ordinal : Fin finiteCount) (cs : List Char) : Prop :=
  (∃ n : Numeral, n.isSpelling = true ∧ n.value = .finite false ordinal ∧ cs = n.chars) ∨
    ∃ d : Decimal, d.toBinary64 = .finite false ordinal ∧ cs = d.scientific.toList

namespace WritesMagnitude
variable {ordinal ordinal' : Fin finiteCount} {cs : List Char}

theorem unique (h : WritesMagnitude ordinal cs) (h' : WritesMagnitude ordinal' cs) : ordinal = ordinal' := by
  -- only scientific notation has a letter
  have hletter : ∀ {n : Numeral} {d : Decimal}, n.isSpelling = true → n.chars ≠ d.scientific.toList := by
    intro n d hn heq
    have he : 'e' ∈ n.chars := by
      rw [heq, Decimal.toList_scientific]
      exact List.mem_append_right _ List.mem_cons_self
    exact absurd (Numeral.mem_chars hn he) (by decide)
  have hfinite : finite false ordinal = finite false ordinal' := by
    rcases h with ⟨n, hn, hv, rfl⟩ | ⟨d, hv, rfl⟩ <;> rcases h' with ⟨n', hn', hv', heq⟩ | ⟨d', hv', heq⟩
    · have hsame := (Numeral.ofChars?_chars hn).symm.trans ((congrArg _ heq).trans (Numeral.ofChars?_chars hn'))
      rw [← hv, ← hv', Option.some.inj hsame]
    · exact absurd heq (hletter hn)
    · exact absurd heq.symm (hletter hn')
    · rw [← hv, ← hv', Decimal.toBinary64_of_scientific (String.toList_inj.mp heq)]
  cases hfinite
  rfl

theorem exists_start (h : WritesMagnitude ordinal cs) : ∃ c rest, cs = c :: rest ∧ isNumeralStart c = true := by
  rcases h with ⟨n, hn, -, rfl⟩ | ⟨d, -, rfl⟩
  · obtain ⟨c, rest, hc, -⟩ := Numeral.chars_eq_cons hn
    exact ⟨c, rest, hc, Numeral.isNumeralStart_head hn hc⟩
  · obtain ⟨hne, hdigit⟩ := d.significantDigits_spec
    rw [Decimal.toList_scientific]
    match d.significantDigits, hne, hdigit with
    | [first], _, hdigit => exact ⟨first, _, rfl, by rw [isNumeralStart, hdigit first (by simp), Bool.true_or]⟩
    | first :: _ :: _, _, hdigit =>
      exact ⟨first, _, rfl, by rw [isNumeralStart, hdigit first (by simp), Bool.true_or]⟩

theorem mem_chars (h : WritesMagnitude ordinal cs) {c : Char} (hc : c ∈ cs) :
    isRunChar c = true ∨ c = '-' ∨ c = '+' := by
  rcases h with ⟨n, hn, -, rfl⟩ | ⟨d, -, rfl⟩
  · exact .inl (Numeral.isRunChar_chars hn c hc)
  · rw [Decimal.toList_scientific, List.mem_append, List.mem_cons, List.mem_cons] at hc
    rcases hc with hc | rfl | rfl | hc
    · rcases Decimal.mem_mantissa hc with hdigit | rfl
      · exact .inl (isRunChar_of_isDigit (d.significantDigits_spec.2 c hdigit))
      · exact .inl (by decide)
    · exact .inl (by decide)
    · split
      · exact .inr (.inl rfl)
      · exact .inr (.inr rfl)
    · exact .inl (isRunChar_of_isDigit (Decimal.isDigit_exponentDigits _ c hc))

end WritesMagnitude

theorem writesMagnitude_text (ordinal : Fin finiteCount) {cs : List Char}
    (h : (Decimal.shortest ordinal).text.toList = cs ∨ (Decimal.shortest ordinal).text.toList = cs ++ ['.', '0']) :
    WritesMagnitude ordinal cs := by
  have hv := Decimal.toBinary64_shortest ordinal
  generalize Decimal.shortest ordinal = d at h hv
  rw [Decimal.text] at h
  split at h
  · have hspelling := Numeral.isSpelling_ofDecimal d
    rw [← Numeral.value_ofDecimal d, ← Numeral.value_pointed] at hv
    have hpointed := Numeral.isSpelling_pointed hspelling
    rw [Numeral.text, String.toList_ofList] at h
    rcases h with h | h
    · exact .inl ⟨_, hpointed, hv, h.symm⟩
    · obtain ⟨hcut, hspells⟩ := Numeral.spells_whole hpointed (Numeral.whole_ofDecimal d) h
      exact .inl ⟨⟨cs, none⟩, hspells, by rw [← hv, ← hcut, Numeral.value_pointed], rfl⟩
  · rcases h with h | h
    · exact .inr ⟨d, hv, h.symm⟩
    · exact absurd h (d.scientific_ne _)

theorem dump_finite (negative : Bool) (ordinal : Fin finiteCount) :
    ∃ cs, (dump (finite negative ordinal)).toList = (signText negative).toList ++ cs ∧
      WritesMagnitude ordinal cs := by
  have hcases := cutPointZero_cases (finite negative ordinal).text
  rw [← dump, text, String.toList_append] at hcases
  rcases hcases with h | h
  · exact ⟨_, h, writesMagnitude_text ordinal (.inl rfl)⟩
  · rcases List.append_eq_append_iff.mp h with ⟨cs, hdump, hcs⟩ | ⟨cs, hsign, hcs⟩
    · exact ⟨cs, hdump, writesMagnitude_text ordinal (.inr hcs)⟩
    · -- the point is not among the characters of the sign
      cases cs with
      | nil =>
        rw [List.append_nil] at hsign
        exact ⟨[], by rw [hsign, List.append_nil], writesMagnitude_text ordinal (.inr hcs.symm)⟩
      | cons c cs =>
        obtain rfl : '.' = c := List.head_eq_of_cons_eq hcs
        have hmem : '.' ∈ (signText negative).toList := by rw [hsign]; simp
        cases negative <;> exact absurd hmem (by decide)

theorem mem_dump {negative : Bool} {ordinal : Fin finiteCount} {c : Char}
    (hc : c ∈ (dump (finite negative ordinal)).toList) : isRunChar c = true ∨ c = '-' ∨ c = '+' := by
  obtain ⟨cs, hcs, hw⟩ := dump_finite negative ordinal
  rw [hcs, List.mem_append] at hc
  rcases hc with hc | hc
  · cases negative
    · cases hc
    · exact .inr (.inl (List.mem_singleton.mp hc))
  · exact hw.mem_chars hc

theorem dump_start (negative : Bool) (ordinal : Fin finiteCount) :
    ∃ c cs, (dump (finite negative ordinal)).toList = c :: cs ∧ isNameStart c = false := by
  obtain ⟨cs, hcs, hw⟩ := dump_finite negative ordinal
  obtain ⟨c, rest, rfl, hstart⟩ := hw.exists_start
  cases negative
  · refine ⟨c, rest, hcs, ?_⟩
    rw [← Bool.not_eq_true]
    intro hname
    rw [not_isNumeralStart hname] at hstart
    cases hstart
  · exact ⟨'-', c :: rest, hcs, by decide⟩

theorem dump_injective {negative negative' : Bool} {ordinal ordinal' : Fin finiteCount}
    (h : dump (finite negative ordinal) = dump (finite negative' ordinal')) :
    finite negative ordinal = finite negative' ordinal' := by
  obtain ⟨cs, hcs, hw⟩ := dump_finite negative ordinal
  obtain ⟨cs', hcs', hw'⟩ := dump_finite negative' ordinal'
  rw [h, hcs'] at hcs
  -- a magnitude does not begin with the sign
  have hstart : ∀ {ordinal : Fin finiteCount} {cs : List Char}, WritesMagnitude ordinal ('-' :: cs) → False := by
    intro ordinal cs hw
    obtain ⟨c, rest, hc, hs⟩ := hw.exists_start
    cases hc
    exact absurd hs (by decide)
  cases negative <;> cases negative'
  · cases hcs
    rw [hw.unique hw']
  · cases hcs
    exact (hstart hw).elim
  · cases hcs
    exact (hstart hw').elim
  · cases hcs
    rw [hw.unique hw']

end Binary64
end Calculator
