import Calculator.Decimal.Layout
import Calculator.Proofs.Number.Numeral
import Calculator.Proofs.Token.LetterCase
import Calculator.Text.LetterCase
import Calculator.Text.Lines
import Calculator.Text.Quoted
import Mathlib.Tactic.SplitIfs

/-!
# Texts on one line

No character ends a line in a quoted text, a number or a name. `lines_joined`: texts on one line each, written with a
newline behind each, are the lines of what is written.
-/

namespace Calculator.Text

def endsLine (c : Char) : Bool := c == '\n' || c == '\r'

def Unbroken (cs : List Char) : Prop := ∀ c ∈ cs, endsLine c = false

def IsOneLine (s : String) : Prop := Unbroken s.toList

-- by name, since the search may find an instance that runs over all characters there are
instance (cs : List Char) : Decidable (Unbroken cs) := List.decidableBAll _ cs

instance (s : String) : Decidable (IsOneLine s) := inferInstanceAs (Decidable (Unbroken s.toList))

@[simp] theorem unbroken_nil : Unbroken [] := fun _ h => by cases h

@[simp] theorem unbroken_cons {c : Char} {cs : List Char} : Unbroken (c :: cs) ↔ endsLine c = false ∧ Unbroken cs :=
  List.forall_mem_cons

@[simp] theorem unbroken_append {cs ds : List Char} : Unbroken (cs ++ ds) ↔ Unbroken cs ∧ Unbroken ds :=
  List.forall_mem_append

theorem Unbroken.mono {cs ds : List Char} (h : Unbroken ds) (hsub : cs ⊆ ds) : Unbroken cs := fun c hc => h c (hsub hc)

@[simp] theorem unbroken_reverse {cs : List Char} : Unbroken cs.reverse ↔ Unbroken cs := by simp [Unbroken]

theorem unbroken_replicate {c : Char} (h : endsLine c = false) (n : Nat) : Unbroken (List.replicate n c) := by
  intro d hd
  rw [List.eq_of_mem_replicate hd, h]

@[simp] theorem isOneLine_ofList {cs : List Char} : IsOneLine (String.ofList cs) ↔ Unbroken cs := by
  rw [IsOneLine, String.toList_ofList]

@[simp] theorem isOneLine_append {s t : String} : IsOneLine (s ++ t) ↔ IsOneLine s ∧ IsOneLine t := by
  simp [IsOneLine]

theorem isOneLine_intercalate {separator : String} (h : IsOneLine separator) : ∀ {texts : List String},
    (∀ s ∈ texts, IsOneLine s) → IsOneLine (String.intercalate separator texts)
  | [], _ => by
    rw [String.intercalate_nil]
    decide
  | [s], hs => by
    rw [String.intercalate_singleton]
    exact hs s (List.mem_singleton_self s)
  | s :: t :: texts, hs => by
    rw [List.forall_mem_cons] at hs
    rw [String.intercalate_cons_cons, isOneLine_append, isOneLine_append]
    exact ⟨⟨hs.1, h⟩, isOneLine_intercalate h hs.2⟩

/-! ## Numbers -/

theorem endsLine_of_isRunChar {c : Char} (h : isRunChar c = true) : endsLine c = false := by
  have := not_isSpace h
  simp_all [isSpace, endsLine]

theorem unbroken_of_isRunChar {cs : List Char} (h : ∀ c ∈ cs, isRunChar c = true) : Unbroken cs :=
  fun c hc => endsLine_of_isRunChar (h c hc)

theorem endsLine_digitChar : ∀ digit < 16, endsLine digit.digitChar = false := by decide

theorem unbroken_toDigits {base : Nat} (hb : 1 < base ∧ base ≤ 16) (n : Nat) : Unbroken (Nat.toDigits base n) := by
  induction n using Nat.strongRecOn with
  | ind n ih =>
    rw [Nat.toDigits_eq_if hb.1]
    split
    · have hdigit := endsLine_digitChar n (by omega)
      simp [hdigit]
    · have hlt : n / base < n := Nat.div_lt_self (by omega) hb.1
      have hmod : n % base < base := Nat.mod_lt n (by omega)
      have hdigit := endsLine_digitChar (n % base) (by omega)
      simp [ih _ hlt, hdigit]

theorem isOneLine_nat (n : Nat) : IsOneLine (toString n) := by
  rw [Nat.toString_eq_ofList_toDigits, isOneLine_ofList]
  exact unbroken_toDigits (by decide) n

theorem isOneLine_int (i : Int) : IsOneLine (toString i) := by
  cases i with
  | ofNat n => exact isOneLine_nat n
  | negSucc n => exact isOneLine_append.mpr ⟨by decide, isOneLine_nat _⟩

theorem isOneLine_numeral {n : Numeral} (h : n.isSpelling = true) : IsOneLine n.text :=
  isOneLine_ofList.mpr (unbroken_of_isRunChar (Numeral.isRunChar_chars h))

theorem unbroken_significantDigits (d : Decimal) : Unbroken d.significantDigits := by
  have hdigits := unbroken_toDigits (by decide : 1 < 10 ∧ 10 ≤ 16) d.coefficient
  unfold Decimal.significantDigits
  simp only
  split
  · decide
  · refine unbroken_reverse.mpr (Unbroken.mono ?_ (List.dropWhile_sublist _).subset)
    exact unbroken_reverse.mpr hdigits

theorem isOneLine_scientific (d : Decimal) : IsOneLine d.scientific := by
  have hmantissa := unbroken_significantDigits d
  have hexponent := unbroken_toDigits (by decide : 1 < 10 ∧ 10 ≤ 16) (d.pointPlace - 1).natAbs
  have hzeros := unbroken_replicate (by decide : endsLine '0' = false)
  unfold Decimal.scientific
  simp only [isOneLine_ofList, unbroken_append, unbroken_cons]
  refine ⟨?_, by decide, by split <;> decide, hzeros _, hexponent⟩
  split
  · rename_i first second rest h
    rw [h] at hmantissa
    simp only [unbroken_cons] at hmantissa ⊢
    exact ⟨hmantissa.1, by decide, hmantissa.2⟩
  · exact hmantissa

theorem isOneLine_decimal (d : Decimal) : IsOneLine d.text := by
  unfold Decimal.text
  split
  · exact isOneLine_numeral (Numeral.isSpelling_pointed (Numeral.isSpelling_ofDecimal d))
  · exact isOneLine_scientific d

theorem isOneLine_signText (negative : Bool) : IsOneLine (Binary64.signText negative) := by
  cases negative <;> decide

theorem isOneLine_text (x : Binary64) : IsOneLine x.text := by
  cases x with
  | nan => decide
  | infinite negative => cases negative <;> decide
  | finite negative ordinal => exact isOneLine_append.mpr ⟨isOneLine_signText negative, isOneLine_decimal _⟩

theorem isOneLine_fixedNumeral (places ordinal : Nat) : IsOneLine (Binary64.fixedNumeral places ordinal).text := by
  have hzeros := unbroken_replicate (by decide : endsLine '0' = false)
  obtain ⟨padded, cut, zeros, hp, hn⟩ : ∃ padded cut zeros, Unbroken padded ∧ Binary64.fixedNumeral places ordinal =
      ⟨padded.take cut, if places = 0 then none else some (padded.drop cut ++ List.replicate zeros '0')⟩ :=
    ⟨_, _, _, unbroken_append.mpr ⟨hzeros _, unbroken_toDigits (by decide) _⟩, rfl⟩
  have hwhole : Unbroken (padded.take cut) := hp.mono (List.take_subset ..)
  have hfraction : Unbroken (padded.drop cut) := hp.mono (List.drop_subset ..)
  rw [hn, Numeral.text, isOneLine_ofList, Numeral.chars]
  by_cases hplaces : places = 0
  · rw [if_pos hplaces]
    exact hwhole
  · rw [if_neg hplaces]
    simp only [unbroken_append, unbroken_cons]
    exact ⟨hwhole, by decide, hfraction, hzeros _⟩

theorem isOneLine_fixed (places : Nat) (x : Binary64) : IsOneLine (x.fixed places) := by
  cases x with
  | nan => exact isOneLine_text .nan
  | infinite negative => exact isOneLine_text (.infinite negative)
  | finite negative ordinal => exact isOneLine_append.mpr ⟨isOneLine_signText negative, isOneLine_fixedNumeral _ _⟩

/-! ## Names and quoted texts -/

theorem isOneLine_name {n : String} (h : isName n = true) : IsOneLine n :=
  unbroken_of_isRunChar fun c hc => isRunChar_of_isNameChar (isNameChar_toList h c hc)

theorem lowerFrom_ascii : ∀ (cs before lowered : List Char), (∀ c ∈ cs, c.toNat < 128) →
    lowerFrom before lowered cs = lowered.reverse ++ cs.map Char.toLower
  | [], _, _, _ => by simp [lowerFrom]
  | c :: cs, before, lowered, h => by
    rw [List.forall_mem_cons] at h
    rw [lowerFrom, lowerFrom_ascii cs _ _ h.2, lowerAt, if_pos h.1]
    simp

theorem toNat_lt_of_isNameChar {c : Char} (h : isNameChar c = true) : c.toNat < 128 := by
  simp only [isNameChar, isNameStart, Bool.or_eq_true, beq_iff_eq, isAlpha_iff, isDigit_iff] at h
  rcases h with (h | rfl) | h
  · omega
  · decide
  · omega

theorem isOneLine_lower {n : String} (h : isName n = true) : IsOneLine (lower n) := by
  have hchars := isNameChar_toList h
  rw [lower, isOneLine_ofList, lowerFrom_ascii _ _ _ fun c hc => toNat_lt_of_isNameChar (hchars c hc)]
  intro c hc
  obtain ⟨d, hd, rfl⟩ := List.mem_map.mp hc
  apply endsLine_of_isRunChar
  rw [isRunChar_toLower]
  exact isRunChar_of_isNameChar (hchars d hd)

theorem unbroken_hex (width n : Nat) : Unbroken (hex width n) := by
  rw [hex, unbroken_append]
  exact ⟨unbroken_replicate (by decide) _, unbroken_toDigits (by decide) n⟩

theorem unbroken_escape {quote : Char} (hq : endsLine quote = false) (c : Char) : Unbroken (escape quote c) := by
  have hbackslash : endsLine '\\' = false := rfl
  have numbered : ∀ letter width, endsLine letter = false → Unbroken ('\\' :: letter :: hex width c.toNat) :=
    fun letter width h => by simp [h, hbackslash, unbroken_hex]
  unfold escape
  split_ifs with hescaped htab hnewline hreturn hprintable hshort hmiddle
  · rcases hescaped with rfl | rfl
    · simp [hq, hbackslash]
    · decide
  · decide
  · decide
  · decide
  · simp [endsLine, hnewline, hreturn]
  · exact numbered 'x' 2 rfl
  · exact numbered 'u' 4 rfl
  · exact numbered 'U' 8 rfl

theorem isOneLine_quoted (s : String) : IsOneLine (quoted s) := by
  have hq : endsLine (quoteFor s.toList) = false := by
    unfold quoteFor
    split <;> rfl
  rw [quoted, isOneLine_ofList, quotedChars]
  simp only [unbroken_cons, unbroken_append, hq, unbroken_nil, true_and, and_true]
  intro c hc
  obtain ⟨d, -, hd⟩ := List.mem_flatMap.mp hc
  exact unbroken_escape hq d c hd

/-! ## Lines of what is written -/

theorem linesFrom_unbroken (rest : List Char) : ∀ {cs : List Char}, Unbroken cs → ∀ ended begun,
    linesFrom ended begun (cs ++ '\n' :: rest) = linesFrom ((begun.reverse ++ cs) :: ended) [] rest
  | [], _, ended, begun => by
    rw [List.nil_append, List.append_nil, linesFrom, if_pos (.inl rfl)]
    simp
  | c :: cs, h, ended, begun => by
    obtain ⟨hc, hcs⟩ := unbroken_cons.mp h
    simp only [endsLine, Bool.or_eq_false_iff, beq_eq_false_iff_ne] at hc
    rw [List.cons_append, linesFrom, if_neg (by simp [hc]), linesFrom_unbroken rest hcs]
    · simp
    · simp [hc]

theorem linesFrom_joined : ∀ {texts : List String}, (∀ s ∈ texts, IsOneLine s) → ∀ ended,
    linesFrom ended [] (String.join (texts.map (· ++ "\n"))).toList = ended.reverse ++ texts.map String.toList
  | [], _, ended => by simp [linesFrom]
  | s :: texts, h, ended => by
    rw [List.forall_mem_cons] at h
    have hsplit : ∀ t : String, (s ++ "\n" ++ t).toList = s.toList ++ '\n' :: t.toList := by simp
    rw [List.map_cons, String.join_cons, hsplit, linesFrom_unbroken _ h.1, linesFrom_joined h.2]
    simp

theorem lines_joined {texts : List String} (h : ∀ s ∈ texts, IsOneLine s) :
    lines (String.join (texts.map (· ++ "\n"))).toList = texts.map String.toList :=
  linesFrom_joined h []

end Calculator.Text
