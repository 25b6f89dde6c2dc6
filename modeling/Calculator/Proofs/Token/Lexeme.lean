import Calculator.Token.Lexer
import Mathlib.Data.List.TakeWhile

/-!
# Reading one lexeme

`read_sound`, `read_complete`: what is read at the start of a text is the lexeme that stands there and that no further
character would prolong. Lexemes are described by their spelling, apart from the reader.
-/

namespace Calculator

/-! ## Spellings -/

def isName (s : String) : Bool :=
  match s.toList with
  | [] => false
  | c :: cs => isNameStart c && cs.all isNameChar

def Numeral.isSpelling (n : Numeral) : Bool :=
  n.whole.all Char.isDigit &&
    match n.fraction with
    | none => !n.whole.isEmpty
    | some digits => digits.all Char.isDigit && !(n.whole.isEmpty && digits.isEmpty)

def Numeral.isInRange (n : Numeral) : Bool :=
  n.fraction.isSome ||
    (decide (n.whole.length ≤ maxIntegerDigits) && decide (Nat.ofDigitChars 10 n.whole 0 ≤ maxInteger))

namespace Lexeme

def isWritten : Lexeme → Bool
  | number n => n.isSpelling && n.isInRange
  | name s => isName s
  | symbol _ => true

def chars (l : Lexeme) : List Char := l.text.toList

/-- The characters that would prolong a lexeme or spoil it. -/
def extends? : Lexeme → Char → Bool
  | number _, c => isRunChar c
  | name _, c => isNameChar c
  | symbol _, _ => false

def StopsAt (l : Lexeme) (rest : List Char) : Prop := ∀ c ∈ rest.head?, l.extends? c = false

@[simp] theorem chars_number (n : Numeral) : (number n).chars = n.chars := by
  simp [chars, text, Numeral.text]

@[simp] theorem chars_name (s : String) : (name s).chars = s.toList := rfl

@[simp] theorem chars_symbol (s : Symbol) : (symbol s).chars = [s.char] := by
  simp [chars, text]

end Lexeme

/-! ## Character classes -/

theorem isDigit_iff {c : Char} : c.isDigit = true ↔ 48 ≤ c.toNat ∧ c.toNat ≤ 57 := by
  simp only [Char.isDigit, Bool.and_eq_true, decide_eq_true_eq, UInt32.le_iff_toNat_le, ge_iff_le]
  rfl

theorem isAlpha_iff {c : Char} :
    c.isAlpha = true ↔ (65 ≤ c.toNat ∧ c.toNat ≤ 90) ∨ (97 ≤ c.toNat ∧ c.toNat ≤ 122) := by
  delta Char.isAlpha Char.isUpper Char.isLower
  simp only [Bool.or_eq_true, Bool.and_eq_true, decide_eq_true_eq, UInt32.le_iff_toNat_le, ge_iff_le]
  rfl

theorem isRunChar_of_isDigit {c : Char} (h : c.isDigit = true) : isRunChar c = true := by
  simp [isRunChar, isNameChar, h]

theorem isRunChar_of_isNumeralStart {c : Char} (h : isNumeralStart c = true) : isRunChar c = true := by
  rw [isNumeralStart, Bool.or_eq_true] at h
  rcases h with hdigit | hpoint
  · exact isRunChar_of_isDigit hdigit
  · rw [isRunChar, hpoint, Bool.or_true]

theorem isRunChar_of_isNameChar {c : Char} (h : isNameChar c = true) : isRunChar c = true := by
  simp [isRunChar, h]

theorem isNameChar_of_isNameStart {c : Char} (h : isNameStart c = true) : isNameChar c = true := by
  simp [isNameChar, h]

theorem not_isNumeralStart {c : Char} (h : isNameStart c = true) : isNumeralStart c = false := by
  rw [isNameStart, Bool.or_eq_true, beq_iff_eq] at h
  rw [isNumeralStart, Bool.or_eq_false_iff]
  rcases h with h | rfl
  · rw [isAlpha_iff] at h
    constructor
    · rw [← Bool.not_eq_true, isDigit_iff]; omega
    · rw [beq_eq_false_iff_ne]
      rintro rfl
      revert h; decide
  · decide

theorem not_isSpace {c : Char} (h : isRunChar c = true) : isSpace c = false := by
  rw [← Bool.not_eq_true]
  intro hs
  simp only [isSpace, Bool.or_eq_true, beq_iff_eq] at hs
  rcases hs with ((rfl | rfl) | rfl) | rfl <;> revert h <;> decide

theorem symbol_char (s : Symbol) :
    isNumeralStart s.char = false ∧ isNameStart s.char = false ∧ isSpace s.char = false ∧
      isRunChar s.char = false := by
  cases s <;> decide

/-! ## Numerals -/

theorem takeWhile_append {p : Char → Bool} {cs : List Char} (rest : List Char) (hc : ∀ c ∈ cs, p c = true)
    (hr : ∀ c ∈ rest.head?, p c = false) :
    (cs ++ rest).takeWhile p = cs ∧ (cs ++ rest).dropWhile p = rest := by
  rw [List.takeWhile_append_of_pos hc, List.dropWhile_append_of_pos hc]
  cases rest with
  | nil => simp
  | cons c rest =>
    have := hr c rfl
    simp [this]

theorem head?_dropWhile (p : Char → Bool) (cs : List Char) : ∀ c ∈ (cs.dropWhile p).head?, p c = false := by
  intro c hc
  have := List.head?_dropWhile_not p cs
  rw [Option.mem_def.mp hc] at this
  simpa using this

namespace Numeral

theorem isRunChar_chars {n : Numeral} (h : n.isSpelling = true) : ∀ c ∈ n.chars, isRunChar c = true := by
  obtain ⟨whole, fraction⟩ := n
  intro c hc
  cases fraction with
  | none =>
    simp only [isSpelling, Bool.and_eq_true, List.all_eq_true] at h
    exact isRunChar_of_isDigit (h.1 c hc)
  | some digits =>
    simp only [isSpelling, Bool.and_eq_true, List.all_eq_true] at h
    simp only [chars, List.mem_append, List.mem_cons] at hc
    rcases hc with hc | rfl | hc
    · exact isRunChar_of_isDigit (h.1 c hc)
    · decide
    · exact isRunChar_of_isDigit (h.2.1 c hc)

theorem ofChars?_chars {n : Numeral} (h : n.isSpelling = true) : ofChars? n.chars = some n := by
  obtain ⟨whole, fraction⟩ := n
  cases fraction with
  | none =>
    simp only [isSpelling, Bool.and_eq_true, List.all_eq_true] at h
    obtain ⟨ht, hd⟩ := takeWhile_append [] h.1 (by simp)
    rw [List.append_nil] at ht hd
    simp only [ofChars?, chars, ht, hd]
    simpa using h.2
  | some digits =>
    simp only [isSpelling, Bool.and_eq_true, List.all_eq_true] at h
    obtain ⟨ht, hd⟩ := takeWhile_append ('.' :: digits) h.1 (by simp)
    simp only [ofChars?, chars, ht, hd]
    rw [if_pos]
    simpa using h.2

theorem ofChars?_eq_some {run : List Char} {n : Numeral} (h : ofChars? run = some n) :
    n.chars = run ∧ n.isSpelling = true := by
  have hw : ∀ c ∈ run.takeWhile Char.isDigit, c.isDigit = true := fun c hc => List.mem_takeWhile_imp hc
  have hrun := List.takeWhile_append_dropWhile (p := Char.isDigit) (l := run)
  unfold ofChars? at h
  simp only at h
  split at h
  · rename_i hd
    split at h
    · cases h
    · rename_i he
      cases h
      rw [hd, List.append_nil] at hrun
      refine ⟨hrun, ?_⟩
      simp only [isSpelling, Bool.and_eq_true, List.all_eq_true]
      exact ⟨hw, by simpa using he⟩
  · rename_i after hd
    split at h
    · rename_i ha
      cases h
      rw [hd] at hrun
      refine ⟨hrun, ?_⟩
      simp only [isSpelling, Bool.and_eq_true, List.all_eq_true] at ha ⊢
      exact ⟨hw, by simpa using ha⟩
    · cases h
  · cases h

theorem check_eq_ok_iff {n : Numeral} {l : Lexeme} : n.check = .ok l ↔ l = .number n ∧ n.isInRange = true := by
  obtain ⟨whole, fraction⟩ := n
  cases fraction with
  | some digits => simp [check, isInRange, eq_comm]
  | none =>
    simp only [check, isInRange, Option.isSome_none, Bool.false_or, Bool.and_eq_true, decide_eq_true_eq]
    split
    · simp; omega
    · split
      · simp; omega
      · simp [eq_comm]; omega

theorem check_eq_error {n : Numeral} {fault : LexicalFault} (h : n.check = .error fault) : n.fraction = none ∧
    (fault = .integerTooLong n.whole.length ∧ maxIntegerDigits < n.whole.length ∨
      fault = .integerOutOfRange n.text ∧ n.whole.length ≤ maxIntegerDigits ∧
        maxInteger < Nat.ofDigitChars 10 n.whole 0) := by
  unfold check at h
  split at h
  · cases h
  · rename_i hfraction
    refine ⟨hfraction, ?_⟩
    split at h
    · rename_i hlong
      cases h
      exact .inl ⟨rfl, hlong⟩
    · rename_i hshort
      split at h
      · rename_i hlarge
        cases h
        exact .inr ⟨rfl, Nat.le_of_not_lt hshort, hlarge⟩
      · cases h

theorem isNumeralStart_head {n : Numeral} (h : n.isSpelling = true) {c : Char} {cs : List Char}
    (hc : n.chars = c :: cs) : isNumeralStart c = true := by
  obtain ⟨whole, fraction⟩ := n
  cases whole with
  | cons d whole =>
    simp only [isSpelling, List.all_cons, Bool.and_eq_true] at h
    have hd : d = c := by
      cases fraction <;> exact List.head_eq_of_cons_eq hc
    rw [isNumeralStart, ← hd, h.1.1, Bool.true_or]
  | nil =>
    cases fraction with
    | none => cases hc
    | some digits =>
      cases hc
      decide

theorem chars_eq_cons {n : Numeral} (h : n.isSpelling = true) : ∃ c cs, n.chars = c :: cs ∧ isSpace c = false := by
  cases hc : n.chars with
  | nil =>
    obtain ⟨_ | _, _ | _⟩ := n <;> simp_all [chars, isSpelling]
  | cons c cs => exact ⟨c, cs, rfl, not_isSpace (isRunChar_chars h c (by simp [hc]))⟩

end Numeral

/-! ## Reading -/

theorem toList_eq_cons {s : String} (h : isName s = true) : ∃ c cs, s.toList = c :: cs ∧ isSpace c = false := by
  unfold isName at h
  split at h
  · cases h
  · rename_i c cs hc
    rw [Bool.and_eq_true] at h
    exact ⟨c, cs, hc, not_isSpace (isRunChar_of_isNameChar (isNameChar_of_isNameStart h.1))⟩

theorem isNameChar_toList {s : String} (h : isName s = true) : ∀ c ∈ s.toList, isNameChar c = true := by
  unfold isName at h
  split at h
  · cases h
  · rename_i c cs hc
    simp only [Bool.and_eq_true, List.all_eq_true] at h
    rw [hc]
    exact List.forall_mem_cons.mpr ⟨isNameChar_of_isNameStart h.1, h.2⟩

namespace Lexeme

theorem isName_takeWhile {c : Char} (h : isNameStart c = true) (rest : List Char) :
    isName (String.ofList ((c :: rest).takeWhile isNameChar)) = true := by
  rw [isName, String.toList_ofList, List.takeWhile_cons_of_pos (isNameChar_of_isNameStart h)]
  simp only [Bool.and_eq_true, List.all_eq_true]
  exact ⟨h, fun c hc => List.mem_takeWhile_imp hc⟩

theorem read_sound {c : Char} {rest : List Char} {l : Lexeme} (h : read c rest = .ok l) :
    l.isWritten = true ∧ ∃ tail, c :: rest = l.chars ++ tail ∧ l.StopsAt tail := by
  unfold read at h
  split at h
  · unfold readNumeral at h
    simp only at h
    split at h
    · rename_i n hn
      obtain ⟨hl, hr⟩ := Numeral.check_eq_ok_iff.mp h
      obtain ⟨hc, hs⟩ := Numeral.ofChars?_eq_some hn
      subst hl
      refine ⟨by simp [isWritten, hs, hr], (c :: rest).dropWhile isRunChar, ?_, head?_dropWhile _ _⟩
      rw [chars_number, hc, List.takeWhile_append_dropWhile]
    · cases h
  · split at h
    · rename_i hc
      cases h
      refine ⟨isName_takeWhile hc rest, (c :: rest).dropWhile isNameChar, ?_, head?_dropWhile _ _⟩
      rw [chars_name, String.toList_ofList, List.takeWhile_append_dropWhile]
    · split at h
      · rename_i s hs
        cases h
        have hc : s.char = c := by simpa using List.find?_some hs
        exact ⟨rfl, rest, by rw [chars_symbol, hc]; rfl, fun _ _ => rfl⟩
      · cases h

theorem read_complete {l : Lexeme} (h : l.isWritten = true) {c : Char} {cs rest : List Char}
    (hc : l.chars = c :: cs) (hs : l.StopsAt rest) : read c (cs ++ rest) = .ok l := by
  cases l with
  | number n =>
    rw [isWritten, Bool.and_eq_true] at h
    rw [chars_number] at hc
    rw [read, if_pos (Numeral.isNumeralStart_head h.1 hc), readNumeral, ← List.cons_append, ← hc,
      (takeWhile_append rest (Numeral.isRunChar_chars h.1) hs).1, Numeral.ofChars?_chars h.1]
    exact Numeral.check_eq_ok_iff.mpr ⟨rfl, h.2⟩
  | name s =>
    rw [chars_name] at hc
    have hall := isNameChar_toList h
    rw [isWritten, isName] at h
    simp only [hc, Bool.and_eq_true] at h hall
    rw [read, not_isNumeralStart h.1, if_neg (by decide), if_pos h.1, ← List.cons_append,
      (takeWhile_append rest hall hs).1, ← hc, String.ofList_toList]
  | symbol s =>
    rw [chars_symbol] at hc
    cases hc
    obtain ⟨hn, hi, -⟩ := symbol_char s
    rw [read, hn, hi, if_neg (by decide), if_neg (by decide), Symbol.ofChar?_char]

theorem chars_eq_cons {l : Lexeme} (h : l.isWritten = true) : ∃ c cs, l.chars = c :: cs ∧ isSpace c = false := by
  cases l with
  | number n =>
    rw [isWritten, Bool.and_eq_true] at h
    rw [chars_number]
    exact Numeral.chars_eq_cons h.1
  | name s => exact toList_eq_cons h
  | symbol s => exact ⟨s.char, [], chars_symbol s, (symbol_char s).2.2.1⟩

end Lexeme

end Calculator
