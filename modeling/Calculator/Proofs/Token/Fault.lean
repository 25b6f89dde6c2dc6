import Calculator.Proofs.Token.Segmentation

/-!
# Where no lexeme can be read

`Lexeme.unreadable_of_read`: the four reasons why none can be read. `tokens_eq_error_iff`: the fault of a text is that
of the first place, reached past blanks and lexemes, at which none can be read. `tokens_tooLong_iff`: when that fault is
an integer that is too long to be converted.
-/

namespace Calculator

/-! ## Reasons -/

namespace Lexeme

/-- Why no lexeme can be read, by the character that stands there and the run of characters that begins with it. -/
inductive Unreadable (c : Char) (run : List Char) : LexicalFault → Prop
  | tooLong (start : isNumeralStart c = true) (digits : ∀ d ∈ run, d.isDigit = true)
      (long : maxIntegerDigits < run.length) : Unreadable c run (.integerTooLong run.length)
  | tooLarge (start : isNumeralStart c = true) (digits : ∀ d ∈ run, d.isDigit = true)
      (short : run.length ≤ maxIntegerDigits) (large : maxInteger < Nat.ofDigitChars 10 run 0) :
      Unreadable c run (.integerOutOfRange (String.ofList run))
  | malformed (start : isNumeralStart c = true) (noNumeral : Numeral.ofChars? run = none) :
      Unreadable c run (.malformedNumber (String.ofList (malformedText run)))
  | alien (noNumeral : isNumeralStart c = false) (noName : isNameStart c = false)
      (noSymbol : Symbol.ofChar? c = none) : Unreadable c run (.unexpectedCharacter c)

theorem unreadable_of_readNumeral {c : Char} {rest : List Char} (hc : isNumeralStart c = true) {fault : LexicalFault}
    (h : readNumeral (c :: rest) = .error fault) : Unreadable c ((c :: rest).takeWhile isRunChar) fault := by
  unfold readNumeral at h
  simp only at h
  split at h
  · rename_i n hn
    obtain ⟨hchars, hspelling⟩ := Numeral.ofChars?_eq_some hn
    obtain ⟨hfraction, hfault⟩ := Numeral.check_eq_error h
    obtain ⟨whole, fraction⟩ := n
    obtain rfl : fraction = none := hfraction
    simp only [Numeral.isSpelling, Bool.and_eq_true, List.all_eq_true] at hspelling
    rw [← hchars]
    rcases hfault with ⟨rfl, hlong⟩ | ⟨rfl, hshort, hlarge⟩
    · exact .tooLong hc hspelling.1 hlong
    · exact .tooLarge hc hspelling.1 hshort hlarge
  · rename_i hnone
    cases h
    exact .malformed hc hnone

theorem unreadable_of_read {c : Char} {rest : List Char} {fault : LexicalFault} (h : read c rest = .error fault) :
    Unreadable c ((c :: rest).takeWhile isRunChar) fault := by
  unfold read at h
  split at h
  · rename_i hc
    exact unreadable_of_readNumeral hc h
  · rename_i hnumeral
    split at h
    · cases h
    · rename_i hname
      split at h
      · cases h
      · rename_i hsymbol
        cases h
        exact .alien (Bool.eq_false_iff.mpr hnumeral) (Bool.eq_false_iff.mpr hname) hsymbol

end Lexeme

/-! ## Reaching a place -/

/-- Blanks and whole lexemes lie between two places of a text, each given with what is ahead of it. -/
inductive Reaches : Nat → List Char → Nat → List Char → Prop
  | here (column : Nat) (cs : List Char) : Reaches column cs column cs
  | blank {column k : Nat} {c : Char} {cs ahead : List Char} (space : isSpace c = true)
      (rest : Reaches (column + 1) cs k ahead) : Reaches column (c :: cs) k ahead
  | lexeme {column k : Nat} (l : Lexeme) {cs ahead : List Char} (written : l.isWritten = true) (stops : l.StopsAt cs)
      (rest : Reaches (column + l.chars.length) cs k ahead) : Reaches column (l.chars ++ cs) k ahead

theorem Reaches.length_eq {column k : Nat} {cs ahead : List Char} (h : Reaches column cs k ahead) :
    k + ahead.length = column + cs.length ∧ column ≤ k := by
  induction h with
  | here column cs => exact ⟨rfl, Nat.le_refl _⟩
  | blank space _ ih =>
    rw [List.length_cons]
    omega
  | lexeme l written stops _ ih =>
    rw [List.length_append]
    omega

/-! ## The fault of a text -/

theorem Reaches.tokensFrom_eq {column k : Nat} {cs ahead : List Char} (h : Reaches column cs k ahead) :
    ∀ read : List Token, ∃ read', tokensFrom read column 0 cs = tokensFrom read' k 0 ahead := by
  induction h with
  | here column cs => exact fun read => ⟨read, rfl⟩
  | blank space _ ih =>
    intro read
    rw [tokensFrom, if_pos space]
    exact ih read
  | lexeme l written stops _ ih =>
    intro read
    rw [tokensFrom_lexeme written stops]
    exact ih _

theorem tokensFrom_fault (cs : List Char) : ∀ {read : List Token} {column : Nat} {e : LexicalError},
    tokensFrom read column 0 cs = .error e →
    ∃ c rest, Reaches column cs e.column (c :: rest) ∧ isSpace c = false ∧ Lexeme.read c rest = .error e.fault := by
  induction cs using reading_induction with
  | done =>
    intro read column e h
    cases h
  | blank c rest hsp ih =>
    intro read column e h
    rw [tokensFrom, if_pos hsp] at h
    obtain ⟨d, behind, hreach, hfault⟩ := ih h
    exact ⟨d, behind, .blank hsp hreach, hfault⟩
  | fails c rest fault hsp hr =>
    intro read column e h
    rw [tokensFrom, hsp, if_neg (by decide), hr] at h
    cases h
    exact ⟨c, rest, .here column _, hsp, hr⟩
  | lexeme l tail hw hs ih =>
    intro read column e h
    rw [tokensFrom_lexeme hw hs] at h
    obtain ⟨d, behind, hreach, hfault⟩ := ih h
    exact ⟨d, behind, .lexeme l hw hs hreach, hfault⟩

theorem tokens_eq_error_iff {source : String} {e : LexicalError} : tokens source = .error e ↔
    ∃ c rest, Reaches 1 source.toList e.column (c :: rest) ∧ isSpace c = false ∧
      Lexeme.read c rest = .error e.fault := by
  constructor
  · exact tokensFrom_fault source.toList
  · rintro ⟨c, rest, hreach, hsp, hr⟩
    obtain ⟨read, h⟩ := hreach.tokensFrom_eq []
    rw [tokens, h, tokensFrom, hsp, if_neg (by decide), hr]

theorem column_of_tokens_error {source : String} {e : LexicalError} (h : tokens source = .error e) :
    1 ≤ e.column ∧ e.column ≤ source.length := by
  obtain ⟨c, rest, hreach, -⟩ := tokens_eq_error_iff.mp h
  have := hreach.length_eq
  rw [List.length_cons, String.length_toList] at this
  omega

/-! ## Integers that are too long -/

/-- Digits that no letter, underscore or point follows, and more of them than are converted. -/
def LongInteger (cs : List Char) : Prop :=
  ∃ digits behind, cs = digits ++ behind ∧ (∀ c ∈ digits, c.isDigit = true) ∧ maxIntegerDigits < digits.length ∧
    ∀ c ∈ behind.head?, isRunChar c = false

theorem LongInteger.eq_cons {cs : List Char} (h : LongInteger cs) : ∃ c rest, cs = c :: rest ∧ isSpace c = false := by
  obtain ⟨digits, behind, rfl, hd, hlong, -⟩ := h
  cases digits with
  | nil => cases hlong
  | cons d digits => exact ⟨d, digits ++ behind, rfl, not_isSpace (isRunChar_of_isDigit (hd d (by simp)))⟩

theorem longInteger_of_read {c : Char} {rest : List Char} {k : Nat}
    (h : Lexeme.read c rest = .error (.integerTooLong k)) : LongInteger (c :: rest) := by
  cases Lexeme.unreadable_of_read h with
  | tooLong _ digits long =>
    exact ⟨_, _, List.takeWhile_append_dropWhile.symm, digits, long, head?_dropWhile _ _⟩

theorem read_of_longInteger {c : Char} {rest : List Char} (h : LongInteger (c :: rest)) :
    ∃ k, Lexeme.read c rest = .error (.integerTooLong k) := by
  obtain ⟨digits, behind, he, hd, hlong, hbehind⟩ := h
  cases digits with
  | nil => cases hlong
  | cons d digits =>
    rw [List.cons_append, List.cons.injEq] at he
    obtain ⟨rfl, rfl⟩ := he
    have hstart : isNumeralStart c = true := by rw [isNumeralStart, hd c (by simp), Bool.true_or]
    have hrun := (takeWhile_append behind (fun a ha => isRunChar_of_isDigit (hd a ha)) hbehind).1
    have hspelling : (⟨c :: digits, none⟩ : Numeral).isSpelling = true := by
      simpa [Numeral.isSpelling] using hd
    have hread : Numeral.ofChars? (c :: digits) = some ⟨c :: digits, none⟩ := Numeral.ofChars?_chars hspelling
    rw [List.cons_append] at hrun
    refine ⟨(c :: digits).length, ?_⟩
    rw [Lexeme.read, if_pos hstart, readNumeral, hrun, hread]
    exact if_pos hlong

theorem tokens_tooLong_iff {source : String} :
    (∃ digits column, tokens source = .error ⟨.integerTooLong digits, column⟩) ↔
      ∃ k ahead, Reaches 1 source.toList k ahead ∧ LongInteger ahead := by
  constructor
  · rintro ⟨digits, column, h⟩
    obtain ⟨c, rest, hreach, -, hr⟩ := tokens_eq_error_iff.mp h
    exact ⟨column, c :: rest, hreach, longInteger_of_read hr⟩
  · rintro ⟨k, ahead, hreach, hlong⟩
    obtain ⟨c, rest, rfl, hsp⟩ := hlong.eq_cons
    obtain ⟨digits, hr⟩ := read_of_longInteger hlong
    exact ⟨digits, k, tokens_eq_error_iff.mpr ⟨c, rest, hreach, hsp, hr⟩⟩

end Calculator
