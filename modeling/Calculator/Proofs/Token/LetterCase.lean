import Calculator.Proofs.Text.LetterCase
import Calculator.Proofs.Token.Lexeme

/-!
# Lexemes in either case

`tokens_toLower`: a text in lower case has the lexemes of the text, at the same columns, the names among them in lower
case. A text with a fault has it there too, what is cited of the text being in lower case.
-/

namespace Calculator
open Text

/-! ## Renaming -/

def Lexeme.rename (f : String → String) : Lexeme → Lexeme
  | number n => number n
  | name n => name (f n)
  | symbol s => symbol s

def Token.rename (f : String → String) (t : Token) : Token := { t with lexeme := t.lexeme.rename f }

def LexicalFault.lowered : LexicalFault → LexicalFault
  | unexpectedCharacter c => unexpectedCharacter c
  | malformedNumber text => malformedNumber text.toLower
  | integerOutOfRange text => integerOutOfRange text
  | integerTooLong digits => integerTooLong digits

def LexicalError.lowered (e : LexicalError) : LexicalError := { e with fault := e.fault.lowered }

/-! ## Character classes -/

theorem isDigit_toLower (c : Char) : c.toLower.isDigit = c.isDigit := eq_on_toLower (by decide +kernel) c

theorem isSpace_toLower (c : Char) : isSpace c.toLower = isSpace c := eq_on_toLower (by decide +kernel) c

theorem isNameStart_toLower (c : Char) : isNameStart c.toLower = isNameStart c := eq_on_toLower (by decide +kernel) c

theorem isNameChar_toLower (c : Char) : isNameChar c.toLower = isNameChar c := by
  simp only [isNameChar, isNameStart_toLower, isDigit_toLower]

theorem point_toLower (c : Char) : (c.toLower == '.') = (c == '.') := by
  apply eq_on_toLower (f := fun c => c == '.')
  decide +kernel

theorem toLower_ne_point {c : Char} (h : c ≠ '.') : c.toLower ≠ '.' := by
  have := point_toLower c
  simp_all

theorem isRunChar_toLower (c : Char) : isRunChar c.toLower = isRunChar c := by
  simp only [isRunChar, isNameChar_toLower, point_toLower]

theorem isNumeralStart_toLower (c : Char) : isNumeralStart c.toLower = isNumeralStart c := by
  simp only [isNumeralStart, isDigit_toLower, point_toLower]

theorem toLower_of_isDigit {c : Char} (h : c.isDigit = true) : c.toLower = c := by
  apply toLower_of_not_capital
  rw [isDigit_iff] at h
  omega

theorem map_toLower_of_isDigit {cs : List Char} (h : ∀ c ∈ cs, c.isDigit = true) : cs.map Char.toLower = cs := by
  have hsame : cs.map Char.toLower = cs.map id := List.map_congr_left fun c hc => toLower_of_isDigit (h c hc)
  rw [hsame, List.map_id]

/-! ## One lexeme -/

theorem Numeral.ofChars?_toLower (run : List Char) : ofChars? (run.map Char.toLower) = ofChars? run := by
  have hwhole : (run.takeWhile Char.isDigit).map Char.toLower = run.takeWhile Char.isDigit := by
    apply map_toLower_of_isDigit
    exact fun c hc => List.mem_takeWhile_imp hc
  unfold ofChars?
  rw [takeWhile_toLower isDigit_toLower, dropWhile_toLower isDigit_toLower, hwhole]
  cases run.dropWhile Char.isDigit with
  | nil => rfl
  | cons c after =>
    rw [List.map_cons]
    by_cases hc : c = '.'
    · subst hc
      have hall : (after.map Char.toLower).all Char.isDigit = after.all Char.isDigit := by
        rw [List.all_map]
        exact congrArg after.all (funext isDigit_toLower)
      show (if _ then _ else _) = (if _ then _ else _)
      rw [hall, List.isEmpty_map]
      by_cases hd : after.all Char.isDigit = true
      · rw [map_toLower_of_isDigit (List.all_eq_true.mp hd)]
      · simp [hd]
    · simp [hc, toLower_ne_point hc]

theorem malformedText_toLower (run : List Char) :
    malformedText (run.map Char.toLower) = (malformedText run).map Char.toLower := by
  rcases run with _ | ⟨c, _ | ⟨d, rest⟩⟩
  · rfl
  · simp [malformedText]
  · by_cases hc : c = '.'
    · subst hc
      show (if _ then _ else _) = List.map _ (if _ then _ else _)
      rw [isDigit_toLower]
      split <;> rfl
    · simp [malformedText, hc, toLower_ne_point hc]

theorem Numeral.rename_check (n : Numeral) (f : String → String) {l : Lexeme} (h : n.check = .ok l) :
    l.rename f = l := by
  rw [(check_eq_ok_iff.mp h).1]
  rfl

theorem Numeral.lowered_check (n : Numeral) {fault : LexicalFault} (h : n.check = .error fault) :
    fault.lowered = fault := by
  rcases (check_eq_error h).2 with ⟨rfl, -⟩ | ⟨rfl, -⟩ <;> rfl

namespace Lexeme

theorem readNumeral_toLower (cs : List Char) : readNumeral (cs.map Char.toLower) =
    ((readNumeral cs).map (·.rename String.toLower)).mapError LexicalFault.lowered := by
  unfold readNumeral
  simp only [takeWhile_toLower isRunChar_toLower, Numeral.ofChars?_toLower, malformedText_toLower]
  cases Numeral.ofChars? (cs.takeWhile isRunChar) with
  | none =>
    show Except.error _ = .error (LexicalFault.malformedNumber _)
    rw [toLower_ofList]
  | some n =>
    show n.check = (n.check.map _).mapError _
    cases h : n.check with
    | ok l => exact congrArg Except.ok (n.rename_check _ h).symm
    | error fault => exact congrArg Except.error (n.lowered_check h).symm

theorem read_toLower (c : Char) (rest : List Char) :
    read c.toLower (rest.map Char.toLower) =
      ((read c rest).map (·.rename String.toLower)).mapError LexicalFault.lowered := by
  unfold read
  rw [isNumeralStart_toLower, isNameStart_toLower, ← List.map_cons, readNumeral_toLower,
    takeWhile_toLower isNameChar_toLower]
  by_cases hnumeral : isNumeralStart c = true
  · rw [if_pos hnumeral, if_pos hnumeral]
  · rw [if_neg hnumeral, if_neg hnumeral]
    by_cases hname : isNameStart c = true
    · rw [if_pos hname, if_pos hname, ← toLower_ofList]
      rfl
    · rw [if_neg hname, if_neg hname]
      -- what is no letter has no other case
      have hc : c.toLower = c := by
        apply toLower_of_not_capital
        rw [isNameStart, Bool.or_eq_true, isAlpha_iff] at hname
        omega
      rw [hc]
      cases Symbol.ofChar? c <;> rfl

theorem length_text_rename (l : Lexeme) : (l.rename String.toLower).text.length = l.text.length := by
  cases l with
  | name n => exact length_toLower n
  | _ => rfl

end Lexeme

/-! ## Whole texts -/

theorem tokensFrom_toLower (cs : List Char) : ∀ (read : List Token) (column covered : Nat),
    tokensFrom (read.map (·.rename String.toLower)) column covered (cs.map Char.toLower) =
      ((tokensFrom read column covered cs).map fun ts => ts.map (·.rename String.toLower)).mapError
        LexicalError.lowered := by
  induction cs with
  | nil =>
    intro read column covered
    exact congrArg Except.ok List.map_reverse.symm
  | cons c rest ih =>
    intro read column covered
    cases covered with
    | succ covered => exact ih read (column + 1) covered
    | zero =>
      rw [List.map_cons, tokensFrom, tokensFrom, isSpace_toLower, Lexeme.read_toLower]
      by_cases hc : isSpace c = true
      · rw [if_pos hc, if_pos hc]
        exact ih read (column + 1) 0
      · rw [if_neg hc, if_neg hc]
        cases Lexeme.read c rest with
        | error fault => rfl
        | ok l =>
          rw [← ih, ← Lexeme.length_text_rename]
          rfl

theorem tokens_toLower (source : String) : tokens source.toLower =
    ((tokens source).map fun ts => ts.map (·.rename String.toLower)).mapError LexicalError.lowered := by
  unfold tokens
  rw [toList_toLower]
  exact tokensFrom_toLower source.toList [] 1 0

end Calculator
