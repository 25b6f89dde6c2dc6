import Calculator.Expr.Parser
import Calculator.Proofs.Token.Fault
import Calculator.Proofs.Token.Placement

/-!
# Faults are the leftmost ones and rightly named

`fault_leftmost_and_named`: what stands before the fault of a text is read by itself, as the tokens passed before the
fault, and the message names what is wrong with the run of letters, digits, underscores and points at the fault.
-/

namespace Calculator

/-! ## Tokens before a fault -/

def passedFrom (column covered : Nat) : List Char → List Token
  | [] => []
  | c :: rest =>
    match covered with
    | covered + 1 => passedFrom (column + 1) covered rest
    | 0 =>
      if isSpace c then passedFrom (column + 1) 0 rest
      else match Lexeme.read c rest with
        | .error _ => []
        | .ok lexeme => ⟨lexeme, column⟩ :: passedFrom (column + 1) (lexeme.text.length - 1) rest

def passed (source : String) : List Token := passedFrom 1 0 source.toList

theorem passedFrom_covered (rest : List Char) : ∀ (cs : List Char) (column : Nat),
    passedFrom column cs.length (cs ++ rest) = passedFrom (column + cs.length) 0 rest
  | [], column => rfl
  | c :: cs, column => by
    rw [List.cons_append, List.length_cons, passedFrom, passedFrom_covered rest cs (column + 1)]
    congr 1
    omega

theorem passedFrom_lexeme {l : Lexeme} (h : l.isWritten = true) {rest : List Char} (hs : l.StopsAt rest)
    (column : Nat) : passedFrom column 0 (l.chars ++ rest) =
      ⟨l, column⟩ :: passedFrom (column + l.chars.length) 0 rest := by
  obtain ⟨c, cs, hc, hsp⟩ := Lexeme.chars_eq_cons h
  have hlen : l.text.length - 1 = cs.length := by
    rw [← String.length_toList, ← Lexeme.chars, hc]
    rfl
  rw [hc, List.cons_append, passedFrom, hsp, if_neg (by decide), Lexeme.read_complete h hc hs]
  simp only [hlen]
  rw [passedFrom_covered, List.length_cons]
  congr 2
  omega

theorem Segmentation.passedFrom_eq {column : Nat} {cs : List Char} {ts : List Token} (h : Segmentation column cs ts) :
    passedFrom column 0 cs = ts := by
  induction h with
  | done column => rfl
  | blank space _ ih => rw [passedFrom, if_pos space, ih]
  | lexeme l written stops _ ih => rw [passedFrom_lexeme written stops, ih]

theorem passed_of_ok {source : String} {ts : List Token} (h : tokens source = .ok ts) : passed source = ts :=
  (tokens_eq_ok_iff.mp h).passedFrom_eq

/-- Where nothing is read any more, the text passed is a text of its own. -/
theorem Reaches.segmentation {column k : Nat} {cs ahead : List Char} (h : Reaches column cs k ahead)
    (hnone : passedFrom k 0 ahead = []) : ∃ before, cs = before ++ ahead ∧ k = column + before.length ∧
      Segmentation column before (passedFrom column 0 cs) := by
  induction h with
  | here column cs =>
    rw [hnone]
    exact ⟨[], rfl, rfl, .done column⟩
  | @blank column k c cs ahead space _ ih =>
    obtain ⟨before, rfl, hk, hseg⟩ := ih hnone
    refine ⟨c :: before, rfl, by rw [List.length_cons]; omega, ?_⟩
    rw [passedFrom, if_pos space]
    exact .blank space hseg
  | lexeme l written stops _ ih =>
    obtain ⟨before, rfl, hk, hseg⟩ := ih hnone
    refine ⟨l.chars ++ before, (List.append_assoc ..).symm, by rw [List.length_append]; omega, ?_⟩
    rw [passedFrom_lexeme written stops]
    exact .lexeme l written stops.left hseg

/-! ## Forms of numerals -/

/-- Digits, digits with a point behind or among them, or digits behind a point. -/
inductive NumeralForm : List Char → Prop
  | whole {ds : List Char} (ne : ds ≠ []) (digits : ∀ d ∈ ds, d.isDigit = true) : NumeralForm ds
  | pointed {ds es : List Char} (ne : ds ≠ []) (digits : ∀ d ∈ ds, d.isDigit = true)
      (fraction : ∀ d ∈ es, d.isDigit = true) : NumeralForm (ds ++ '.' :: es)
  | point {es : List Char} (ne : es ≠ []) (fraction : ∀ d ∈ es, d.isDigit = true) : NumeralForm ('.' :: es)

theorem numeralForm_iff {run : List Char} :
    NumeralForm run ↔ ∃ n : Numeral, n.isSpelling = true ∧ n.chars = run := by
  constructor
  · intro h
    cases h with
    | whole ne digits => exact ⟨⟨run, none⟩, by simpa [Numeral.isSpelling] using ⟨digits, ne⟩, rfl⟩
    | @pointed ds es ne digits fraction =>
      exact ⟨⟨ds, some es⟩, by simpa [Numeral.isSpelling, ne] using ⟨digits, fraction⟩, rfl⟩
    | @point es ne fraction => exact ⟨⟨[], some es⟩, by simpa [Numeral.isSpelling, ne] using fraction, rfl⟩
  · rintro ⟨⟨whole, fraction⟩, hs, rfl⟩
    cases fraction with
    | none =>
      simp only [Numeral.isSpelling, Bool.and_eq_true, List.all_eq_true] at hs
      have hne : whole ≠ [] := by simpa using hs.2
      exact .whole hne hs.1
    | some es =>
      simp only [Numeral.isSpelling, Bool.and_eq_true, List.all_eq_true] at hs
      obtain ⟨hdigits, hfraction, hne⟩ := hs
      cases whole with
      | nil => exact .point (by simpa using hne) hfraction
      | cons d ds => exact .pointed (List.cons_ne_nil d ds) hdigits hfraction

theorem not_numeralForm {run : List Char} (h : Numeral.ofChars? run = none) : ¬ NumeralForm run := by
  rw [numeralForm_iff]
  rintro ⟨n, hs, rfl⟩
  rw [Numeral.ofChars?_chars hs] at h
  cases h

/-! ## What a message says -/

def Says (words message : String) : Prop := ∃ more, message = words ++ more

def IsAlien (c : Char) : Prop :=
  c.isAlpha = false ∧ c.isDigit = false ∧ c ≠ '_' ∧ c ≠ '.' ∧ ∀ s : Symbol, s.char ≠ c

def IsTooLarge (run : List Char) : Prop :=
  (∀ d ∈ run, d.isDigit = true) ∧ run.length ≤ maxIntegerDigits ∧ maxInteger < Nat.ofDigitChars 10 run 0

/-- Begins like a numeral and is none. -/
def IsMalformed (run : List Char) : Prop :=
  (∃ d ∈ run.head?, d.isDigit = true ∨ d = '.') ∧ ¬ NumeralForm run

/-- What a malformed numeral is called: the whole run, or the point alone if no digit follows it. -/
def calledAs : List Char → String
  | '.' :: rest => if rest.head?.any Char.isDigit then String.ofList ('.' :: rest) else "."
  | run => String.ofList run

/-- The message on a character and the run that begins with it says what is wrong there and nothing else. -/
structure RightlyNamed (c : Char) (run : List Char) (message : String) : Prop where
  alien : Says "unexpected character" message ↔ IsAlien c
  tooLarge : Says "integer literal out of range" message ↔ IsTooLarge run
  malformed : Says "malformed number" message ↔ IsMalformed run
  ofAlien : IsAlien c → message = "unexpected character " ++ Text.quoted (String.singleton c)
  ofTooLarge : IsTooLarge run → message = "integer literal out of range '" ++ String.ofList run ++ "'"
  ofMalformed : IsMalformed run → message = "malformed number '" ++ calledAs run ++ "'"

theorem Says.append {words message : String} (h : Says words message) (rest : String) :
    Says words (message ++ rest) := by
  obtain ⟨more, rfl⟩ := h
  exact ⟨more ++ rest, String.append_assoc ..⟩

theorem head?_append {s : String} {c : Char} (h : s.toList.head? = some c) (rest : String) :
    (s ++ rest).toList.head? = some c := by
  rw [String.toList_append, List.head?_append, h, Option.some_or]

theorem not_begins {words message : String} {a b : Char} (hw : words.toList.head? = some a)
    (hm : message.toList.head? = some b) (hne : a ≠ b) : ¬ Says words message := by
  rintro ⟨more, rfl⟩
  rw [head?_append hw, Option.some.injEq] at hm
  exact hne hm

/-! ## Only one thing is wrong -/

theorem not_tooLarge_nil : ¬ IsTooLarge [] := fun h => Nat.not_lt_zero _ h.2.2

theorem not_malformed_nil : ¬ IsMalformed [] := fun h => by
  obtain ⟨d, hd, -⟩ := h.1
  cases hd

theorem IsTooLarge.numeralForm {run : List Char} (h : IsTooLarge run) : NumeralForm run :=
  .whole (fun hnil => not_tooLarge_nil (hnil ▸ h)) h.1

theorem IsTooLarge.not_malformed {run : List Char} (h : IsTooLarge run) : ¬ IsMalformed run :=
  fun hm => hm.2 h.numeralForm

theorem isAlien_iff {c : Char} : IsAlien c ↔ isRunChar c = false ∧ ∀ s : Symbol, s.char ≠ c := by
  simp only [IsAlien, isRunChar, isNameChar, isNameStart, Bool.or_eq_false_iff, beq_eq_false_iff_ne]
  constructor
  · rintro ⟨hletter, hdigit, hunderscore, hpoint, hsymbol⟩
    exact ⟨⟨⟨⟨hletter, hunderscore⟩, hdigit⟩, hpoint⟩, hsymbol⟩
  · rintro ⟨⟨⟨⟨hletter, hunderscore⟩, hdigit⟩, hpoint⟩, hsymbol⟩
    exact ⟨hletter, hdigit, hunderscore, hpoint, hsymbol⟩

theorem symbol_of_char? {c : Char} : Symbol.ofChar? c = none ↔ ∀ s : Symbol, s.char ≠ c := by
  constructor
  · rintro h s rfl
    rw [Symbol.ofChar?_char] at h
    cases h
  · intro h
    simpa [Symbol.ofChar?] using fun s _ => h s

theorem malformedText_eq (run : List Char) : String.ofList (malformedText run) = calledAs run := by
  unfold calledAs
  split
  · rename_i rest
    cases rest with
    | nil => rfl
    | cons d rest => exact apply_ite String.ofList (d.isDigit = true) ('.' :: d :: rest) ['.']
  · rename_i hpoint
    unfold malformedText
    split
    · exact absurd rfl (hpoint _)
    · rfl

section
variable {c : Char} {run : List Char}

theorem rightlyNamed_alien (h : IsAlien c) : RightlyNamed c [] (LexicalFault.unexpectedCharacter c).message :=
  have hfirst : (LexicalFault.unexpectedCharacter c).message.toList.head? = some 'u' := head?_append rfl _
  { alien := iff_of_true (.append ⟨" ", rfl⟩ _) h
    tooLarge := iff_of_false (not_begins rfl hfirst (by decide)) not_tooLarge_nil
    malformed := iff_of_false (not_begins rfl hfirst (by decide)) not_malformed_nil
    ofAlien := fun _ => rfl
    ofTooLarge := fun h => absurd h not_tooLarge_nil
    ofMalformed := fun h => absurd h not_malformed_nil }

theorem rightlyNamed_tooLarge (hc : ¬ IsAlien c) (h : IsTooLarge run) :
    RightlyNamed c run (LexicalFault.integerOutOfRange (String.ofList run)).message :=
  have hfirst : (LexicalFault.integerOutOfRange (String.ofList run)).message.toList.head? = some 'i' :=
    head?_append (head?_append rfl _) _
  { alien := iff_of_false (not_begins rfl hfirst (by decide)) hc
    tooLarge := iff_of_true (.append (.append ⟨" '", rfl⟩ _) _) h
    malformed := iff_of_false (not_begins rfl hfirst (by decide)) h.not_malformed
    ofAlien := fun h => absurd h hc
    ofTooLarge := fun _ => rfl
    ofMalformed := fun hm => absurd hm h.not_malformed }

theorem rightlyNamed_malformed (hc : ¬ IsAlien c) (h : IsMalformed run) :
    RightlyNamed c run (LexicalFault.malformedNumber (String.ofList (malformedText run))).message :=
  have hfirst : (LexicalFault.malformedNumber (String.ofList (malformedText run))).message.toList.head? = some 'm' :=
    head?_append (head?_append rfl _) _
  have hrange : ¬ IsTooLarge run := fun hl => hl.not_malformed h
  { alien := iff_of_false (not_begins rfl hfirst (by decide)) hc
    tooLarge := iff_of_false (not_begins rfl hfirst (by decide)) hrange
    malformed := iff_of_true (.append (.append ⟨" '", rfl⟩ _) _) h
    ofAlien := fun h => absurd h hc
    ofTooLarge := fun hl => absurd hl hrange
    ofMalformed := fun _ => by rw [← malformedText_eq]; rfl }

end

/-! ## Faults of lexemes -/

theorem not_isAlien {c : Char} (h : isNumeralStart c = true) : ¬ IsAlien c := by
  rintro ⟨-, hdigit, -, hpoint, -⟩
  rw [isNumeralStart, hdigit, Bool.false_or, beq_iff_eq] at h
  exact hpoint h

theorem rightlyNamed_of_read {c : Char} {rest : List Char} {fault : LexicalFault}
    (h : Lexeme.read c rest = .error fault) (told : ∀ digits, fault ≠ .integerTooLong digits) :
    RightlyNamed c ((c :: rest).takeWhile isRunChar) fault.message := by
  cases Lexeme.unreadable_of_read h with
  | tooLong => exact absurd rfl (told _)
  | tooLarge start digits short large => exact rightlyNamed_tooLarge (not_isAlien start) ⟨digits, short, large⟩
  | malformed start noNumeral =>
    refine rightlyNamed_malformed (not_isAlien start) ⟨⟨c, ?_, ?_⟩, not_numeralForm noNumeral⟩
    · rw [List.takeWhile_cons_of_pos (isRunChar_of_isNumeralStart start)]
      rfl
    · simpa [isNumeralStart] using start
  | alien noNumeral noName noSymbol =>
    have hrun : isRunChar c = false := by
      rw [isNumeralStart, Bool.or_eq_false_iff] at noNumeral
      rw [isRunChar, isNameChar, noName, noNumeral.1, noNumeral.2]
      rfl
    rw [List.takeWhile_cons_of_neg (by rw [hrun]; decide)]
    exact rightlyNamed_alien (isAlien_iff.mpr ⟨hrun, symbol_of_char?.mp noSymbol⟩)

/-! ## Texts -/

def runAt (source : String) (column : Nat) : List Char := (source.toList.drop (column - 1)).takeWhile isRunChar

theorem fault_leftmost_and_named {source : String} {e : LexicalError} (h : tokens source = .error e) {d : Diagnostic}
    (told : (ParseError.lexical e).diagnostic? = some d) :
    d.category = .lexical ∧ d.column = some (e.column : Int) ∧ 1 ≤ e.column ∧
      tokens (String.ofList (source.toList.take (e.column - 1))) = .ok (passed source) ∧
      (∀ t ∈ passed source, t.finish ≤ e.column) ∧
      ∃ c, source.toList[e.column - 1]? = some c ∧ isSpace c = false ∧
        RightlyNamed c (runAt source e.column) d.message := by
  obtain ⟨c, rest, hreach, hsp, hread⟩ := tokens_eq_error_iff.mp h
  have hnone : passedFrom e.column 0 (c :: rest) = [] := by rw [passedFrom, hsp, if_neg (by decide), hread]
  obtain ⟨before, hsource, hcolumn, hseg⟩ := hreach.segmentation hnone
  obtain ⟨fault, column⟩ := e
  simp only at hcolumn hread
  have hplace : column - 1 = before.length := by omega
  have htold : ∀ digits, fault ≠ .integerTooLong digits := by
    rintro digits rfl
    cases told
  have hd : d = ⟨.lexical, fault.message, some column⟩ := by
    cases fault with
    | integerTooLong digits => exact absurd rfl (htold digits)
    | _ => cases told; rfl
  subst hd
  refine ⟨rfl, rfl, by simp only; omega, ?_, fun t ht => ?_, c, ?_, hsp, ?_⟩
  · rw [tokens_eq_ok_iff, String.toList_ofList, hplace, hsource, List.take_left]
    rw [hsource] at hseg
    rw [passed, hsource]
    exact hseg
  · have := (hseg.covers.inside t ht).2.2
    simp only
    omega
  · rw [hplace, hsource]
    simp
  · rw [runAt, hplace, hsource, List.drop_left]
    exact rightlyNamed_of_read hread htold

/-- A run of several faults is named by the point that no digit follows; the fault behind it is not looked at. -/
theorem fault_leftmost_and_named_lone_point :
    tokens "a\t+ .e5.1 @" = .error ⟨.malformedNumber ".", 5⟩ ∧
      tokens "a\t+ " = .ok (passed "a\t+ .e5.1 @") ∧ passed "a\t+ .e5.1 @" = [⟨.name "a", 1⟩, ⟨.symbol .plus, 3⟩] ∧
      RightlyNamed '.' ".e5.1".toList "malformed number '.'" := by
  have h : tokens "a\t+ .e5.1 @" = .error ⟨.malformedNumber ".", 5⟩ := by rfl
  have told : (ParseError.lexical ⟨.malformedNumber ".", 5⟩).diagnostic? =
      some ⟨.lexical, "malformed number '.'", some 5⟩ := by rfl
  obtain ⟨-, -, -, hbefore, -, c, hc, -, hnamed⟩ := fault_leftmost_and_named h told
  obtain rfl : '.' = c := Option.some.inj hc
  exact ⟨h, hbefore, by rfl, hnamed⟩

end Calculator
