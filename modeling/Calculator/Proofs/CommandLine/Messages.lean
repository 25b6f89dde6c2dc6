import Calculator.CommandLine.Run
import Calculator.Proofs.Evaluation.Rules
import Calculator.Proofs.Expr.Dump
import Calculator.Proofs.Grammar.Named
import Calculator.Proofs.Number.Plain
import Calculator.Proofs.Text.OneLine
import Calculator.Proofs.Token.Fault

/-!
# What a run says of one expression

Neither results nor dumps nor messages break a line, whatever characters the expression holds: names and lexemes are
shown as they stand, and a character that is part of none is quoted.
-/

namespace Calculator
open Text

/-! ## Results -/

theorem isOneLine_formatResult {places : Option Nat} {x : Binary64} {line : String}
    (h : formatResult places x = .ok line) : IsOneLine line := by
  unfold formatResult at h
  split at h
  · cases h
    exact isOneLine_text x
  · split at h
    · cases h
    · split at h
      · cases h
      · cases h
        exact isOneLine_fixed _ x

theorem isOneLine_dump_number (x : Binary64) : IsOneLine x.dump := by
  have htext := isOneLine_text x
  rcases cutPointZero_cases x.text with hsame | hcut
  · rw [IsOneLine, Binary64.dump, hsame]
    exact htext
  · rw [IsOneLine, hcut, unbroken_append] at htext
    exact htext.1

theorem isOneLine_symbol {op : Operator} (h : op ∈ Operator.known) : IsOneLine op.symbol := by
  revert op
  decide

/-! ## Dumps -/

namespace Nested

theorem unbroken_charsBehind : ∀ {items : List Nested}, (∀ item ∈ items, Unbroken item.chars) →
    Unbroken (charsBehind items)
  | [], _ => by decide
  | item :: items, h => by
    rw [List.forall_mem_cons] at h
    rw [charsBehind, unbroken_cons, unbroken_append]
    exact ⟨by decide, h.1, unbroken_charsBehind h.2⟩

theorem unbroken_list {tag : String} {items : List Nested} (ht : IsOneLine tag)
    (h : ∀ item ∈ items, Unbroken item.chars) : Unbroken (list tag items).chars := by
  rw [chars, unbroken_cons, unbroken_append]
  exact ⟨by decide, ht, unbroken_charsBehind h⟩

end Nested

namespace Expr

mutual

theorem unbroken_nested : ∀ {e : Expr}, e.isWellFormed = true → Unbroken e.nested.chars
  | number x, _ => isOneLine_dump_number x
  | name n, hw => isOneLine_name hw
  | signed s e, hw => by
    simp only [isWellFormed, Bool.and_eq_true] at hw
    have hsign : IsOneLine (if s = .minus then "neg" else "pos") := by split <;> decide
    exact Nested.unbroken_list hsign (List.forall_mem_singleton.mpr (unbroken_nested hw.2))
  | binary op l r, hw => by
    simp only [isWellFormed, Bool.and_eq_true, decide_eq_true_eq] at hw
    refine Nested.unbroken_list (isOneLine_symbol hw.1.1) ?_
    exact List.forall_mem_cons.mpr ⟨unbroken_nested hw.1.2, List.forall_mem_singleton.mpr (unbroken_nested hw.2)⟩
  | group e, hw => by
    rw [isWellFormed] at hw
    exact Nested.unbroken_list (by decide) (List.forall_mem_singleton.mpr (unbroken_nested hw))
  | call f args, hw => by
    simp only [isWellFormed, Bool.and_eq_true] at hw
    refine Nested.unbroken_list (by decide) (List.forall_mem_cons.mpr ⟨isOneLine_name hw.1, ?_⟩)
    exact unbroken_allNested hw.2
  | foreign _, hw => by cases hw

theorem unbroken_allNested : ∀ {es : List Expr}, allWellFormed es = true →
    ∀ item ∈ allNested es, Unbroken item.chars
  | [], _ => by simp [allNested]
  | e :: es, hw => by
    simp only [allWellFormed, Bool.and_eq_true] at hw
    exact List.forall_mem_cons.mpr ⟨unbroken_nested hw.1, unbroken_allNested hw.2⟩

end

theorem isOneLine_dumpText {e : Expr} (h : e.isWellFormed = true) : IsOneLine e.dumpText :=
  isOneLine_ofList.mpr (unbroken_nested h)

end Expr

/-! ## Faults of the text -/

theorem isOneLine_lexeme {l : Lexeme} (h : l.isWritten = true) : IsOneLine l.text := by
  cases l with
  | number n =>
    rw [Lexeme.isWritten, Bool.and_eq_true] at h
    exact isOneLine_numeral h.1
  | name n => exact isOneLine_name h
  | symbol s => cases s <;> decide

theorem isOneLine_malformed {run : List Char} (h : ∀ c ∈ run, isRunChar c = true) : Unbroken (malformedText run) := by
  unfold malformedText
  split
  · split
    · exact unbroken_of_isRunChar h
    · decide
  · exact unbroken_of_isRunChar h

theorem isOneLine_tooManyDigits (digits : Nat) : IsOneLine (tooManyDigits digits) :=
  isOneLine_append.mpr ⟨isOneLine_append.mpr ⟨by decide +kernel, isOneLine_nat digits⟩, by decide +kernel⟩

theorem isOneLine_shown {before shown : String} (hb : IsOneLine before) (hs : IsOneLine shown) :
    IsOneLine (before ++ shown ++ "'") :=
  isOneLine_append.mpr ⟨isOneLine_append.mpr ⟨hb, hs⟩, by decide⟩

theorem isOneLine_read {c : Char} {rest : List Char} {fault : LexicalFault} (h : Lexeme.read c rest = .error fault) :
    IsOneLine fault.message := by
  have hrun : ∀ d ∈ (c :: rest).takeWhile isRunChar, isRunChar d = true := fun d hd => List.mem_takeWhile_imp hd
  cases Lexeme.unreadable_of_read h with
  | tooLong => exact isOneLine_tooManyDigits _
  | tooLarge => exact isOneLine_shown (by decide +kernel) (isOneLine_ofList.mpr (unbroken_of_isRunChar hrun))
  | malformed => exact isOneLine_shown (by decide +kernel) (isOneLine_ofList.mpr (isOneLine_malformed hrun))
  | alien => exact isOneLine_append.mpr ⟨by decide +kernel, isOneLine_quoted _⟩

theorem isOneLine_message {fault : GrammarFault} (h : ∀ l, fault = .unexpected l → IsOneLine l.text) :
    IsOneLine fault.message := by
  cases fault with
  | unexpected l => exact isOneLine_shown (by decide +kernel) (h l rfl)
  | _ => decide +kernel

theorem isOneLine_located {category : Category} {message : String} {column : Option Int} (h : IsOneLine message) :
    IsOneLine (Diagnostic.text ⟨category, message, column⟩) := by
  cases column with
  | none => exact h
  | some column => exact isOneLine_append.mpr ⟨isOneLine_append.mpr ⟨h, by decide⟩, isOneLine_int column⟩

theorem isOneLine_of_parse_error {limit : Nat} {source : String} {e : ParseError}
    (h : Expr.parseWithin limit source = .error e) {d : Diagnostic} (hd : e.diagnostic? = some d) :
    IsOneLine d.text := by
  unfold Expr.parseWithin at h
  split at h
  · rename_i lexical ht
    cases h
    obtain ⟨c, rest, -, -, hread⟩ := tokens_eq_error_iff.mp ht
    obtain ⟨fault, column⟩ := lexical
    have hmessage : IsOneLine fault.message := isOneLine_read hread
    cases fault with
    | integerTooLong => cases hd
    | _ =>
      cases hd
      exact isOneLine_located hmessage
  · rename_i ts ht
    split at h
    · rename_i grammar hg
      cases h
      cases hd
      refine isOneLine_located (isOneLine_message fun l hl => ?_)
      have hmem := Grammar.ofLexemes_names limit _ l grammar.ahead (by rw [hg, ← hl])
      obtain ⟨t, ht', rfl⟩ := List.mem_map.mp hmem
      exact isOneLine_lexeme ((tokens_eq_ok_iff.mp ht).isWritten t ht')
    · cases h

/-! ## Errors of trees -/

theorem isOneLine_kind (c : Category) : IsOneLine c.kind := by cases c <;> decide

theorem isOneLine_arityMismatch {name : String} (h : IsOneLine name) (expected got : Int) :
    IsOneLine (EvalError.arityMismatch name expected got).message := by
  have hnoun : IsOneLine (if expected = 1 then " argument" else " arguments") := by split <;> decide
  exact isOneLine_append.mpr ⟨isOneLine_append.mpr ⟨isOneLine_append.mpr ⟨isOneLine_append.mpr ⟨isOneLine_append.mpr
    ⟨h, by decide⟩, isOneLine_int expected⟩, hnoun⟩, by decide⟩, isOneLine_int got⟩

theorem isOneLine_refusal (error : MathError) : IsOneLine error.message := by cases error <;> decide +kernel

theorem isOneLine_apply {op : Operator} (hop : op ∈ Operator.known) {x y : Binary64} {error : EvalError}
    (h : op.apply x y = .error error) : IsOneLine error.message := by
  cases op with
  | mod =>
    rw [Operator.apply] at h
    split at h
    · cases h
    · cases h
      decide
  | div =>
    obtain ⟨z, hz⟩ := x.div_total y
    rw [Operator.apply, hz] at h
    cases h
  | pow =>
    obtain ⟨z, hz⟩ := x.pow_total y
    rw [Operator.apply, hz] at h
    cases h
  | other symbol => simp [Operator.known] at hop
  | _ => cases h

namespace Expr

mutual

theorem isOneLine_of_yields {env : Environment} : ∀ {e : Expr} {outcome : Except EvalError Binary64}
    {events : Array Event}, Yields env e outcome events → e.isWellFormed = true → ∀ {error : EvalError},
    outcome = .error error → IsOneLine error.message
  | .number _, _, _, h, _, _, he => by
    cases h
    cases he
  | .name n, _, _, h, hw, _, he => by
    cases h with
    | constant => cases he
    | unknownName =>
      cases he
      exact isOneLine_shown (by decide +kernel) (isOneLine_lower hw)
  | .signed s e, _, _, h, hw, _, he => by
    simp only [isWellFormed, Bool.and_eq_true] at hw
    cases h with
    | plus => cases he
    | minus => cases he
    | unknownSign => cases hw.1
    | operandFails operand => exact isOneLine_of_yields operand hw.2 he
  | .binary op l r, _, _, h, hw, _, he => by
    simp only [isWellFormed, Bool.and_eq_true, decide_eq_true_eq] at hw
    cases h with
    | applied => exact isOneLine_apply hw.1.1 he
    | leftFails left | leftEscapes left => exact isOneLine_of_yields left hw.1.2 (by cases he; rfl)
    | rightEscapes _ _ right => exact isOneLine_of_yields right hw.2 (by cases he; rfl)
    | rightFails _ right => exact isOneLine_of_yields right hw.2 (by cases he; rfl)
  | .group e, _, _, h, hw, _, he => by
    rw [isWellFormed] at hw
    cases h with
    | group inner => exact isOneLine_of_yields inner hw he
  | .call f args, _, _, h, hw, _, he => by
    simp only [isWellFormed, Bool.and_eq_true] at hw
    cases h with
    | called => cases he
    | callRaises =>
      cases he
      exact isOneLine_refusal _
    | argumentFails arguments => exact isOneLine_of_yieldsAll arguments hw.2 (by cases he; rfl)
    | unknownFunction =>
      cases he
      exact isOneLine_shown (by decide +kernel) (isOneLine_lower hw.1)
    | wrongCount =>
      cases he
      exact isOneLine_arityMismatch (isOneLine_lower hw.1) _ _
  | .foreign _, _, _, _, hw, _, _ => by cases hw

theorem isOneLine_of_yieldsAll {env : Environment} : ∀ {es : List Expr} {outcome : Except EvalError (List Binary64)}
    {events : Array Event}, YieldsAll env es outcome events → allWellFormed es = true → ∀ {error : EvalError},
    outcome = .error error → IsOneLine error.message
  | [], _, _, h, _, _, he => by
    cases h
    cases he
  | e :: es, _, _, h, hw, _, he => by
    simp only [allWellFormed, Bool.and_eq_true] at hw
    cases h with
    | cons => cases he
    | firstFails first => exact isOneLine_of_yields first hw.1 (by cases he; rfl)
    | restFails _ rest => exact isOneLine_of_yieldsAll rest hw.2 he

end

theorem isOneLine_of_evaluate {env : Environment} {limit : Nat} {e : Expr} (hw : e.isWellFormed = true)
    {error : EvalError} (he : (e.evaluateWithin env limit).outcome = .error error) : IsOneLine error.message := by
  rcases evaluateWithin_meets env limit e with hm | ⟨hdeep, -⟩
  · rw [hm] at he
    exact isOneLine_of_yields (yields_meaning env e) hw he
  · rw [hdeep] at he
    cases he
    decide

end Expr

end Calculator
