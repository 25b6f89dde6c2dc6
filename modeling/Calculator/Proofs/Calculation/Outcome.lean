import Calculator.Calculation
import Calculator.Proofs.Evaluation.Meaning
import Calculator.Proofs.Expr.RoundTrip
import Calculator.Proofs.Grammar.FirstFault
import Calculator.Proofs.Token.Fault

/-!
# How calculations end

`calculate_outcome`: in a number, in an error of the text with a column, in one of the evaluation without a column, or,
for an integer too long to be converted only, in an error that nothing is said of.
-/

namespace Calculator

/-! ## Errors of trees -/

/-- Where nothing can be refused, a well-formed tree fails for its names, calls and remainders or for its depth. -/
theorem Expr.evaluate_error {env : Environment} (henv : env.functions.IsTotal) {t : Expr} (h : t.isWellFormed = true)
    {limit : Nat} {e : EvalError} (he : (t.evaluateWithin env limit).outcome = .error e) :
    e.IsOrdinary ∨ e = .tooDeep := by
  rcases evaluateWithin_meets env limit t with hm | ⟨hdeep, -⟩
  · rw [hm] at he
    rcases meaning_fails env t e he with hordinary | ⟨hunknown, -⟩ | ⟨hrefused, -⟩
    · exact .inl hordinary
    · exact absurd h hunknown
    · exact absurd henv hrefused
  · rw [hdeep] at he
    cases he
    exact .inr rfl

theorem EvalError.placeless {e : EvalError} (h : e.IsOrdinary ∨ e = .tooDeep) :
    ∃ d, e.diagnostic? = some d ∧ Category.evaluation ∈ d.category.lineage ∧ d.column = none := by
  have hd : ∀ {c}, e.category? = some c → e.diagnostic? = some ⟨c, e.message, none⟩ := by
    intro c hc
    rw [diagnostic?, hc]
    rfl
  rcases h with ⟨c, hc, hcategory⟩ | rfl
  · refine ⟨_, hd hcategory, ?_, rfl⟩
    simp only [Category.ordinary, List.mem_cons, List.not_mem_nil, or_false] at hc
    rcases hc with rfl | rfl | rfl | rfl <;> exact .tail _ (.head _)
  · exact ⟨_, rfl, .head _, rfl⟩

/-! ## Errors of texts -/

def Diagnostic.IsPlaced (d : Diagnostic) (source : String) : Prop :=
  Category.grammar ∈ d.category.lineage ∧ ∃ column, d.column = some column ∧ 1 ≤ column ∧ column ≤ source.length + 1

theorem lexical_diagnostic {source : String} {e : LexicalError} (h : tokens source = .error e) :
    (∃ digits, e.fault = .integerTooLong digits) ∨
      ∃ d, (ParseError.lexical e).diagnostic? = some d ∧ d.IsPlaced source := by
  obtain ⟨hfirst, hlast⟩ := column_of_tokens_error h
  obtain ⟨fault, column⟩ := e
  simp only at hfirst hlast
  have hplaced : ∀ message, (Diagnostic.mk .lexical message (some column)).IsPlaced source := fun message =>
    ⟨.tail _ (.head _), column, rfl, by omega, by omega⟩
  cases fault with
  | integerTooLong digits => exact .inl ⟨digits, rfl⟩
  | _ => exact .inr ⟨_, rfl, hplaced _⟩

theorem parse_diagnostic {limit : Nat} {source : String} {e : ParseError}
    (h : Expr.parseWithin limit source = .error e) :
    (e.diagnostic? = none ∧ ∃ digits column, tokens source = .error ⟨.integerTooLong digits, column⟩) ∨
      ∃ d, e.diagnostic? = some d ∧ d.IsPlaced source := by
  unfold Expr.parseWithin at h
  cases ht : tokens source with
  | error lexical =>
    rw [ht] at h
    cases h
    refine (lexical_diagnostic ht).imp_left ?_
    rintro ⟨digits, hfault⟩
    obtain ⟨fault, column⟩ := lexical
    obtain rfl : fault = .integerTooLong digits := hfault
    exact ⟨rfl, digits, column, rfl⟩
  | ok ts =>
    simp only [ht] at h
    split at h
    · rename_i grammar _
      cases h
      obtain ⟨hfirst, hlast⟩ := Grammar.columnAhead_bounds ht grammar.ahead
      exact .inr ⟨_, rfl, .head _, _, rfl, by omega, by omega⟩
    · cases h

theorem parse_of_tooLong {limit : Nat} {source : String} {digits column : Nat}
    (h : tokens source = .error ⟨.integerTooLong digits, column⟩) :
    Expr.parseWithin limit source = .error (.lexical ⟨.integerTooLong digits, column⟩) := by
  rw [Expr.parseWithin, h]

/-! ## Calculations -/

section
variable {limits : Limits} {source : String}

theorem calculate_of_parse_error {e : ParseError} (h : Expr.parseWithin limits.reading source = .error e) :
    (calculate limits source).outcome = .error (.parse e) := by
  rw [calculate, h]

theorem calculate_of_parse {t : Expr} (h : Expr.parseWithin limits.reading source = .ok t) :
    (calculate limits source).outcome = match (t.evaluateWithin .standard limits.evaluation).outcome with
      | .ok x => .ok x
      | .error e => .error (.evaluation e) := by
  simp only [calculate, h]
  split <;> simp only [*]

theorem error_of_parse {t : Expr} (h : Expr.parseWithin limits.reading source = .ok t) {error : CalculationError}
    (he : (calculate limits source).outcome = .error error) :
    ∃ e, error = .evaluation e ∧ (e.IsOrdinary ∨ e = .tooDeep) := by
  obtain ⟨ts, -, hs⟩ := Expr.settled_of_parse h
  rw [calculate_of_parse h] at he
  split at he
  · cases he
  · rename_i e hev
    cases he
    exact ⟨e, rfl, Expr.evaluate_error Builtin.isTotal_standard hs.wellFormed hev⟩

theorem calculate_silent_iff :
    (∃ error, (calculate limits source).outcome = .error error ∧ error.diagnostic? = none) ↔
      ∃ k ahead, Reaches 1 source.toList k ahead ∧ LongInteger ahead := by
  rw [← tokens_tooLong_iff]
  constructor
  · rintro ⟨error, he, hnone⟩
    cases hp : Expr.parseWithin limits.reading source with
    | ok t =>
      obtain ⟨e, rfl, hkind⟩ := error_of_parse hp he
      obtain ⟨d, hd, -⟩ := EvalError.placeless hkind
      cases hd.symm.trans hnone
    | error e =>
      rw [calculate_of_parse_error hp] at he
      cases he
      rcases parse_diagnostic hp with ⟨-, h⟩ | ⟨d, hd, -⟩
      · exact h
      · cases hd.symm.trans hnone
  · rintro ⟨digits, column, h⟩
    exact ⟨_, calculate_of_parse_error (parse_of_tooLong h), rfl⟩

end

theorem calculate_outcome (limits : Limits) (source : String) :
    ((∃ x, (calculate limits source).outcome = .ok x) ∨
        (∃ e d column, (calculate limits source).outcome = .error (.parse e) ∧ e.diagnostic? = some d ∧
          Category.grammar ∈ d.category.lineage ∧ d.column = some column ∧ 1 ≤ column ∧ column ≤ source.length + 1) ∨
        (∃ e d, (calculate limits source).outcome = .error (.evaluation e) ∧ e.diagnostic? = some d ∧
          Category.evaluation ∈ d.category.lineage ∧ d.column = none) ∨
        ∃ error, (calculate limits source).outcome = .error error ∧ error.diagnostic? = none) ∧
      ((∃ error, (calculate limits source).outcome = .error error ∧ error.diagnostic? = none) ↔
        ∃ k ahead, Reaches 1 source.toList k ahead ∧ LongInteger ahead) ∧
      ∀ t error, Expr.parseWithin limits.reading source = .ok t → (calculate limits source).outcome = .error error →
        ∃ e, error = .evaluation e ∧
          ((∃ c ∈ [.unknownIdentifier, .unknownFunction, .arityMismatch, .integerDivisionByZero],
            e.category? = some c) ∨ e = .tooDeep) := by
  refine ⟨?_, calculate_silent_iff, fun t error hp he => error_of_parse hp he⟩
  cases hp : Expr.parseWithin limits.reading source with
  | error e =>
    have hout := calculate_of_parse_error hp
    rcases parse_diagnostic hp with ⟨hnone, -⟩ | ⟨d, hd, hcategory, column, hcolumn, hfirst, hlast⟩
    · exact .inr (.inr (.inr ⟨.parse e, hout, hnone⟩))
    · exact .inr (.inl ⟨e, d, column, hout, hd, hcategory, hcolumn, hfirst, hlast⟩)
  | ok t =>
    cases he : (calculate limits source).outcome with
    | ok x => exact .inl ⟨x, rfl⟩
    | error error =>
      obtain ⟨e, rfl, hkind⟩ := error_of_parse hp he
      obtain ⟨d, hd, hcategory, hcolumn⟩ := EvalError.placeless hkind
      exact .inr (.inr (.inl ⟨e, d, rfl, hd, hcategory, hcolumn⟩))

end Calculator
