import Calculator.Calculation
import Calculator.Proofs.Evaluation.TwoRuns
import Calculator.Proofs.Grammar.Renaming

/-!
# Letter case never matters

`calculate_ignores_case`: texts that agree but for the case of their ASCII letters come to the same number, or fail in
the same way, and make the same calls. Only a message that cites the text may tell them apart, and that in the case of
its letters alone.
-/

namespace Calculator
open Text

/-! ## Reading -/

def ParseError.lowered : ParseError → ParseError
  | lexical e => lexical e.lowered
  | grammar fault column => grammar (fault.rename String.toLower) column

def Diagnostic.lowered (d : Diagnostic) : Diagnostic := { d with message := d.message.toLower }

theorem columnAhead_rename (f : String → String) (ts : List Token) (finish ahead : Nat) :
    columnAhead (ts.map (·.rename f)) finish ahead = columnAhead ts finish ahead := by
  unfold columnAhead
  rw [List.length_map, ← List.map_drop]
  cases ts.drop (ts.length - ahead) <;> rfl

theorem Expr.parseWithin_toLower (limit : Nat) (source : String) : parseWithin limit source.toLower =
    ((parseWithin limit source).map (rename String.toLower)).mapError ParseError.lowered := by
  unfold parseWithin
  rw [tokens_toLower]
  cases tokens source with
  | error e => rfl
  | ok ts =>
    have hlexemes : (ts.map (·.rename String.toLower)).map (·.lexeme) =
        (ts.map (·.lexeme)).map (·.rename String.toLower) := by
      rw [List.map_map, List.map_map]
      rfl
    simp only [Except.map, Except.mapError, hlexemes, Grammar.ofLexemes_rename, endColumn, length_toLower]
    cases ofLexemes limit (ts.map (·.lexeme)) with
    | ok e => rfl
    | error e =>
      obtain ⟨fault, ahead⟩ := e
      show Except.error _ = .error (ParseError.grammar _ _)
      rw [columnAhead_rename]
      rfl

theorem LexicalFault.message_lowered (fault : LexicalFault) :
    fault.lowered.message.toLower = fault.message.toLower := by
  cases fault with
  | malformedNumber text =>
    show ("malformed number '" ++ text.toLower ++ "'").toLower = ("malformed number '" ++ text ++ "'").toLower
    simp only [toLower_append, toLower_idem]
  | _ => rfl

theorem GrammarFault.message_rename (fault : GrammarFault) :
    (fault.rename String.toLower).message.toLower = fault.message.toLower := by
  cases fault with
  | unexpected l =>
    have htext : (l.rename String.toLower).text.toLower = l.text.toLower := by
      cases l with
      | name n => exact toLower_idem n
      | _ => rfl
    show ("unexpected token '" ++ (l.rename _).text ++ "'").toLower = ("unexpected token '" ++ l.text ++ "'").toLower
    simp only [toLower_append, htext]
  | _ => rfl

theorem ParseError.diagnostic?_lowered (e : ParseError) :
    e.lowered.diagnostic?.map Diagnostic.lowered = e.diagnostic?.map Diagnostic.lowered := by
  cases e with
  | grammar fault column =>
    show some (Diagnostic.mk _ _ _) = some (Diagnostic.mk _ _ _)
    rw [fault.message_rename]
  | lexical e =>
    obtain ⟨fault, column⟩ := e
    have hmessage := fault.message_lowered
    cases fault with
    | integerTooLong digits => rfl
    | _ => exact congrArg (fun message => some (Diagnostic.mk .lexical message _)) hmessage

/-! ## Evaluation -/

namespace Expr
variable {f : String → String}

mutual

theorem alike_rename (hf : ∀ n, Text.lower (f n) = Text.lower n) : ∀ t : Expr, (t.rename f).Alike Eq t
  | .number _ => .number rfl
  | .name n => .name (hf n)
  | .signed s e => .signed s.keeps_eq (alike_rename hf e)
  | .binary op l r => .binary op.keeps_eq (alike_rename hf l) (alike_rename hf r)
  | .group e => .group (alike_rename hf e)
  | .call g args => .call (hf g) (allAlike_rename hf args)
  | .foreign kind => .foreign kind

theorem allAlike_rename (hf : ∀ n, Text.lower (f n) = Text.lower n) :
    ∀ ts : List Expr, AllAlike Eq (renameAll f ts) ts
  | [] => .nil
  | t :: ts => .cons (alike_rename hf t) (allAlike_rename hf ts)

end

theorem evaluateWithin_rename (hf : ∀ n, Text.lower (f n) = Text.lower n) (env : Environment) (limit : Nat) (t : Expr) :
    (t.rename f).evaluateWithin env limit = t.evaluateWithin env limit :=
  Evaluation.eq_of_alike (evaluateWithin_alike (Environment.alike_refl env) limit (alike_rename hf t))

end Expr

/-! ## Calculations -/

def runText (env : Environment) (nesting depth : Nat) (source : String) :
    Except CalculationError Binary64 × List CallRecord :=
  match Expr.parseWithin nesting source with
  | .error e => (.error (.parse e), [])
  | .ok t => ((t.evaluateWithin env depth).outcome.mapError .evaluation, (t.evaluateWithin env depth).calls.toList)

def LogEntry.isCall : LogEntry → Bool
  | called _ => true
  | _ => false

theorem calculate_eq_runText (limits : Limits) (source : String) :
    (calculate limits source).outcome = (runText .standard limits.reading limits.evaluation source).1 ∧
      (calculate limits source).log.filter LogEntry.isCall =
        (runText .standard limits.reading limits.evaluation source).2.map .called := by
  unfold calculate runText
  cases Expr.parseWithin limits.reading source with
  | error e => exact ⟨rfl, rfl⟩
  | ok t =>
    have hcalls : ∀ rs : List CallRecord, (rs.map LogEntry.called).filter LogEntry.isCall = rs.map .called := by
      intro rs
      rw [List.filter_eq_self]
      rintro _ hr
      obtain ⟨r, -, rfl⟩ := List.mem_map.mp hr
      rfl
    have hfailed : ∀ d : Option Diagnostic, (d.toList.map (LogEntry.failed source)).filter LogEntry.isCall = [] := by
      intro d
      cases d <;> rfl
    simp only
    cases (t.evaluateWithin .standard limits.evaluation).outcome <;>
      simp [hcalls, hfailed, LogEntry.isCall, Except.mapError]

/-- The same number or the same error, or errors of the text that differ in the case of the letters cited. -/
inductive SameButCase : Except CalculationError Binary64 → Except CalculationError Binary64 → Prop
  | same (x : Except CalculationError Binary64) : SameButCase x x
  | located {e e' : ParseError} {d d' : Diagnostic} (told : e.diagnostic? = some d) (told' : e'.diagnostic? = some d')
      (category : d.category = d'.category) (column : d.column = d'.column)
      (message : d.message.toLower = d'.message.toLower) : SameButCase (.error (.parse e)) (.error (.parse e'))

theorem ParseError.lowered_of_silent {e : ParseError} (h : e.diagnostic? = none) : e.lowered = e := by
  cases e with
  | grammar fault column => cases h
  | lexical e =>
    obtain ⟨fault, column⟩ := e
    cases fault with
    | integerTooLong digits => rfl
    | _ => cases h

theorem ParseError.sameButCase {e e' : ParseError} (h : e.lowered = e'.lowered) :
    SameButCase (.error (.parse e)) (.error (.parse e')) := by
  have hdiagnostic := e.diagnostic?_lowered
  rw [h, e'.diagnostic?_lowered] at hdiagnostic
  cases hd : e.diagnostic? with
  | some d =>
    rw [hd] at hdiagnostic
    obtain ⟨d', hd', hlowered⟩ := Option.map_eq_some_iff.mp hdiagnostic
    injection hlowered with hcategory hmessage hcolumn
    exact .located hd hd' hcategory.symm hcolumn.symm hmessage.symm
  | none =>
    rw [hd, Option.map_none, Option.map_eq_none_iff] at hdiagnostic
    rw [lowered_of_silent hd, lowered_of_silent hdiagnostic] at h
    rw [h]
    exact .same _

theorem runText_ignores_case {s s' : String} (h : s.toLower = s'.toLower) (env : Environment) (nesting depth : Nat) :
    SameButCase (runText env nesting depth s).1 (runText env nesting depth s').1 ∧
      (runText env nesting depth s).2 = (runText env nesting depth s').2 := by
  have hparse := Expr.parseWithin_toLower nesting s
  rw [h, Expr.parseWithin_toLower nesting s'] at hparse
  unfold runText
  revert hparse
  cases Expr.parseWithin nesting s with
  | error e =>
    cases Expr.parseWithin nesting s' with
    | ok t' => intro hparse; cases hparse
    | error e' =>
      intro hparse
      injection hparse with he
      exact ⟨ParseError.sameButCase he.symm, rfl⟩
  | ok t =>
    cases Expr.parseWithin nesting s' with
    | error e' => intro hparse; cases hparse
    | ok t' =>
      intro hparse
      injection hparse with ht
      have heval : t.evaluateWithin env depth = t'.evaluateWithin env depth := by
        rw [← Expr.evaluateWithin_rename lower_toLower, ← ht, Expr.evaluateWithin_rename lower_toLower]
      simp only [heval]
      exact ⟨.same _, trivial⟩

theorem calculate_ignores_case {s s' : String} (h : s.toLower = s'.toLower) :
    (∀ limits, SameButCase (calculate limits s).outcome (calculate limits s').outcome ∧
        (calculate limits s).log.filter LogEntry.isCall = (calculate limits s').log.filter LogEntry.isCall) ∧
      ∀ env nesting depth, SameButCase (runText env nesting depth s).1 (runText env nesting depth s').1 ∧
        (runText env nesting depth s).2 = (runText env nesting depth s').2 := by
  refine ⟨fun limits => ?_, runText_ignores_case h⟩
  obtain ⟨hout, hlog⟩ := calculate_eq_runText limits s
  obtain ⟨hout', hlog'⟩ := calculate_eq_runText limits s'
  obtain ⟨hsame, hcalls⟩ := runText_ignores_case h .standard limits.reading limits.evaluation
  rw [hout, hout', hlog, hlog', hcalls]
  exact ⟨hsame, rfl⟩

theorem calculate_ignores_case_malformed : "max(1, 2X)".toLower = "MAX(1, 2x)".toLower ∧ ∀ limits,
    SameButCase (calculate limits "max(1, 2X)").outcome (calculate limits "MAX(1, 2x)").outcome ∧
    (calculate limits "max(1, 2X)").outcome = .error (.parse (.lexical ⟨.malformedNumber "2X", 8⟩)) ∧
    (calculate limits "MAX(1, 2x)").outcome = .error (.parse (.lexical ⟨.malformedNumber "2x", 8⟩)) := by
  have h : "max(1, 2X)".toLower = "MAX(1, 2x)".toLower := by
    rw [← String.toList_inj, toList_toLower, toList_toLower]
    decide
  exact ⟨h, fun limits => ⟨((calculate_ignores_case h).1 limits).1, rfl, rfl⟩⟩

end Calculator
