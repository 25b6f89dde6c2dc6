import Calculator.Proofs.Calculation.Outcome
import Calculator.Proofs.Token.Spacing

/-!
# Spacing never matters

`spacing_never_matters`: blanks put in between the tokens of a text, or taken out beside its operators and at its ends,
change neither the tokens nor the tree nor what the text comes to. A fault stays the same and stays at its token.
-/

namespace Calculator
open Grammar

/-- The same tree, or the same fault at the tokens of the same index in two texts. The last index is that of the end. -/
inductive SameReading (s : String) (ts : List Token) (s' : String) (ts' : List Token) :
    Except ParseError Expr → Except ParseError Expr → Prop
  | tree (t : Expr) : SameReading s ts s' ts' (.ok t) (.ok t)
  | fault (f : GrammarFault) {i : Nat} (index : i ≤ ts.length) : SameReading s ts s' ts'
      (.error (.grammar f (columnAt s ts i))) (.error (.grammar f (columnAt s' ts' i)))

section
variable {s s' : String} {ts ts' : List Token} (ht : tokens s = .ok ts) (ht' : tokens s' = .ok ts')
  (hl : ts'.map (·.lexeme) = ts.map (·.lexeme))
include ht ht' hl

theorem sameReading (limit : Nat) :
    SameReading s ts s' ts' (Expr.parseWithin limit s) (Expr.parseWithin limit s') := by
  have hlen : ts'.length = ts.length := by simpa using congrArg List.length hl
  unfold Expr.parseWithin
  simp only [ht, ht', hl]
  cases Expr.ofLexemes limit (ts.map (·.lexeme)) with
  | ok t => exact .tree t
  | error e =>
    simp only [columnAhead_eq, hlen]
    exact .fault e.fault (Nat.sub_le ..)

theorem outcome_eq_or_grammar (limits : Limits) : (calculate limits s).outcome = (calculate limits s').outcome ∨
    ∃ f column column', (calculate limits s).outcome = .error (.parse (.grammar f column)) ∧
      (calculate limits s').outcome = .error (.parse (.grammar f column')) := by
  have hread := sameReading ht ht' hl limits.reading
  generalize hp : Expr.parseWithin limits.reading s = x, hp' : Expr.parseWithin limits.reading s' = x' at hread
  cases hread with
  | tree t => exact .inl (by rw [calculate_of_parse hp, calculate_of_parse hp'])
  | fault f index => exact .inr ⟨f, _, _, calculate_of_parse_error hp, calculate_of_parse_error hp'⟩

end

theorem spacing_never_matters {s s' : String} {ts : List Token} (ht : tokens s = .ok ts)
    (h : Relation.ReflTransGen Respaces s.toList s'.toList) :
    ∃ ts', tokens s' = .ok ts' ∧ ts'.map (·.lexeme) = ts.map (·.lexeme) ∧
      (∀ limit, SameReading s ts s' ts' (Expr.parseWithin limit s) (Expr.parseWithin limit s')) ∧
      ∀ limits, (∀ x, (calculate limits s).outcome = .ok x ↔ (calculate limits s').outcome = .ok x) ∧
        ∀ e, (calculate limits s).outcome = .error (.evaluation e) ↔
          (calculate limits s').outcome = .error (.evaluation e) := by
  obtain ⟨ts', ht', hl⟩ := tokens_of_respaced ht h
  refine ⟨ts', ht', hl, sameReading ht ht' hl, fun limits => ?_⟩
  rcases outcome_eq_or_grammar ht ht' hl limits with he | ⟨f, column, column', he, he'⟩
  · rw [he]
    exact ⟨fun x => Iff.rfl, fun e => Iff.rfl⟩
  · rw [he, he']
    exact ⟨fun x => ⟨nofun, nofun⟩, fun e => ⟨nofun, nofun⟩⟩

/-- A blank put in before a point that begins a numeral, others taken out before a parenthesis and an operator. -/
theorem spacing_never_matters_misplaced_numeral :
    ∃ ts, tokens " f (x.5\n*2)" = .ok ts ∧ Relation.ReflTransGen Respaces " f (x.5\n*2)".toList "f(x .5*2)".toList ∧
      ∃ ts', tokens "f(x .5*2)" = .ok ts' ∧ ts'.map (·.lexeme) = ts.map (·.lexeme) ∧
        SameReading " f (x.5\n*2)" ts "f(x .5*2)" ts' (Expr.parseWithin 2 " f (x.5\n*2)")
          (Expr.parseWithin 2 "f(x .5*2)") ∧
        Expr.parseWithin 2 " f (x.5\n*2)" = .error (.grammar (.unexpected (.number ⟨[], some ['5']⟩)) 6) ∧
        Expr.parseWithin 2 "f(x .5*2)" = .error (.grammar (.unexpected (.number ⟨[], some ['5']⟩)) 5) := by
  have first : Respaces " f (x.5\n*2)".toList "f (x.5\n*2)".toList :=
    @Respaces.delete [] "f (x.5\n*2)".toList ' ' rfl (@Spare.atStart [] (by simp) _)
  have second : Respaces "f (x.5\n*2)".toList "f(x.5\n*2)".toList :=
    @Respaces.delete ['f'] "(x.5\n*2)".toList ' ' rfl (@Spare.before ['f'] [] (by simp) .opening "x.5\n*2)".toList)
  have third : Respaces "f(x.5\n*2)".toList "f(x .5\n*2)".toList :=
    @Respaces.insert "f(x".toList ".5\n*2)".toList ' ' rfl _ rfl (by decide)
  have fourth : Respaces "f(x .5\n*2)".toList "f(x .5*2)".toList :=
    @Respaces.delete "f(x .5".toList "*2)".toList '\n' rfl (@Spare.before _ [] (by simp) .star "2)".toList)
  have hsteps := (((Relation.ReflTransGen.single first).tail second).tail third).tail fourth
  have ht : tokens " f (x.5\n*2)" = .ok [⟨.name "f", 2⟩, ⟨.symbol .opening, 4⟩, ⟨.name "x", 5⟩,
      ⟨.number ⟨[], some ['5']⟩, 6⟩, ⟨.symbol .star, 9⟩, ⟨.number ⟨['2'], none⟩, 10⟩, ⟨.symbol .closing, 11⟩] := by rfl
  obtain ⟨ts', ht', hl, hread, -⟩ := spacing_never_matters ht hsteps
  exact ⟨_, ht, hsteps, ts', ht', hl, hread 2, by rfl, by rfl⟩

end Calculator
