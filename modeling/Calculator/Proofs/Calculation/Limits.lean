import Calculator.Proofs.Evaluation.Frames
import Calculator.Proofs.Grammar.FirstFault

/-!
# Limits of nesting show as nothing else

`limits_show_as_tooDeep`: with a limit, evaluation and reading either give up for the depth alone, and say so, or do
exactly what they do without one. Where evaluation gives up is told by the nodes that it would come to.
-/

namespace Calculator

namespace Expr

/-! ## Evaluation -/

theorem evaluateWithin_of_le {env : Environment} {e : Expr} {limit limit' : Nat} (hle : limit ≤ limit')
    (h : (e.evaluateWithin env limit).outcome ≠ .error .tooDeep) : e.evaluateWithin env limit' = e.meaning env :=
  evaluateWithin_eq_meaning fun hdeep => h (tooDeep_antitone hle hdeep)

theorem evaluateWithin_of_reach_le {env : Environment} {e : Expr} {limit : Nat} (h : e.reach env ≤ limit) :
    e.evaluateWithin env limit = e.meaning env := by
  apply evaluateWithin_eq_meaning
  rw [ne_eq, tooDeep_iff, ← lt_reach_iff]
  omega

/-! ## Reading -/

theorem nestsTooDeep_of_tooDeep {limit : Nat} {source : String} {column : Nat}
    (h : parseWithin limit source = .error (.grammar .tooDeep column)) : NestsTooDeep limit source := by
  unfold parseWithin at h
  cases ht : tokens source with
  | error e =>
    rw [ht] at h
    cases h
  | ok ts =>
    simp only [ht] at h
    split at h
    · rename_i grammar hg
      obtain ⟨fault, ahead⟩ := grammar
      injection h with h
      injection h with hfault
      subst hfault
      exact Grammar.nestsTooDeep_of_error ht hg
    · cases h

theorem tooDeep_or_parses {limit limit' : Nat} (hle : limit ≤ limit') (source : String) :
    (∃ column, parseWithin limit source = .error (.grammar .tooDeep column)) ∨
      parseWithin limit' source = parseWithin limit source := by
  rcases Grammar.parseWithin_agrees hle source with ⟨-, hdeep⟩ | he
  · exact .inl hdeep
  · exact .inr he.symm

theorem exists_unlimited (source : String) :
    ∃ unlimited, (∃ enough, ∀ limit, enough ≤ limit → parseWithin limit source = unlimited) ∧
      (∀ column, unlimited ≠ .error (.grammar .tooDeep column)) ∧
      ∀ limit, (∃ column, parseWithin limit source = .error (.grammar .tooDeep column)) ∨
        ∀ limit', limit ≤ limit' → parseWithin limit' source = unlimited := by
  -- one level more than the text has characters is never too few
  have hnot : ∀ limit, source.length + 1 ≤ limit → ∀ column,
      parseWithin limit source ≠ .error (.grammar .tooDeep column) := by
    intro limit hlong column hdeep
    have := (nestsTooDeep_of_tooDeep hdeep).1
    omega
  have hlarge : ∀ limit, source.length + 1 ≤ limit →
      parseWithin limit source = parseWithin (source.length + 1) source := by
    intro limit hlong
    refine (tooDeep_or_parses hlong source).resolve_left ?_
    rintro ⟨column, hdeep⟩
    exact hnot _ (Nat.le_refl _) column hdeep
  refine ⟨parseWithin (source.length + 1) source, ⟨_, hlarge⟩, hnot _ (Nat.le_refl _), fun limit => ?_⟩
  by_cases hdeep : ∃ column, parseWithin limit source = .error (.grammar .tooDeep column)
  · exact .inl hdeep
  · have hsame : ∀ limit', limit ≤ limit' → parseWithin limit' source = parseWithin limit source :=
      fun limit' hle => (tooDeep_or_parses hle source).resolve_left hdeep
    have hmax := hlarge (max limit (source.length + 1)) (Nat.le_max_right _ _)
    rw [hsame _ (Nat.le_max_left _ _)] at hmax
    exact .inr fun limit' hle => (hsame limit' hle).trans hmax

end Expr

theorem limits_show_as_tooDeep :
    (∀ (env : Environment) (t : Expr),
      (∃ enough, ∀ limit, enough ≤ limit → t.evaluateWithin env limit = t.meaning env) ∧
      ∀ limit, ((t.evaluateWithin env limit).outcome = .error .tooDeep ↔
          ∃ node level, Expr.Visits env t node level ∧ limit < level) ∧
        ((t.evaluateWithin env limit).outcome ≠ .error .tooDeep →
          ∀ limit', limit ≤ limit' → t.evaluateWithin env limit' = t.meaning env)) ∧
      (∀ source, ∃ unlimited, (∃ enough, ∀ limit, enough ≤ limit → Expr.parseWithin limit source = unlimited) ∧
        (∀ column, unlimited ≠ .error (.grammar .tooDeep column)) ∧
        ∀ limit, (∃ column, Expr.parseWithin limit source = .error (.grammar .tooDeep column)) ∨
          ∀ limit', limit ≤ limit' → Expr.parseWithin limit' source = unlimited) ∧
      EvalError.tooDeep.diagnostic? = some ⟨.evaluation, "expression nested too deeply", none⟩ ∧
      ∀ column : Nat, (ParseError.grammar .tooDeep column).diagnostic? =
        some ⟨.grammar, "expression nested too deeply", some column⟩ := by
  refine ⟨fun env t => ⟨⟨t.reach env, fun limit => ?_⟩, fun limit => ⟨Expr.tooDeep_iff, fun h limit' hle => ?_⟩⟩,
    Expr.exists_unlimited, rfl, fun column => rfl⟩
  · exact Expr.evaluateWithin_of_reach_le
  · exact Expr.evaluateWithin_of_le hle h

end Calculator
