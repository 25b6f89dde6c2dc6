import Calculator.Proofs.Evaluation.Meaning
import Calculator.Proofs.Expr.Written

/-!
# Writing preserves meaning

`evaluate_source`: the tree that is read back from the text of a tree has the same outcome and makes the same
calls. Parentheses have no meaning of their own, and the sign written before a magnitude gives the number back.
-/

namespace Calculator.Expr

theorem meaning_bracketed (env : Environment) (e : Expr) (asked : Level) (shown : Expr) :
    (e.bracketed asked shown).meaning env = shown.meaning env := by
  unfold bracketed
  split
  · rw [meaning]
  · rfl

mutual

theorem meaning_written (env : Environment) : ∀ e : Expr, e.written.meaning env = e.meaning env
  | number x => by
    rw [written]
    split
    · rw [meaning, meaning, meaning]
      simp [Evaluation.value, Except.bind, Sign.apply, Binary64.neg_neg]
    · rfl
  | name _ => rfl
  | signed s e => by rw [written, meaning, meaning, meaning_bracketed, meaning_written env e]
  | binary op l r => by
    rw [written, meaning, meaning, meaning_bracketed, meaning_bracketed, meaning_written env l, meaning_written env r]
  | group e => by rw [written, meaning, meaning, meaning_written env e]
  | call f args => by rw [written, meaning, meaning, meanings_written env args]
  | foreign _ => rfl

theorem meanings_written (env : Environment) : ∀ es : List Expr, meanings env (allWritten es) = meanings env es
  | [] => rfl
  | e :: es => by rw [allWritten, meanings, meanings, meaning_written env e, meanings_written env es]

end

theorem evaluate_source {t : Expr} (h : t.IsWritable) : ∃ text t', t.source = .ok text ∧ ReadsAs text t' ∧
    ∀ env, ∃ result, result.isTooDeep = false ∧ t.EvaluatesTo env result ∧ t'.EvaluatesTo env result := by
  obtain ⟨text, hs, hr⟩ := readsAs_source h
  refine ⟨text, t.written, hs, hr, fun env => ⟨t.meaning env, ?_, evaluatesTo_meaning env t, ?_⟩⟩
  · exact Evaluation.isTooDeep_eq_false (meaning_ne_tooDeep env t)
  · rw [← meaning_written]
    exact evaluatesTo_meaning env t.written

theorem evaluate_source_negative_base :
    (binary .pow (number (.finite true 1)) (signed .minus (number (.finite true 0)))).IsWritable ∧
      ∃ text t', (binary .pow (number (.finite true 1)) (signed .minus (number (.finite true 0)))).source = .ok text ∧
        ReadsAs text t' ∧ ∀ env, ∃ result, result.isTooDeep = false ∧
          (binary .pow (number (.finite true 1)) (signed .minus (number (.finite true 0)))).EvaluatesTo env result ∧
          t'.EvaluatesTo env result :=
  ⟨by decide, evaluate_source (by decide)⟩

end Calculator.Expr
