import Calculator.Proofs.Evaluation.Frames
import Calculator.Proofs.Grammar.Chains
import Calculator.Proofs.Grammar.Reading

/-!
# Long chains

`chains_not_tooDeep`: however long a chain of operators is, neither its evaluation nor its reading is too deep unless
this is so for one of its operands where it is one of two.
-/

namespace Calculator

/-! ## Evaluation -/

namespace Expr
variable {env : Environment} {limit : Nat}

theorem not_tooDeep_iff {e : Expr} : (e.evaluateWithin env limit).outcome ≠ .error .tooDeep ↔ e.reach env ≤ limit := by
  rw [ne_eq, tooDeep_iff, ← lt_reach_iff, Nat.not_lt]

theorem chainReach_joinAll_le : ∀ (links : List (Operator × Expr)) {e : Expr}, e.chainReach env ≤ limit →
    (∀ link ∈ links, link.2.reach env ≤ limit) → (Grammar.joinAll e links).chainReach env ≤ limit
  | [], _, he, _ => he
  | (op, right) :: links, e, he, h => by
    rw [List.forall_mem_cons] at h
    refine chainReach_joinAll_le links ?_ h.2
    rw [chainReach_binary]
    exact Nat.max_le.mpr ⟨he, Nat.le_trans (e.rightReach_le_reach env right) h.1⟩

theorem reach_le_chainReach_succ (e : Expr) : e.reach env ≤ e.chainReach env + 1 := by
  unfold chainReach
  split <;> omega

/-- Functions that are total are refused nothing. -/
theorem not_raised_of_isTotal (htotal : env.functions.IsTotal) (e : Expr) (m : MathError) :
    (e.meaning env).outcome ≠ .error (.raised m) := by
  intro he
  rcases meaning_fails env e _ he with ⟨c, -, hcategory⟩ | ⟨-, hheld⟩ | ⟨hrefused, -⟩
  · cases hcategory
  · cases hheld
  · exact hrefused htotal

theorem rightReach_of_not_raised {op : Operator} {l r : Expr} (h : (binary op l r).reach env ≤ limit)
    (hl : env.functions.IsTotal ∨ ∀ m, (l.evaluateWithin env limit).outcome ≠ .error (.raised m)) :
    l.rightReach env r = r.reach env := by
  have hdeep : (l.evaluateWithin env limit).outcome ≠ .error .tooDeep := by
    rw [not_tooDeep_iff]
    rw [reach_binary] at h
    have := @reach_le_chainReach_succ env l
    omega
  have heq := evaluateWithin_eq_meaning hdeep
  rw [heq] at hdeep hl
  have hstays : (l.meaning env).escapes = false := by
    rw [Evaluation.escapes_eq_false_iff]
    intro e he
    cases e with
    | tooDeep => exact absurd he hdeep
    | raised m => exact absurd he (hl.elim (fun htotal => not_raised_of_isTotal htotal l m) fun h => h m)
    | _ => rfl
  rw [rightReach, hstays, if_neg Bool.false_ne_true]

theorem evaluate_chain {e : Expr} {links : List (Operator × Expr)}
    (he : ∃ op r, ((binary op e r).evaluateWithin env limit).outcome ≠ .error .tooDeep)
    (hlinks : ∀ link ∈ links, ∃ op l,
      (env.functions.IsTotal ∨ ∀ m, (l.evaluateWithin env limit).outcome ≠ .error (.raised m)) ∧
      ((binary op l link.2).evaluateWithin env limit).outcome ≠ .error .tooDeep) :
    ((Grammar.joinAll e links).evaluateWithin env limit).outcome ≠ .error .tooDeep := by
  obtain ⟨op, r, hr⟩ := he
  rw [not_tooDeep_iff, reach_binary] at hr
  have hchain : (Grammar.joinAll e links).chainReach env ≤ limit - 1 := by
    refine chainReach_joinAll_le links (by omega) fun link hlink => ?_
    obtain ⟨op, l, hraised, hl⟩ := hlinks link hlink
    rw [not_tooDeep_iff] at hl
    have hright := rightReach_of_not_raised hl hraised
    rw [reach_binary, hright] at hl
    omega
  have hle := @reach_le_chainReach_succ env (Grammar.joinAll e links)
  rw [not_tooDeep_iff]
  omega

end Expr

/-! ## Reading -/

namespace Grammar

def IsTextOf (source : String) (ls : List Lexeme) : Prop := ∃ ts, tokens source = .ok ts ∧ ts.map (·.lexeme) = ls

/-- The text is read, or it has another fault than its depth. -/
def FitsWithin (limit : Nat) (source : String) : Prop :=
  ∀ column, Expr.parseWithin limit source ≠ .error (.grammar .tooDeep column)

theorem ofLexemes_tooDeep_iff {limit : Nat} {ls : List Lexeme} (h : ls ≠ []) :
    (∃ k, Expr.ofLexemes limit ls = .error ⟨.tooDeep, k⟩) ↔
      extent limit (.phrase (.chain .bitOr)) ls = .error .tooDeep := by
  have hends := @ends_expression ls.length limit ls (Nat.le_refl _)
  rw [← hends]
  unfold Expr.ofLexemes
  split
  · exact absurd rfl h
  simp only
  split
  · rename_i e he
    rw [he]
    obtain ⟨fault, k⟩ := e
    simp [ends]
  · rename_i he
    rw [he]
    simp [ends]
  · rename_i e ahead _ he
    rw [he]
    have hnot : ∀ k, (Reader.unexpected ahead : Except GrammarError Expr) ≠ .error ⟨.tooDeep, k⟩ := by
      intro k hk
      unfold Reader.unexpected at hk
      split at hk <;> cases hk
    simp [ends, hnot]

theorem fitsWithin_iff {limit : Nat} {source : String} {ls : List Lexeme} (hsource : IsTextOf source ls)
    (h : ls ≠ []) : FitsWithin limit source ↔ Fits limit (.phrase (.chain .bitOr)) ls := by
  obtain ⟨ts, hts, rfl⟩ := hsource
  rw [Fits, ne_eq, ← ofLexemes_tooDeep_iff h]
  simp only [FitsWithin, ne_eq, parseWithin_eq_grammar_iff, hts, Except.ok.injEq, exists_and_left, exists_eq_left',
    not_exists, not_and]
  exact ⟨fun hfits k hk => hfits _ k hk rfl, fun hfits column k hk => absurd hk (hfits k)⟩

end Grammar

open Grammar

theorem chains_not_tooDeep :
    (∀ (env : Environment) (limit : Nat) (e : Expr) (links : List (Operator × Expr)),
      (∃ op r, ((Expr.binary op e r).evaluateWithin env limit).outcome ≠ .error .tooDeep) →
      (∀ link ∈ links, ∃ op l,
        (env.functions.IsTotal ∨ ∀ m, (l.evaluateWithin env limit).outcome ≠ .error (.raised m)) ∧
        ((Expr.binary op l link.2).evaluateWithin env limit).outcome ≠ .error .tooDeep) →
      ((joinAll e links).evaluateWithin env limit).outcome ≠ .error .tooDeep) ∧
    (∀ (limit : Nat) (tier : Tier) (before after : List Lexeme) (d : Derivation (.phrase (.chain tier))),
      Opens tier (.phrase (.chain .bitOr)) before → (Phrase.chain tier).Stops after →
      (∀ x ∈ d.operands, ∃ t source, IsPair t x ∧ IsTextOf source (before ++ (t.lexemes ++ after)) ∧
        FitsWithin limit source) →
      ∀ source, IsTextOf source (before ++ (d.lexemes ++ after)) → FitsWithin limit source) ∧
    ∀ (limit : Nat) (tier : Tier) (before rest : List Lexeme) (d : Derivation (.phrase (.chain tier))) (s : Symbol)
      (op : Operator), Opens tier (.phrase (.chain .bitOr)) before → Joins tier s op →
      (∀ x ∈ d.operands, ∃ t after source, IsPair t x ∧ (Phrase.chain tier).Stops after ∧
        IsTextOf source (before ++ (t.lexemes ++ after)) ∧ FitsWithin limit source) →
      (∃ (y : Derivation (.phrase tier.operand)) (s' : Symbol) (op' : Operator) (source : String), Joins tier s' op' ∧
        IsTextOf source (before ++ (y.lexemes ++ .symbol s' :: rest)) ∧ FitsWithin limit source) →
      ∀ source, IsTextOf source (before ++ (d.lexemes ++ .symbol s :: rest)) → FitsWithin limit source := by
  have hne : ∀ {p : Phrase} (before : List Lexeme) (d : Derivation (.phrase p)) (after : List Lexeme),
      before ++ (d.lexemes ++ after) ≠ [] := by
    intro p before d after h
    exact d.lexemes_ne_nil (List.append_eq_nil_iff.mp (List.append_eq_nil_iff.mp h).2).1
  refine ⟨fun env limit e links => Expr.evaluate_chain, ?_, ?_⟩
  · intro limit tier before after d hopens hafter h source hsource
    rw [fitsWithin_iff hsource (hne before d after)]
    refine fits_chain hopens hafter d fun x hx => ?_
    obtain ⟨t, source', hpair, htext, hfits⟩ := h x hx
    exact ⟨t, hpair, (fitsWithin_iff htext (hne before t after)).mp hfits⟩
  · intro limit tier before rest d s op hopens joins h hlast source hsource
    obtain ⟨y, s', op', source', joins', htext, hfits⟩ := hlast
    rw [fitsWithin_iff hsource (hne before d _)]
    refine fits_chain_joins hopens joins joins' y ((fitsWithin_iff htext (hne before y _)).mp hfits) d fun x hx => ?_
    obtain ⟨t, after, source'', hpair, hafter, htext, hfits⟩ := h x hx
    exact ⟨t, after, hpair, hafter, (fitsWithin_iff htext (hne before t after)).mp hfits⟩

/-- A chain inside a call, with no level of nesting to spare. -/
theorem chains_not_tooDeep_in_call :
    FitsWithin 2 "f(a*b)" ∧ ¬ FitsWithin 1 "f(a*b)" ∧ FitsWithin 2 "f(a*b*a*b)" := by
  have hpair : FitsWithin 2 "f(a*b)" := by
    have hparse : Expr.parseWithin 2 "f(a*b)" = .ok (.call "f" [.binary .mul (.name "a") (.name "b")]) := by rfl
    intro column h
    cases hparse.symm.trans h
  have hdeep : ¬ FitsWithin 1 "f(a*b)" := fun h => h 3 (by rfl)
  refine ⟨hpair, hdeep, ?_⟩
  let a : Derivation (.phrase Tier.product.operand) := .unsigned (.plain (.name "a"))
  let b : Derivation (.phrase Tier.product.operand) := .unsigned (.plain (.name "b"))
  let ab : Derivation (.phrase (.chain .product)) := .chain a (.link .star .mul .star b .done)
  have hoperands : ab.operands = [a, b] := by simp only [ab, Derivation.operands, Derivation.rights]
  have hopens : Opens .product (.phrase (.chain .bitOr)) [.name "f", .symbol .opening] :=
    .first (.first (.first (.first (.unsigned (.base (.call "f" (.argument (.first (.first (.first .here))))))))))
  refine chains_not_tooDeep.2.1 2 .product _ _
    (.chain a (.link .star .mul .star b (.link .star .mul .star a (.link .star .mul .star b .done))))
    hopens (closing_stops _ []) ?_ _ ⟨_, rfl, rfl⟩
  intro x hx
  refine ⟨ab, "f(a*b)", ⟨by rw [hoperands]; rfl, ?_⟩, ⟨_, rfl, rfl⟩, hpair⟩
  rw [hoperands]
  simp only [Derivation.operands, Derivation.rights, List.mem_cons, List.not_mem_nil, or_false] at hx ⊢
  rcases hx with h | h | h | h <;> simp only [h, true_or, or_true]

end Calculator
