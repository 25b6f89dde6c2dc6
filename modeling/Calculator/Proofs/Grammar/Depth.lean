import Calculator.Proofs.Grammar.Soundness
import Calculator.Proofs.Grammar.Unambiguous

/-!
# Limits of nesting

`operand_agrees`: a reader with a limit either gives up, which it does only on a list at least as long as the
limit, or answers exactly as a reader with any larger limit.
-/

namespace Calculator.Grammar
open Grammar.Derivation

/-- The nesting was too deep for the first result, which happens only if `deep`, or it was not and the
results are the same. -/
def Agrees {α : Type} (deep : Prop) (x y : Except GrammarError α) : Prop :=
  (deep ∧ ∃ k, x = .error ⟨.tooDeep, k⟩) ∨ ((∀ k, x ≠ .error ⟨.tooDeep, k⟩) ∧ x = y)

section
variable {α β : Type} {deep : Prop}

theorem Agrees.same {x : Except GrammarError α} (h : ∀ k, x ≠ .error ⟨.tooDeep, k⟩) : Agrees deep x x :=
  .inr ⟨h, rfl⟩

theorem Agrees.ok (a : α) : Agrees deep (.ok a) (.ok a) := .same fun k => by simp

theorem Agrees.fail {fault : GrammarFault} (h : fault ≠ .tooDeep) (ahead : List Lexeme) :
    Agrees deep (Reader.fail (α := α) fault ahead) (Reader.fail fault ahead) :=
  .same fun k he => by cases he; exact h rfl

theorem Agrees.unexpected (ahead : List Lexeme) :
    Agrees deep (Reader.unexpected (α := α) ahead) (Reader.unexpected ahead) := by
  unfold Reader.unexpected
  split
  · exact .fail (by decide) _
  · exact .fail (by decide) _
  · exact .fail (by simp) _

theorem Agrees.close (opened ahead : List Lexeme) :
    Agrees deep (Reader.close opened ahead) (Reader.close opened ahead) := by
  unfold Reader.close
  split
  · exact .ok _
  · exact .fail (by decide) _
  · exact .unexpected _

theorem Agrees.mono {deep' : Prop} (h : deep → deep') {x y : Except GrammarError α} (hx : Agrees deep x y) :
    Agrees deep' x y := by
  rcases hx with ⟨hd, hk⟩ | hx
  · exact .inl ⟨h hd, hk⟩
  · exact .inr hx

theorem Agrees.bind {x y : Except GrammarError α} {f g : α → Except GrammarError β} (h : Agrees deep x y)
    (hf : ∀ a, x = .ok a → Agrees deep (f a) (g a)) : Agrees deep (x.bind f) (y.bind g) := by
  rcases h with ⟨hd, k, rfl⟩ | ⟨hx, rfl⟩
  · exact .inl ⟨hd, k, rfl⟩
  · cases x with
    | error e => exact .same fun k he => hx k (by cases he; rfl)
    | ok a => exact hf a rfl

end

def Agree (limit : Nat) {α : Type} (r r' : Reader α) : Prop :=
  ∀ ahead, Agrees (limit ≤ ahead.length) (r ahead) (r' ahead)

theorem Agree.behind {limit n : Nat} {α : Type} {r r' : Reader α} (h : Agree limit r r') {ahead : List Lexeme}
    (hn : ahead.length ≤ n) : Agrees (limit ≤ n) (r ahead) (r' ahead) :=
  (h ahead).mono fun hl => Nat.le_trans hl hn

/-! ## Chains -/

section
variable {limit : Nat} {tier : Tier} {operand operand' : Reader Expr}
  (ho : Sound (.phrase tier.operand) operand) (ha : Agree limit operand operand')
include ho ha

theorem chainFrom_agree : ∀ (room : Nat) (left : Expr),
    Agree limit (Reader.chainFrom tier.operator? operand room left)
      (Reader.chainFrom tier.operator? operand' room left)
  | 0, _, _ => .ok _
  | room + 1, left, ahead => by
    rcases linked_or_not tier ahead with ⟨s, op, rest, hj, rfl⟩ | hj
    · rw [chainFrom_link hj, chainFrom_link hj]
      refine (ha.behind (Nat.le_succ _)).bind fun p hp => ?_
      exact (chainFrom_agree room _).behind (Nat.le_succ_of_le (ho.length_le hp))
    · rw [chainFrom_stop hj, chainFrom_stop hj]
      exact .ok _

variable (tier) in
theorem chain_agree (room : Nat) : Agree limit (Reader.chain tier.operator? room operand)
    (Reader.chain tier.operator? room operand') := by
  intro ahead
  rw [chain_eq, chain_eq]
  exact (ha ahead).bind fun p hp => (chainFrom_agree ho ha room _).behind (ho.length_le hp)

end

theorem expression_agree {limit : Nat} {operand operand' : Reader Expr} (ho : Sound (.phrase .unary) operand)
    (ha : Agree limit operand operand') (room : Nat) :
    Agree limit (Reader.expression room operand) (Reader.expression room operand') := by
  have product : Sound (.phrase (.chain .product)) _ := chain_sound .product ho room
  have sum : Sound (.phrase (.chain .sum)) _ := chain_sound .sum product room
  have and : Sound (.phrase (.chain .bitAnd)) _ := chain_sound .bitAnd sum room
  have hproduct := chain_agree .product ho ha room
  have hsum := chain_agree .sum product hproduct room
  have hand := chain_agree .bitAnd sum hsum room
  exact chain_agree .bitOr and hand room

/-! ## Arguments and primaries -/

section
variable {limit : Nat} {inner inner' : Reader Expr} (hi : Sound (.phrase (.chain .bitOr)) inner)
  (ha : Agree limit inner inner')

include ha in
theorem argument_agree : Agree limit (Reader.argument inner) (Reader.argument inner') := by
  intro ahead
  unfold Reader.argument
  split
  · exact .fail (by decide) _
  · exact .fail (by decide) _
  · exact ha ahead

include hi ha

theorem argumentsFrom_agree : ∀ (room : Nat) (read : List Expr),
    Agree limit (Reader.argumentsFrom inner room read) (Reader.argumentsFrom inner' room read)
  | 0, _, _ => by
    simp only [Reader.argumentsFrom]
    exact .ok _
  | room + 1, read, ahead => by
    by_cases hc : ahead.head? = some (.symbol .comma)
    · obtain ⟨rest, rfl⟩ := List.head?_eq_some_iff.mp hc
      rw [argumentsFrom_comma, argumentsFrom_comma]
      refine ((argument_agree ha).behind (Nat.le_succ _)).bind fun p hp => ?_
      exact (argumentsFrom_agree room _).behind (Nat.le_succ_of_le (hi.length_le (argument_eq_ok hp)))
    · rw [argumentsFrom_stop hc, argumentsFrom_stop hc]
      exact .ok _

theorem arguments_agree (room : Nat) :
    Agree limit (Reader.arguments room inner) (Reader.arguments room inner') := by
  intro ahead
  by_cases hc : ahead.head? = some (.symbol .closing)
  · obtain ⟨rest, rfl⟩ := List.head?_eq_some_iff.mp hc
    exact .ok _
  · rw [arguments_some hc, arguments_some hc]
    refine (argument_agree ha ahead).bind fun p hp => ?_
    exact (argumentsFrom_agree hi ha room _).behind (hi.length_le (argument_eq_ok hp))

theorem primary_agree (room : Nat) : Agree (limit + 1) (Reader.primary room inner) (Reader.primary room inner')
  | [] => by
    rw [primary_other (by simp), primary_other (by simp)]
    exact .unexpected _
  | .number n :: rest => .ok _
  | .name n :: rest => by
    by_cases hc : rest.head? = some (.symbol .opening)
    · obtain ⟨tail, rfl⟩ := List.head?_eq_some_iff.mp hc
      rw [primary_call, primary_call]
      refine ((arguments_agree hi ha room tail).mono fun h => ?_).bind fun p _ =>
        (Agrees.close _ _).bind fun q _ => .ok _
      simp only [List.length_cons]; omega
    · rw [primary_name hc, primary_name hc]
      exact .ok _
  | .symbol s :: rest => by
    by_cases hs : s = .opening
    · subst hs
      by_cases hc : rest.head? = some (.symbol .closing)
      · obtain ⟨tail, rfl⟩ := List.head?_eq_some_iff.mp hc
        exact .fail (by decide) _
      · rw [primary_group hc, primary_group hc]
        refine ((ha rest).mono fun h => ?_).bind fun p _ => (Agrees.close _ _).bind fun q _ => .ok _
        simp only [List.length_cons]; omega
    · rw [primary_other (by simpa [startsPrimary] using hs), primary_other (by simpa [startsPrimary] using hs)]
      exact .unexpected _

end

/-! ## Powers and signs -/

section
variable {limit : Nat} {operand operand' : Reader Expr} (ho : Sound (.phrase .unary) operand)
  (ha : Agree limit operand operand')

include ha in
theorem raise_agrees {base : Expr} {after : List Lexeme} {n : Nat} (hn : after.length < n) :
    Agrees (limit + 1 ≤ n) (raise operand (base, after)) (raise operand' (base, after)) := by
  unfold raise
  split
  · exact .fail (by decide) _
  · rename_i he
    cases he
    refine ((ha _).mono fun h => ?_).bind fun p _ => .ok _
    simp only [List.length_cons] at hn; omega
  · exact .ok _

include ho ha

theorem power_agree (room : Nat) : Agree (limit + 1) (Reader.power room operand) (Reader.power room operand') := by
  intro ahead
  have hs := expression_sound ho room
  rw [power_eq, power_eq]
  refine (primary_agree hs (expression_agree ho ha room) room ahead).bind fun p hp => raise_agrees ha ?_
  obtain ⟨d, rfl, -⟩ := primary_sound hs room _ _ _ hp
  obtain ⟨l, ls, hd, -⟩ := head_primary d
  rw [hd, List.length_append, List.length_cons]
  omega

end

theorem operand_agree (room : Nat) {limit' : Nat} : ∀ {limit : Nat}, limit ≤ limit' →
    Agree limit (Reader.operand room limit) (Reader.operand room limit')
  | 0, _, ahead => .inl ⟨Nat.zero_le _, _, rfl⟩
  | limit + 1, h, ahead => by
    obtain ⟨limit', rfl⟩ : ∃ m, limit' = m + 1 := ⟨limit' - 1, by omega⟩
    have ha := operand_agree room (Nat.le_of_succ_le_succ h)
    rcases signed_or_not ahead with ⟨s, sign, rest, hs, rfl⟩ | hs
    · rw [operand_signed hs, operand_signed hs]
      refine ((ha rest).mono fun h => ?_).bind fun p _ => .ok _
      simp only [List.length_cons]; omega
    · rw [operand_unsigned hs, operand_unsigned hs]
      exact power_agree (operand_sound room limit) ha room ahead

/-! ## Whole texts -/

theorem ofLexemes_agrees {limit limit' : Nat} (h : limit ≤ limit') (lexemes : List Lexeme) :
    Agrees (limit ≤ lexemes.length) (Expr.ofLexemes limit lexemes) (Expr.ofLexemes limit' lexemes) := by
  unfold Expr.ofLexemes
  split
  · exact .fail (by decide) _
  · have hs := operand_sound lexemes.length limit
    rcases expression_agree hs (operand_agree lexemes.length h) lexemes.length lexemes with ⟨hd, k, hk⟩ | ⟨hk, he⟩
    · exact .inl ⟨hd, k, by simp only [hk]⟩
    · simp only [← he]
      split
      · rename_i e he
        exact .same fun k hek => hk k (by rw [he]; cases hek; rfl)
      · exact .ok _
      · exact .unexpected _

end Calculator.Grammar
