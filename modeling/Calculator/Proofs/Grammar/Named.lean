import Calculator.Proofs.Grammar.Soundness

/-!
# The lexeme that an error names

`ofLexemes_names`: an error that names a lexeme names one of the text.
-/

namespace Calculator.Grammar

def Names {α : Type} (ls : List Lexeme) (x : Except GrammarError α) : Prop :=
  ∀ l k, x = .error ⟨.unexpected l, k⟩ → l ∈ ls

namespace Names
variable {α β : Type} {ls : List Lexeme}

theorem ok (a : α) : Names ls (.ok a) := fun _ _ h => by cases h

theorem fail {fault : GrammarFault} (h : ∀ l, fault ≠ .unexpected l) (ahead : List Lexeme) :
    Names ls (Reader.fail fault ahead : Except GrammarError α) := by
  intro l k he
  cases he
  exact absurd rfl (h l)

theorem mono {ms : List Lexeme} (hsub : ls ⊆ ms) {x : Except GrammarError α} (h : Names ls x) : Names ms x :=
  fun l k he => hsub (h l k he)

theorem bind {x : Except GrammarError α} {f : α → Except GrammarError β} (hx : Names ls x)
    (hf : ∀ a, x = .ok a → Names ls (f a)) : Names ls (x.bind f) := by
  cases x with
  | error e =>
    intro l k he
    cases he
    exact hx l k rfl
  | ok a => exact hf a rfl

theorem unexpected (ls : List Lexeme) : Names ls (Reader.unexpected ls : Except GrammarError α) := by
  unfold Reader.unexpected
  split
  · exact .fail (by simp) _
  · exact .fail (by simp) _
  · intro l k he
    cases he
    exact List.mem_cons_self ..

theorem close (opened ls : List Lexeme) : Names ls (Reader.close opened ls) := by
  unfold Reader.close
  split
  · exact .ok _
  · exact .fail (by simp) _
  · exact .unexpected _

end Names

theorem Sound.subset {nt : Nonterminal} {r : Reader nt.Value} (h : Sound nt r) {ahead : List Lexeme}
    {p : nt.Value × List Lexeme} (hr : r ahead = .ok p) : p.2 ⊆ ahead := by
  obtain ⟨d, rfl, -⟩ := h _ _ _ hr
  exact List.subset_append_right _ _

def NamesAhead {α : Type} (r : Reader α) : Prop := ∀ ahead, Names ahead (r ahead)

/-! ## Chains -/

section
variable {tier : Tier} {operand : Reader Expr} (ho : Sound (.phrase tier.operand) operand) (hn : NamesAhead operand)
include ho hn

theorem chainFrom_names : ∀ (room : Nat) (left : Expr),
    NamesAhead (Reader.chainFrom tier.operator? operand room left)
  | 0, _, _ => .ok _
  | room + 1, left, ahead => by
    rcases linked_or_not tier ahead with ⟨s, op, rest, hj, rfl⟩ | hj
    · rw [chainFrom_link hj]
      refine .mono (List.subset_cons_self _ rest) ((hn rest).bind fun p hp => ?_)
      exact (chainFrom_names room _ p.2).mono (ho.subset hp)
    · rw [chainFrom_stop hj]
      exact .ok _

variable (tier) in
theorem chain_names (room : Nat) : NamesAhead (Reader.chain tier.operator? room operand) := by
  intro ahead
  rw [chain_eq]
  exact (hn ahead).bind fun p hp => (chainFrom_names ho hn room _ p.2).mono (ho.subset hp)

end

theorem expression_names {operand : Reader Expr} (ho : Sound (.phrase .unary) operand) (hn : NamesAhead operand)
    (room : Nat) : NamesAhead (Reader.expression room operand) := by
  have product : Sound (.phrase (.chain .product)) _ := chain_sound .product ho room
  have sum : Sound (.phrase (.chain .sum)) _ := chain_sound .sum product room
  have and : Sound (.phrase (.chain .bitAnd)) _ := chain_sound .bitAnd sum room
  have hproduct := chain_names .product ho hn room
  have hsum := chain_names .sum product hproduct room
  have hand := chain_names .bitAnd sum hsum room
  exact chain_names .bitOr and hand room

/-! ## Arguments and primaries -/

section
variable {inner : Reader Expr} (hi : Sound (.phrase (.chain .bitOr)) inner) (hn : NamesAhead inner)

include hn in
theorem argument_names : NamesAhead (Reader.argument inner) := by
  intro ahead
  unfold Reader.argument
  split
  · exact .fail (by simp) _
  · exact .fail (by simp) _
  · exact hn ahead

include hi hn

theorem argumentsFrom_names : ∀ (room : Nat) (read : List Expr),
    NamesAhead (Reader.argumentsFrom inner room read)
  | 0, _, _ => by
    simp only [Reader.argumentsFrom]
    exact .ok _
  | room + 1, read, ahead => by
    by_cases hc : ahead.head? = some (.symbol .comma)
    · obtain ⟨rest, rfl⟩ := List.head?_eq_some_iff.mp hc
      rw [argumentsFrom_comma]
      refine .mono (List.subset_cons_self _ rest) ((argument_names hn rest).bind fun p hp => ?_)
      exact (argumentsFrom_names room _ p.2).mono (hi.subset (argument_eq_ok hp))
    · rw [argumentsFrom_stop hc]
      exact .ok _

theorem arguments_names (room : Nat) : NamesAhead (Reader.arguments room inner) := by
  intro ahead
  by_cases hc : ahead.head? = some (.symbol .closing)
  · obtain ⟨rest, rfl⟩ := List.head?_eq_some_iff.mp hc
    exact .ok _
  · rw [arguments_some hc]
    refine (argument_names hn ahead).bind fun p hp => ?_
    exact (argumentsFrom_names hi hn room _ p.2).mono (hi.subset (argument_eq_ok hp))

theorem primary_names (room : Nat) : NamesAhead (Reader.primary room inner)
  | [] => by
    rw [primary_other (by simp)]
    exact .unexpected _
  | .number n :: rest => .ok _
  | .name n :: rest => by
    by_cases hc : rest.head? = some (.symbol .opening)
    · obtain ⟨tail, rfl⟩ := List.head?_eq_some_iff.mp hc
      rw [primary_call]
      have hsub : tail ⊆ .name n :: .symbol .opening :: tail :=
        List.subset_cons_of_subset _ (List.subset_cons_self _ _)
      refine .mono hsub ((arguments_names hi hn room tail).bind fun p hp => ?_)
      have hafter : p.2 ⊆ tail := (arguments_sound hi room).subset hp
      exact ((Names.close _ p.2).mono hafter).bind fun q _ => .ok _
    · rw [primary_name hc]
      exact .ok _
  | .symbol s :: rest => by
    by_cases hs : s = .opening
    · subst hs
      by_cases hc : rest.head? = some (.symbol .closing)
      · obtain ⟨tail, rfl⟩ := List.head?_eq_some_iff.mp hc
        exact .fail (by simp) _
      · rw [primary_group hc]
        refine .mono (List.subset_cons_self _ rest) ((hn rest).bind fun p hp => ?_)
        exact ((Names.close _ p.2).mono (hi.subset hp)).bind fun q _ => .ok _
    · rw [primary_other (by simpa [startsPrimary] using hs)]
      exact .unexpected _

end

/-! ## Powers and signs -/

section
variable {operand : Reader Expr} (ho : Sound (.phrase .unary) operand) (hn : NamesAhead operand)

include hn in
theorem raise_names (base : Expr) (after : List Lexeme) : Names after (raise operand (base, after)) := by
  unfold raise
  split
  · exact .fail (by simp) _
  · rename_i he
    cases he
    exact .mono (List.subset_cons_self _ _) ((hn _).bind fun p _ => .ok _)
  · exact .ok _

include ho hn

theorem power_names (room : Nat) : NamesAhead (Reader.power room operand) := by
  intro ahead
  have hs := expression_sound ho room
  rw [power_eq]
  refine (primary_names hs (expression_names ho hn room) room ahead).bind fun p hp => ?_
  exact (raise_names hn p.1 p.2).mono ((primary_sound hs room).subset hp)

end

theorem operand_names (room : Nat) : ∀ limit, NamesAhead (Reader.operand room limit)
  | 0, ahead => .fail (by simp) _
  | limit + 1, ahead => by
    have hn := operand_names room limit
    rcases signed_or_not ahead with ⟨s, sign, rest, hs, rfl⟩ | hs
    · rw [operand_signed hs]
      exact .mono (List.subset_cons_self _ rest) ((hn rest).bind fun p _ => .ok _)
    · rw [operand_unsigned hs]
      exact power_names (operand_sound room limit) hn room ahead

/-! ## Whole texts -/

theorem ofLexemes_names (limit : Nat) (ls : List Lexeme) : Names ls (Expr.ofLexemes limit ls) := by
  unfold Expr.ofLexemes
  split
  · exact .fail (by simp) _
  · have hs := expression_sound (operand_sound ls.length limit) ls.length
    have hn := expression_names (operand_sound ls.length limit) (operand_names ls.length limit) ls.length
    simp only
    split
    · rename_i e he
      intro l k hl
      cases hl
      exact hn ls l k he
    · exact .ok _
    · rename_i he
      exact (Names.unexpected _).mono (hs.subset he)

end Calculator.Grammar
