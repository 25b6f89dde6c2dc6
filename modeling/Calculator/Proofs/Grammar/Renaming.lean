import Calculator.Proofs.Grammar.Equations
import Calculator.Proofs.Token.LetterCase

/-!
# Names do not steer reading

`ofLexemes_rename`: lexemes with their names replaced spell the tree with its names replaced in the same way, or have
the same fault at the same place.
-/

namespace Calculator

mutual

def Expr.rename (f : String → String) : Expr → Expr
  | .number x => .number x
  | .name n => .name (f n)
  | .signed s e => .signed s (e.rename f)
  | .binary op l r => .binary op (l.rename f) (r.rename f)
  | .group e => .group (e.rename f)
  | .call g args => .call (f g) (Expr.renameAll f args)
  | .foreign kind => .foreign kind

def Expr.renameAll (f : String → String) : List Expr → List Expr
  | [] => []
  | e :: es => e.rename f :: Expr.renameAll f es

end

theorem Expr.renameAll_eq_map (f : String → String) (es : List Expr) : renameAll f es = es.map (rename f) := by
  induction es with
  | nil => rfl
  | cons e es ih => rw [renameAll, ih, List.map_cons]

def GrammarFault.rename (f : String → String) : GrammarFault → GrammarFault
  | unexpected l => unexpected (l.rename f)
  | fault => fault

def GrammarError.rename (f : String → String) (e : GrammarError) : GrammarError := { e with fault := e.fault.rename f }

namespace Grammar
variable {f : String → String}

theorem rename_eq_symbol_iff {s : Symbol} {l : Lexeme} : l.rename f = .symbol s ↔ l = .symbol s := by
  cases l <;> simp [Lexeme.rename]

theorem head?_rename_iff {s : Symbol} {ahead : List Lexeme} :
    (ahead.map (·.rename f)).head? = some (.symbol s) ↔ ahead.head? = some (.symbol s) := by
  cases ahead with
  | nil => rfl
  | cons l _ => simp [rename_eq_symbol_iff]

def renamed (f : String → String) {α β : Type} (g : α → β) (x : Except GrammarError α) : Except GrammarError β :=
  (x.map g).mapError (·.rename f)

theorem renamed_bind {α α' β β' : Type} {g : α → α'} {h : β → β'} {k : α → Except GrammarError β}
    {k' : α' → Except GrammarError β'} (x : Except GrammarError α) (hk : ∀ a, k' (g a) = renamed f h (k a)) :
    (renamed f g x).bind k' = renamed f h (x.bind k) := by
  cases x with
  | error e => rfl
  | ok a => exact hk a

theorem fail_rename {α β : Type} (g : α → β) (fault : GrammarFault) (ahead : List Lexeme) :
    Reader.fail (fault.rename f) (ahead.map (·.rename f)) = renamed f g (Reader.fail fault ahead) := by
  unfold Reader.fail
  rw [List.length_map]
  rfl

theorem unexpected_rename {α β : Type} (g : α → β) (ahead : List Lexeme) :
    Reader.unexpected (ahead.map (·.rename f)) = renamed f g (Reader.unexpected ahead) := by
  cases ahead with
  | nil => rfl
  | cons l rest =>
    rw [List.map_cons]
    by_cases hl : l = .symbol .closing
    · subst hl
      exact fail_rename g .unmatchedClosing (_ :: rest)
    · rw [Reader.unexpected, Reader.unexpected]
      · exact fail_rename g (.unexpected l) (l :: rest)
      · exact hl
      · exact fun h => hl (rename_eq_symbol_iff.mp h)

theorem close_rename (opened ahead : List Lexeme) :
    Reader.close (opened.map (·.rename f)) (ahead.map (·.rename f)) =
      renamed f (List.map (·.rename f)) (Reader.close opened ahead) := by
  cases ahead with
  | nil => exact fail_rename _ .unmatchedOpening opened
  | cons l rest =>
    by_cases hl : l = .symbol .closing
    · subst hl
      rfl
    · rw [List.map_cons, Reader.close, Reader.close]
      · exact unexpected_rename _ (l :: rest)
      · simpa using hl
      · simp
      · simpa [rename_eq_symbol_iff] using hl
      · simp

/-- What is read of lexemes with their names replaced is what is read of the lexemes, replaced by `g`. -/
def Renames (f : String → String) {α : Type} (g : α → α) (r : Reader α) : Prop :=
  ∀ ahead, r (ahead.map (·.rename f)) = renamed f (Prod.map g (List.map (·.rename f))) (r ahead)

/-! ## Chains -/

section
variable {operand : Reader Expr} (ho : Renames f (Expr.rename f) operand)
include ho

theorem chainFrom_rename (tier : Tier) : ∀ (room : Nat) (left : Expr) (ahead : List Lexeme),
    Reader.chainFrom tier.operator? operand room (left.rename f) (ahead.map (·.rename f)) =
      renamed f (Prod.map (Expr.rename f) (List.map (·.rename f)))
        (Reader.chainFrom tier.operator? operand room left ahead)
  | 0, _, _ => rfl
  | room + 1, left, ahead => by
    rcases linked_or_not tier ahead with ⟨s, op, rest, hj, rfl⟩ | hj
    · rw [List.map_cons, Lexeme.rename, chainFrom_link hj, chainFrom_link hj, ho rest]
      exact renamed_bind _ fun p => chainFrom_rename tier room (.binary op left p.1) p.2
    · rw [chainFrom_stop hj, chainFrom_stop]
      · rfl
      · exact fun s op hs hh => hj s op hs (head?_rename_iff.mp hh)

theorem chain_rename (tier : Tier) (room : Nat) :
    Renames f (Expr.rename f) (Reader.chain tier.operator? room operand) := by
  intro ahead
  rw [chain_eq, chain_eq, ho ahead]
  exact renamed_bind _ fun p => chainFrom_rename ho tier room p.1 p.2

theorem expression_rename (room : Nat) : Renames f (Expr.rename f) (Reader.expression room operand) := by
  have hproduct := chain_rename ho .product room
  have hsum := chain_rename hproduct .sum room
  have hand := chain_rename hsum .bitAnd room
  exact chain_rename hand .bitOr room

end

/-! ## Arguments and primaries -/

section
variable {inner : Reader Expr} (hi : Renames f (Expr.rename f) inner)
include hi

theorem argument_rename : Renames f (Expr.rename f) (Reader.argument inner) := by
  intro ahead
  by_cases hcomma : ahead.head? = some (.symbol .comma)
  · obtain ⟨rest, rfl⟩ := List.head?_eq_some_iff.mp hcomma
    exact fail_rename _ .emptyArgument (_ :: rest)
  · by_cases hclosing : ahead.head? = some (.symbol .closing)
    · obtain ⟨rest, rfl⟩ := List.head?_eq_some_iff.mp hclosing
      exact fail_rename _ .emptyArgument (_ :: rest)
    · have hinner : ∀ ls : List Lexeme, ls.head? ≠ some (.symbol .comma) → ls.head? ≠ some (.symbol .closing) →
          Reader.argument inner ls = inner ls := by
        intro ls hcomma hclosing
        rw [Reader.argument]
        · rintro rest rfl
          exact hcomma rfl
        · rintro rest rfl
          exact hclosing rfl
      rw [hinner _ hcomma hclosing, hinner, hi ahead]
      · rwa [ne_eq, head?_rename_iff]
      · rwa [ne_eq, head?_rename_iff]

theorem argumentsFrom_rename : ∀ (room : Nat) (read : List Expr) (ahead : List Lexeme),
    Reader.argumentsFrom inner room (read.map (Expr.rename f)) (ahead.map (·.rename f)) =
      renamed f (Prod.map (List.map (Expr.rename f)) (List.map (·.rename f)))
        (Reader.argumentsFrom inner room read ahead)
  | 0, read, ahead => by
    simp only [Reader.argumentsFrom, ← List.map_reverse]
    rfl
  | room + 1, read, ahead => by
    by_cases hc : ahead.head? = some (.symbol .comma)
    · obtain ⟨rest, rfl⟩ := List.head?_eq_some_iff.mp hc
      rw [List.map_cons, Lexeme.rename, argumentsFrom_comma, argumentsFrom_comma, argument_rename hi rest]
      exact renamed_bind _ fun p => argumentsFrom_rename room (p.1 :: read) p.2
    · rw [argumentsFrom_stop hc, argumentsFrom_stop, ← List.map_reverse]
      · rfl
      · rwa [ne_eq, head?_rename_iff]

theorem arguments_rename (room : Nat) : Renames f (List.map (Expr.rename f)) (Reader.arguments room inner) := by
  intro ahead
  by_cases hc : ahead.head? = some (.symbol .closing)
  · obtain ⟨rest, rfl⟩ := List.head?_eq_some_iff.mp hc
    rfl
  · rw [arguments_some hc, arguments_some, argument_rename hi ahead]
    · exact renamed_bind _ fun p => argumentsFrom_rename hi room [p.1] p.2
    · rwa [ne_eq, head?_rename_iff]

theorem primary_rename (room : Nat) : Renames f (Expr.rename f) (Reader.primary room inner)
  | [] => rfl
  | .number n :: rest => rfl
  | .name n :: rest => by
    rw [List.map_cons, Lexeme.rename]
    by_cases hc : rest.head? = some (.symbol .opening)
    · obtain ⟨tail, rfl⟩ := List.head?_eq_some_iff.mp hc
      rw [List.map_cons, Lexeme.rename, primary_call, primary_call, arguments_rename hi room tail]
      refine renamed_bind _ fun p => ?_
      show (Reader.close ((.symbol .opening :: tail).map (·.rename f)) (p.2.map (·.rename f))).bind _ = _
      rw [close_rename]
      refine renamed_bind _ fun after => ?_
      show Except.ok (Expr.call _ (p.1.map _), _) = .ok (Expr.call _ (Expr.renameAll f p.1), _)
      rw [Expr.renameAll_eq_map]
    · rw [primary_name hc, primary_name]
      · rfl
      · rwa [ne_eq, head?_rename_iff]
  | .symbol s :: rest => by
    rw [List.map_cons, Lexeme.rename]
    by_cases hs : s = .opening
    · subst hs
      by_cases hc : rest.head? = some (.symbol .closing)
      · obtain ⟨tail, rfl⟩ := List.head?_eq_some_iff.mp hc
        exact fail_rename _ .emptyParentheses (_ :: tail)
      · rw [primary_group hc, primary_group, hi rest]
        · refine renamed_bind _ fun p => ?_
          show (Reader.close ((.symbol .opening :: rest).map (·.rename f)) (p.2.map (·.rename f))).bind _ = _
          rw [close_rename]
          exact renamed_bind _ fun after => rfl
        · rwa [ne_eq, head?_rename_iff]
    · have hother : ∀ ls : List Lexeme, ∀ l ∈ (Lexeme.symbol s :: ls).head?, startsPrimary l = false := by
        simpa [startsPrimary] using hs
      rw [primary_other (hother _), primary_other (hother _)]
      exact unexpected_rename _ (.symbol s :: rest)

end

/-! ## Powers and signs -/

section
variable {operand : Reader Expr} (ho : Renames f (Expr.rename f) operand)
include ho

theorem raise_rename (base : Expr) (after : List Lexeme) :
    raise operand (base.rename f, after.map (·.rename f)) =
      renamed f (Prod.map (Expr.rename f) (List.map (·.rename f))) (raise operand (base, after)) := by
  rcases after with _ | ⟨l, rest⟩
  · rfl
  · by_cases hopening : l = .symbol .opening
    · subst hopening
      exact fail_rename _ .calleeNotName (_ :: rest)
    · by_cases hcaret : l = .symbol .caret
      · subst hcaret
        show (operand (rest.map _)).bind _ = renamed _ _ ((operand rest).bind _)
        rw [ho rest]
        exact renamed_bind _ fun p => rfl
      · have hneither : ∀ (e : Expr) (l : Lexeme) (ls : List Lexeme), l ≠ .symbol .opening → l ≠ .symbol .caret →
            raise operand (e, l :: ls) = .ok (e, l :: ls) := by
          intro e l ls hopening hcaret
          rw [raise]
          · simpa using hopening
          · simpa using hcaret
        rw [List.map_cons, hneither _ _ _ hopening hcaret, hneither]
        · rfl
        · rwa [ne_eq, rename_eq_symbol_iff]
        · rwa [ne_eq, rename_eq_symbol_iff]

theorem power_rename (room : Nat) : Renames f (Expr.rename f) (Reader.power room operand) := by
  intro ahead
  rw [power_eq, power_eq, primary_rename (expression_rename ho room) room ahead]
  exact renamed_bind _ fun p => raise_rename ho p.1 p.2

end

theorem operand_rename (room : Nat) : ∀ limit, Renames f (Expr.rename f) (Reader.operand room limit)
  | 0, ahead => fail_rename _ .tooDeep ahead
  | limit + 1, ahead => by
    have ho := operand_rename room limit
    rcases signed_or_not ahead with ⟨s, sign, rest, hs, rfl⟩ | hs
    · rw [List.map_cons, Lexeme.rename, operand_signed hs, operand_signed hs, ho rest]
      exact renamed_bind _ fun p => rfl
    · rw [operand_unsigned hs, operand_unsigned]
      · exact power_rename ho room ahead
      · exact fun s sign hsign hh => hs s sign hsign (head?_rename_iff.mp hh)

/-! ## Whole texts -/

theorem ofLexemes_rename (limit : Nat) (lexemes : List Lexeme) :
    Expr.ofLexemes limit (lexemes.map (·.rename f)) = renamed f (Expr.rename f) (Expr.ofLexemes limit lexemes) := by
  cases lexemes with
  | nil => rfl
  | cons l ls =>
    have hread := expression_rename (operand_rename (f := f) (l :: ls).length limit) (l :: ls).length (l :: ls)
    rw [List.map_cons, Expr.ofLexemes, Expr.ofLexemes]
    · rw [← List.map_cons, List.length_map, hread]
      cases Reader.expression (l :: ls).length (Reader.operand (l :: ls).length limit) (l :: ls) with
      | error e => rfl
      | ok p =>
        obtain ⟨e, ahead⟩ := p
        cases ahead with
        | nil => rfl
        | cons l rest => exact unexpected_rename _ (l :: rest)
    · simp
    · simp

end Grammar
end Calculator
