import Calculator.Proofs.Grammar.Equations
import Calculator.Proofs.Grammar.Unambiguous

/-!
# Lexemes that no derivation goes on with

`Impossible nt read l`: behind `read` no derivation of the nonterminal, nor what may follow one, goes on with `l`. What
is impossible within a part of a derivation is so within the whole, one lemma for each place that a part can have.
-/

namespace Calculator.Grammar
open Grammar.Derivation

def Impossible (nt : Nonterminal) (read : List Lexeme) (l : Lexeme) : Prop :=
  ∀ (d : Derivation nt) (rest after : List Lexeme), Stops nt rest → d.lexemes ++ rest ≠ read ++ l :: after

/-! ## Stopping by the next lexeme -/

/-- Whether a phrase can go on is seen at the next lexeme. -/
theorem Phrase.Stops.head {p : Phrase} {l : Lexeme} {rest rest' : List Lexeme} (h : p.Stops (l :: rest)) :
    p.Stops (l :: rest') := fun s hs => h s hs

theorem Phrase.Stops.behind {p : Phrase} {read rest rest' : List Lexeme} {l : Lexeme}
    (h : p.Stops (read ++ l :: rest)) : p.Stops (read ++ l :: rest') := by
  cases read <;> exact Phrase.Stops.head h

theorem joins_of_continuation {tier : Tier} {s : Symbol} (h : s ∈ (Phrase.chain tier).continuations)
    (ho : s ∉ tier.operand.continuations) : ∃ op, Joins tier s op := by
  have hsome : (tier.operator? s).isSome = true := by
    revert h ho
    cases tier <;> cases s <;> decide
  obtain ⟨op, hop⟩ := Option.isSome_iff_exists.mp hsome
  exact ⟨op, Tier.operator?_eq_some_iff.mp hop⟩

theorem Phrase.Stops.chain {tier : Tier} {ahead : List Lexeme} (h : tier.operand.Stops ahead)
    (hj : ∀ s op, Joins tier s op → ahead.head? ≠ some (.symbol s)) : (Phrase.chain tier).Stops ahead := by
  intro s hs
  by_cases ho : s ∈ tier.operand.continuations
  · exact h s ho
  · obtain ⟨op, joins⟩ := joins_of_continuation hs ho
    exact hj s op joins

theorem not_stops_joined {tier : Tier} {s : Symbol} {op : Operator} (joins : Joins tier s op) (rest : List Lexeme) :
    ¬ (Phrase.chain tier).Stops (.symbol s :: rest) :=
  fun h => h s (continuation joins) rfl

/-! ## At the start -/

theorem impossible_head {p : Phrase} {starts : Lexeme → Bool}
    (heads : ∀ d : Derivation (.phrase p), ∃ l ls, d.lexemes = l :: ls ∧ starts l = true) {l : Lexeme}
    (h : starts l = false) : Impossible (.phrase p) [] l := by
  intro d rest after _ he
  obtain ⟨l', ls, hd, hl⟩ := heads d
  rw [hd, List.cons_append, List.nil_append, List.cons.injEq] at he
  rw [← he.1, hl] at h
  cases h

theorem impossible_start {p : Phrase} {l : Lexeme} (h : startsOperand l = false) : Impossible (.phrase p) [] l :=
  impossible_head head_phrase h

theorem impossible_primary {l : Lexeme} (h : startsPrimary l = false) : Impossible (.phrase .primary) [] l :=
  impossible_head head_primary h

/-! ## In a chain -/

section
variable {tier : Tier} {read : List Lexeme} {l : Lexeme}

theorem impossible_first (h : Impossible (.phrase tier.operand) read l) :
    Impossible (.phrase (.chain tier)) read l := by
  intro d rest after hs he
  cases d with
  | chain first more =>
    rw [lexemes, List.append_assoc] at he
    exact h first _ after (more_stops more hs) he

theorem impossible_right {s : Symbol} {op : Operator} (joins : Joins tier s op)
    (h : Impossible (.phrase tier.operand) read l) : Impossible (.more tier) (.symbol s :: read) l := by
  intro d rest after hs he
  cases d with
  | done =>
    rw [lexemes, List.nil_append] at he
    rw [he] at hs
    exact not_stops_joined joins _ hs
  | link s' op' joins' right more =>
    simp only [lexemes, List.cons_append, List.append_assoc, List.cons.injEq] at he
    exact h right _ after (more_stops more hs) he.2

variable (d : Derivation (.phrase tier.operand))

theorem impossible_behind_first {rest : List Lexeme} (hd : tier.operand.Stops (read ++ l :: rest))
    (h : Impossible (.more tier) read l) : Impossible (.phrase (.chain tier)) (d.lexemes ++ read) l := by
  intro d' rest' after hs he
  cases d' with
  | chain first more =>
    rw [lexemes, List.append_assoc, List.append_assoc] at he
    obtain ⟨-, hr⟩ := determined first d (more_stops more hs) hd.behind he
    exact h more rest' after hs hr

theorem impossible_behind_right {s : Symbol} {op : Operator} (joins : Joins tier s op) {rest : List Lexeme}
    (hd : tier.operand.Stops (read ++ l :: rest)) (h : Impossible (.more tier) read l) :
    Impossible (.more tier) (.symbol s :: (d.lexemes ++ read)) l := by
  intro d' rest' after hs he
  cases d' with
  | done =>
    rw [lexemes, List.nil_append] at he
    rw [he] at hs
    exact not_stops_joined joins _ hs
  | link s' op' joins' right more =>
    simp only [lexemes, List.cons_append, List.append_assoc, List.cons.injEq] at he
    obtain ⟨-, hr⟩ := determined right d (more_stops more hs) hd.behind he.2
    exact h more rest' after hs hr

end

/-! ## Under a sign and in a power -/

section
variable {read : List Lexeme} {l : Lexeme}

theorem impossible_signed {s : Symbol} {sign : Sign} (signs : Signs s sign) (h : Impossible (.phrase .unary) read l) :
    Impossible (.phrase .unary) (.symbol s :: read) l := by
  intro d rest after hs he
  cases d with
  | signed s' sign' signs' operand =>
    simp only [lexemes, List.cons_append, List.cons.injEq] at he
    exact h operand rest after hs he.2
  | unsigned power =>
    obtain ⟨l', ls, hp, hl⟩ := head_power power
    simp only [lexemes, hp, List.cons_append, List.cons.injEq] at he
    rw [he.1] at hl
    cases signs <;> cases hl

theorem impossible_unsigned (hn : ∀ s sign, Signs s sign → (read ++ [l]).head? ≠ some (.symbol s))
    (h : Impossible (.phrase .power) read l) : Impossible (.phrase .unary) read l := by
  intro d rest after hs he
  cases d with
  | signed s sign signs operand =>
    refine hn s sign signs ?_
    have hhead : (read ++ l :: after).head? = some (.symbol s) := by rw [← he]; rfl
    cases read <;> exact hhead
  | unsigned power => exact h power rest after hs he

theorem impossible_base (h : Impossible (.phrase .primary) read l) : Impossible (.phrase .power) read l := by
  intro d rest after hs he
  cases d with
  | plain base => exact h base rest after (power_stops_base hs) he
  | raised base exponent =>
    rw [lexemes, List.append_assoc, List.cons_append] at he
    exact h base _ after (caret_stops_base _) he

/-- Where a primary ends is clear from itself or from the next lexeme. -/
def Ends (base : Derivation (.phrase .primary)) (rest : List Lexeme) : Prop :=
  base.Delimited ∨ Phrase.primary.Stops rest

theorem Ends.determined {base : Derivation (.phrase .primary)} {rest : List Lexeme} (h : Ends base rest)
    (d : Derivation (.phrase .primary)) {rest' : List Lexeme} (h' : Phrase.primary.Stops rest')
    (he : d.lexemes ++ rest' = base.lexemes ++ rest) : rest' = rest := by
  rcases h with hd | hs
  · exact (hd d h' he.symm).2.symm
  · exact (Derivation.determined d base h' hs he).2

variable (base : Derivation (.phrase .primary))

theorem impossible_callee (hb : base.Delimited) : Impossible (.phrase .power) base.lexemes (.symbol .opening) := by
  intro d rest after hs he
  cases d with
  | plain base' =>
    obtain rfl := Ends.determined (.inl hb) base' (power_stops_base hs) he
    exact hs .opening (by decide) rfl
  | raised base' exponent =>
    rw [lexemes, List.append_assoc, List.cons_append] at he
    cases Ends.determined (.inl hb) base' (caret_stops_base _) he

theorem impossible_exponent (h : Impossible (.phrase .unary) read l) :
    Impossible (.phrase .power) (base.lexemes ++ .symbol .caret :: read) l := by
  intro d rest after hs he
  rw [List.append_assoc, List.cons_append] at he
  cases d with
  | plain base' =>
    obtain rfl := Ends.determined (.inr (caret_stops_base _)) base' (power_stops_base hs) he
    exact hs .caret (by decide) rfl
  | raised base' exponent =>
    rw [lexemes, List.append_assoc, List.cons_append] at he
    have hx := Ends.determined (.inr (caret_stops_base _)) base' (caret_stops_base _) he
    rw [List.cons.injEq] at hx
    exact h exponent rest after hs hx.2

end

/-! ## In parentheses -/

section
variable {read : List Lexeme} {l : Lexeme}

theorem impossible_call (f : String) (h : Impossible .arguments read l) :
    Impossible (.phrase .primary) (.name f :: .symbol .opening :: read) l := by
  intro d rest after hs he
  cases d with
  | name n =>
    simp only [lexemes, List.cons_append, List.nil_append, List.cons.injEq] at he
    rw [he.2] at hs
    exact hs .opening (by decide) rfl
  | call f' args =>
    simp only [lexemes, List.cons_append, List.append_assoc, List.cons.injEq, true_and] at he
    exact h args (.symbol .closing :: rest) after rfl he.2
  | _ => simp [lexemes] at he

theorem impossible_inner (h : Impossible (.phrase (.chain .bitOr)) read l) :
    Impossible (.phrase .primary) (.symbol .opening :: read) l := by
  intro d rest after hs he
  cases d with
  | group inner =>
    simp only [lexemes, List.cons_append, List.append_assoc, List.nil_append, List.cons.injEq, true_and] at he
    exact h inner _ after (closing_stops _ rest) he
  | _ => simp [lexemes] at he

theorem impossible_close (inner : Expression) {rest : List Lexeme} (hs : (Phrase.chain .bitOr).Stops (l :: rest))
    (hl : l ≠ .symbol .closing) : Impossible (.phrase .primary) (.symbol .opening :: inner.lexemes) l := by
  intro d rest' after _ he
  cases d with
  | group inner' =>
    simp only [lexemes, List.cons_append, List.append_assoc, List.nil_append, List.cons.injEq, true_and] at he
    obtain ⟨-, hr⟩ := determined inner' inner (closing_stops _ rest') (Phrase.Stops.head hs) he
    rw [List.cons.injEq] at hr
    exact hl hr.1.symm
  | _ => simp [lexemes] at he

theorem impossible_empty : Impossible (.phrase .primary) [.symbol .opening] (.symbol .closing) :=
  impossible_inner (impossible_start rfl)

/-! ## Among arguments -/

theorem impossible_firstArgument (hc : (read ++ [l]).head? ≠ some (.symbol .closing))
    (h : Impossible (.phrase (.chain .bitOr)) read l) : Impossible .arguments read l := by
  intro d rest after hs he
  cases d with
  | noArguments =>
    rw [lexemes, List.nil_append] at he
    rw [he] at hs
    exact hc (by cases read <;> exact hs)
  | someArguments first more =>
    rw [lexemes, List.append_assoc] at he
    exact h first _ after (moreArguments_stops more hs _) he

theorem impossible_nextArgument (h : Impossible (.phrase (.chain .bitOr)) read l) :
    Impossible .moreArguments (.symbol .comma :: read) l := by
  intro d rest after hs he
  cases d with
  | noMore =>
    rw [lexemes, List.nil_append] at he
    rw [he] at hs
    cases hs
  | oneMore arg more =>
    simp only [lexemes, List.cons_append, List.append_assoc, List.cons.injEq, true_and] at he
    exact h arg _ after (moreArguments_stops more hs _) he

theorem impossible_noMore (hcomma : l ≠ .symbol .comma) (hclosing : l ≠ .symbol .closing) :
    Impossible .moreArguments [] l := by
  intro d rest after hs he
  cases d with
  | noMore =>
    rw [lexemes, List.nil_append, List.nil_append] at he
    rw [he] at hs
    exact hclosing (Option.some.inj hs)
  | oneMore arg more =>
    simp only [lexemes, List.cons_append, List.nil_append, List.cons.injEq] at he
    exact hcomma he.1.symm

variable (arg : Expression) {rest : List Lexeme} (hd : (Phrase.chain .bitOr).Stops (read ++ l :: rest))
include hd

theorem impossible_behind_firstArgument (h : Impossible .moreArguments read l) :
    Impossible .arguments (arg.lexemes ++ read) l := by
  intro d rest' after hs he
  rw [List.append_assoc] at he
  cases d with
  | noArguments =>
    obtain ⟨l', ls, ha, hl⟩ := head_phrase arg
    rw [lexemes, List.nil_append, ha, List.cons_append] at he
    rw [he] at hs
    cases hs
    cases hl
  | someArguments first more =>
    rw [lexemes, List.append_assoc] at he
    obtain ⟨-, hr⟩ := determined first arg (moreArguments_stops more hs _) hd.behind he
    exact h more rest' after hs hr

theorem impossible_behind_argument (h : Impossible .moreArguments read l) :
    Impossible .moreArguments (.symbol .comma :: (arg.lexemes ++ read)) l := by
  intro d rest' after hs he
  cases d with
  | noMore =>
    rw [lexemes, List.nil_append] at he
    rw [he] at hs
    cases hs
  | oneMore arg' more =>
    simp only [lexemes, List.cons_append, List.append_assoc, List.cons.injEq, true_and] at he
    obtain ⟨-, hr⟩ := determined arg' arg (moreArguments_stops more hs _) hd.behind he
    exact h more rest' after hs hr

end

end Calculator.Grammar
