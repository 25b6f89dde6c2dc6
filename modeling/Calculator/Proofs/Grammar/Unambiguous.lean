import Calculator.Proofs.Grammar.Derivation

/-!
# The grammar is unambiguous

`lexemes_injective`: no list of lexemes has two derivations. The induction reads two derivations from the
front of one list at a time. They agree as long as what follows each of them is nothing that could have
been part of it, which `Stops` says by the next lexeme alone.
-/

namespace Calculator.Grammar

/-! ## What can follow and what can begin a phrase -/

/-- The symbols behind a phrase that would have belonged to it. -/
def Phrase.continuations : Phrase → List Symbol
  | primary => [.opening]
  | power => [.opening, .caret]
  | unary => [.opening, .caret]
  | chain .product => [.opening, .caret, .star, .slash, .percent]
  | chain .sum => [.opening, .caret, .star, .slash, .percent, .plus, .minus]
  | chain .bitAnd => [.opening, .caret, .star, .slash, .percent, .plus, .minus, .ampersand]
  | chain .bitOr => [.opening, .caret, .star, .slash, .percent, .plus, .minus, .ampersand, .bar]

def Phrase.Stops (p : Phrase) (ahead : List Lexeme) : Prop :=
  ∀ s ∈ p.continuations, ahead.head? ≠ some (.symbol s)

/-- A nonterminal cannot go on with the lexemes ahead. Arguments end at their parenthesis only. -/
def Stops : Nonterminal → List Lexeme → Prop
  | .phrase p, ahead => p.Stops ahead
  | .more tier, ahead => (Phrase.chain tier).Stops ahead
  | .arguments, ahead => ahead.head? = some (.symbol .closing)
  | .moreArguments, ahead => ahead.head? = some (.symbol .closing)

theorem Phrase.stops_nil (p : Phrase) : p.Stops [] := fun _ _ => by simp

theorem Phrase.stops_symbol {p : Phrase} {s : Symbol} {rest : List Lexeme} (h : s ∉ p.continuations) :
    p.Stops (.symbol s :: rest) := by
  intro t ht he
  simp only [List.head?_cons, Option.some.injEq, Lexeme.symbol.injEq] at he
  exact h (he ▸ ht)

theorem Phrase.Stops.mono {p q : Phrase} (h : ∀ s ∈ q.continuations, s ∈ p.continuations)
    {ahead : List Lexeme} (hp : p.Stops ahead) : q.Stops ahead := fun s hs => hp s (h s hs)

theorem stops_operand {tier : Tier} {ahead : List Lexeme} (h : (Phrase.chain tier).Stops ahead) :
    tier.operand.Stops ahead := by
  refine h.mono ?_
  cases tier <;> decide

theorem not_continuation {tier : Tier} {s : Symbol} {op : Operator} (h : Joins tier s op) :
    s ∉ tier.operand.continuations := by
  cases h <;> decide

theorem continuation {tier : Tier} {s : Symbol} {op : Operator} (h : Joins tier s op) :
    s ∈ (Phrase.chain tier).continuations := by
  cases h <;> decide

theorem closing_stops (p : Phrase) (rest : List Lexeme) : p.Stops (.symbol .closing :: rest) := by
  apply Phrase.stops_symbol
  cases p with
  | chain tier => cases tier <;> decide
  | _ => decide

theorem comma_stops (p : Phrase) (rest : List Lexeme) : p.Stops (.symbol .comma :: rest) := by
  apply Phrase.stops_symbol
  cases p with
  | chain tier => cases tier <;> decide
  | _ => decide

namespace Derivation

theorem head_primary (d : Derivation (.phrase .primary)) :
    ∃ l ls, d.lexemes = l :: ls ∧ startsPrimary l = true := by
  cases d with
  | number n => exact ⟨_, _, rfl, rfl⟩
  | name n => exact ⟨_, _, rfl, rfl⟩
  | call f args => exact ⟨_, _, rfl, rfl⟩
  | group inner => exact ⟨_, _, rfl, rfl⟩

theorem head_power (d : Derivation (.phrase .power)) :
    ∃ l ls, d.lexemes = l :: ls ∧ startsPrimary l = true := by
  cases d with
  | plain base => exact head_primary base
  | raised base exponent =>
    obtain ⟨l, ls, h, hl⟩ := head_primary base
    exact ⟨l, ls ++ .symbol .caret :: exponent.lexemes, by simp [lexemes, h], hl⟩

theorem startsOperand_of_startsPrimary {l : Lexeme} (h : startsPrimary l = true) : startsOperand l = true := by
  unfold startsOperand
  split
  · rfl
  · rfl
  · exact h

theorem head_phrase : ∀ {p : Phrase} (d : Derivation (.phrase p)),
    ∃ l ls, d.lexemes = l :: ls ∧ startsOperand l = true
  | _, .chain first more => by
    obtain ⟨l, ls, h, hl⟩ := head_phrase first
    exact ⟨l, ls ++ more.lexemes, by simp [lexemes, h], hl⟩
  | _, .signed s _ signs operand => ⟨.symbol s, operand.lexemes, rfl, by cases signs <;> rfl⟩
  | _, .unsigned power => by
    obtain ⟨l, ls, h, hl⟩ := head_power power
    exact ⟨l, ls, h, startsOperand_of_startsPrimary hl⟩
  | .power, d => by
    obtain ⟨l, ls, h, hl⟩ := head_power d
    exact ⟨l, ls, h, startsOperand_of_startsPrimary hl⟩
  | .primary, d => by
    obtain ⟨l, ls, h, hl⟩ := head_primary d
    exact ⟨l, ls, h, startsOperand_of_startsPrimary hl⟩

/-! ## What follows a part of a derivation -/

theorem more_stops {tier : Tier} (more : Derivation (.more tier)) {rest : List Lexeme}
    (h : (Phrase.chain tier).Stops rest) : tier.operand.Stops (more.lexemes ++ rest) := by
  cases more with
  | done => exact stops_operand h
  | link s op joins right more => exact Phrase.stops_symbol (not_continuation joins)

theorem moreArguments_stops (more : Derivation .moreArguments) {rest : List Lexeme}
    (h : rest.head? = some (.symbol .closing)) (p : Phrase) : p.Stops (more.lexemes ++ rest) := by
  cases more with
  | noMore =>
    obtain ⟨tail, rfl⟩ := List.head?_eq_some_iff.mp h
    exact closing_stops p tail
  | oneMore arg more => exact comma_stops p _

/-! ## Two derivations of one list -/

/-- Of all derivations from the front of a list only this one stops where it stops. -/
def Determined {nt : Nonterminal} (d : Derivation nt) : Prop :=
  ∀ (d' : Derivation nt) {rest rest' : List Lexeme}, Stops nt rest → Stops nt rest' →
    d.lexemes ++ rest = d'.lexemes ++ rest' → d = d' ∧ rest = rest'

section
variable {tier : Tier} {right : Derivation (.phrase tier.operand)} {more : Derivation (.more tier)}

theorem determined_chain (hf : right.Determined) (hm : more.Determined) : (chain right more).Determined := by
  intro d' rest rest' h h' he
  cases d' with
  | chain right' more' =>
    simp only [lexemes, List.append_assoc] at he
    obtain ⟨rfl, hl⟩ := hf right' (more_stops more h) (more_stops more' h') he
    obtain ⟨rfl, hr⟩ := hm more' h h' hl
    exact ⟨rfl, hr⟩

theorem done_ne_link {s : Symbol} {op : Operator} (joins : Joins tier s op) {rest rest' : List Lexeme}
    (h : Stops (.more tier) rest) : rest ≠ (link s op joins right more).lexemes ++ rest' := by
  intro he
  rw [he] at h
  exact h s (continuation joins) rfl

theorem determined_done : (done : Derivation (.more tier)).Determined := by
  intro d' rest rest' h h' he
  cases d' with
  | done => exact ⟨rfl, he⟩
  | link s op joins right more => exact absurd he (done_ne_link joins h)

theorem determined_link {s : Symbol} {op : Operator} (joins : Joins tier s op) (hr : right.Determined)
    (hm : more.Determined) : (link s op joins right more).Determined := by
  intro d' rest rest' h h' he
  cases d' with
  | done => exact absurd he.symm (done_ne_link joins h')
  | link s' op' joins' right' more' =>
    simp only [lexemes, List.cons_append, List.append_assoc, List.cons.injEq, Lexeme.symbol.injEq] at he
    obtain ⟨rfl, he⟩ := he
    obtain rfl : op = op' := by cases joins <;> cases joins' <;> rfl
    obtain ⟨rfl, hl⟩ := hr right' (more_stops more h) (more_stops more' h') he
    obtain ⟨rfl, hrest⟩ := hm more' h h' hl
    exact ⟨rfl, hrest⟩

end

section
variable {operand : Derivation (.phrase .unary)} {power : Derivation (.phrase .power)}
  {base : Derivation (.phrase .primary)}

theorem signed_ne_unsigned {s : Symbol} {sign : Sign} (signs : Signs s sign) {rest rest' : List Lexeme} :
    (signed s sign signs operand).lexemes ++ rest ≠ (unsigned power).lexemes ++ rest' := by
  intro he
  obtain ⟨l, ls, hp, hl⟩ := head_power power
  simp only [lexemes, hp, List.cons_append, List.cons.injEq] at he
  rw [← he.1] at hl
  cases signs <;> cases hl

theorem determined_signed {s : Symbol} {sign : Sign} (signs : Signs s sign) (ho : operand.Determined) :
    (signed s sign signs operand).Determined := by
  intro d' rest rest' h h' he
  cases d' with
  | signed s' sign' signs' operand' =>
    simp only [lexemes, List.cons_append, List.cons.injEq, Lexeme.symbol.injEq] at he
    obtain ⟨rfl, he⟩ := he
    obtain rfl : sign = sign' := by cases signs <;> cases signs' <;> rfl
    obtain ⟨rfl, hr⟩ := ho operand' h h' he
    exact ⟨rfl, hr⟩
  | unsigned power => exact absurd he (signed_ne_unsigned signs)

theorem determined_unsigned (hp : power.Determined) : (unsigned power).Determined := by
  intro d' rest rest' h h' he
  cases d' with
  | signed s sign signs operand => exact absurd he.symm (signed_ne_unsigned signs)
  | unsigned power' =>
    obtain ⟨rfl, hr⟩ := hp power' h h' he
    exact ⟨rfl, hr⟩

theorem power_stops_base {rest : List Lexeme} (h : Phrase.power.Stops rest) : Phrase.primary.Stops rest :=
  h.mono (by decide)

theorem caret_stops_base (rest : List Lexeme) : Phrase.primary.Stops (.symbol .caret :: rest) :=
  Phrase.stops_symbol (by decide)

theorem determined_plain (hb : base.Determined) : (plain base).Determined := by
  intro d' rest rest' h h' he
  cases d' with
  | plain base' =>
    obtain ⟨rfl, hr⟩ := hb base' (power_stops_base h) (power_stops_base h') he
    exact ⟨rfl, hr⟩
  | raised base' exponent' =>
    simp only [lexemes, List.append_assoc, List.cons_append] at he
    obtain ⟨-, rfl⟩ := hb base' (power_stops_base h) (caret_stops_base _) he
    exact absurd rfl (h .caret (by decide))

theorem determined_raised (hb : base.Determined) (ho : operand.Determined) :
    (raised base operand).Determined := by
  intro d' rest rest' h h' he
  cases d' with
  | plain base' =>
    simp only [lexemes, List.append_assoc, List.cons_append] at he
    obtain ⟨-, rfl⟩ := hb base' (caret_stops_base _) (power_stops_base h') he
    exact absurd rfl (h' .caret (by decide))
  | raised base' operand' =>
    simp only [lexemes, List.append_assoc, List.cons_append] at he
    obtain ⟨rfl, hx⟩ := hb base' (caret_stops_base _) (caret_stops_base _) he
    simp only [List.cons.injEq, true_and] at hx
    obtain ⟨rfl, hr⟩ := ho operand' h h' hx
    exact ⟨rfl, hr⟩

end

section
variable {args : Derivation .arguments} {first : Expression} {more : Derivation .moreArguments}

def Delimited (d : Derivation (.phrase .primary)) : Prop :=
  ∀ (d' : Derivation (.phrase .primary)) {rest rest' : List Lexeme}, Phrase.primary.Stops rest' →
    d.lexemes ++ rest = d'.lexemes ++ rest' → d = d' ∧ rest = rest'

theorem Delimited.determined {d : Derivation (.phrase .primary)} (hd : d.Delimited) : d.Determined :=
  fun d' _ _ _ h' he => hd d' h' he

theorem delimited_number (n : Numeral) : (number n).Delimited := by
  intro d' rest rest' h' he
  cases d' with
  | number n' => simpa [lexemes] using he
  | _ => simp [lexemes] at he

theorem name_ne_call {n f : String} {rest rest' : List Lexeme} (h : Phrase.primary.Stops rest) :
    (name n).lexemes ++ rest ≠ (call f args).lexemes ++ rest' := by
  intro he
  simp only [lexemes, List.cons_append, List.nil_append, List.cons.injEq] at he
  rw [he.2] at h
  exact h .opening (by decide) rfl

theorem determined_name (n : String) : (name n).Determined := by
  intro d' rest rest' h h' he
  cases d' with
  | name n' => simpa [lexemes] using he
  | call f args => exact absurd he (name_ne_call h)
  | _ => simp [lexemes] at he

theorem delimited_call (f : String) (ha : args.Determined) : (call f args).Delimited := by
  intro d' rest rest' h' he
  cases d' with
  | name n => exact absurd he.symm (name_ne_call h')
  | call f' args' =>
    simp only [lexemes, List.cons_append, List.append_assoc, List.nil_append, List.cons.injEq,
      Lexeme.name.injEq, true_and] at he
    obtain ⟨rfl, he⟩ := he
    obtain ⟨rfl, hr⟩ := ha args' (by rfl) (by rfl) he
    simp only [List.cons.injEq, true_and] at hr
    exact ⟨rfl, hr⟩
  | _ => simp [lexemes] at he

theorem delimited_group (hi : first.Determined) : (group first).Delimited := by
  intro d' rest rest' h' he
  cases d' with
  | group first' =>
    simp only [lexemes, List.cons_append, List.append_assoc, List.nil_append, List.cons.injEq, true_and] at he
    obtain ⟨rfl, hr⟩ := hi first' (closing_stops _ rest) (closing_stops _ rest') he
    simp only [List.cons.injEq, true_and] at hr
    exact ⟨rfl, hr⟩
  | _ => simp [lexemes] at he

theorem noArguments_ne_someArguments {rest rest' : List Lexeme} (h : Stops .arguments rest) :
    rest ≠ (someArguments first more).lexemes ++ rest' := by
  intro he
  obtain ⟨l, ls, hf, hl⟩ := head_phrase first
  simp only [lexemes, hf, List.cons_append] at he
  rw [he] at h
  cases h
  cases hl

theorem determined_noArguments : noArguments.Determined := by
  intro d' rest rest' h h' he
  cases d' with
  | noArguments => exact ⟨rfl, he⟩
  | someArguments first more => exact absurd he (noArguments_ne_someArguments h)

theorem determined_someArguments (hf : first.Determined) (hm : more.Determined) :
    (someArguments first more).Determined := by
  intro d' rest rest' h h' he
  cases d' with
  | noArguments => exact absurd he.symm (noArguments_ne_someArguments h')
  | someArguments first' more' =>
    simp only [lexemes, List.append_assoc] at he
    obtain ⟨rfl, hl⟩ := hf first' (moreArguments_stops more h _) (moreArguments_stops more' h' _) he
    obtain ⟨rfl, hr⟩ := hm more' h h' hl
    exact ⟨rfl, hr⟩

theorem noMore_ne_oneMore {rest rest' : List Lexeme} (h : Stops .moreArguments rest) :
    rest ≠ (oneMore first more).lexemes ++ rest' := by
  intro he
  rw [he] at h
  cases h

theorem determined_noMore : noMore.Determined := by
  intro d' rest rest' h h' he
  cases d' with
  | noMore => exact ⟨rfl, he⟩
  | oneMore first more => exact absurd he (noMore_ne_oneMore h)

theorem determined_oneMore (hf : first.Determined) (hm : more.Determined) : (oneMore first more).Determined := by
  intro d' rest rest' h h' he
  cases d' with
  | noMore => exact absurd he.symm (noMore_ne_oneMore h')
  | oneMore first' more' =>
    simp only [lexemes, List.cons_append, List.append_assoc, List.cons.injEq, true_and] at he
    obtain ⟨rfl, hl⟩ := hf first' (moreArguments_stops more h _) (moreArguments_stops more' h' _) he
    obtain ⟨rfl, hr⟩ := hm more' h h' hl
    exact ⟨rfl, hr⟩

end

theorem determined {nt : Nonterminal} (d : Derivation nt) : d.Determined := by
  induction d with
  | chain first more hf hm => exact determined_chain hf hm
  | done => exact determined_done
  | link s op joins right more hr hm => exact determined_link joins hr hm
  | signed s sign signs operand ho => exact determined_signed signs ho
  | unsigned power hp => exact determined_unsigned hp
  | plain base hb => exact determined_plain hb
  | raised base exponent hb he => exact determined_raised hb he
  | number n => exact (delimited_number n).determined
  | name n => exact determined_name n
  | call f args ha => exact (delimited_call f ha).determined
  | group inner hi => exact (delimited_group hi).determined
  | noArguments => exact determined_noArguments
  | someArguments first more hf hm => exact determined_someArguments hf hm
  | noMore => exact determined_noMore
  | oneMore arg more ha hm => exact determined_oneMore ha hm

theorem lexemes_injective {d d' : Expression} (h : d.lexemes = d'.lexemes) : d = d' :=
  (determined d d' (Phrase.stops_nil _) (Phrase.stops_nil _) (by rw [h])).1

end Derivation
end Calculator.Grammar
