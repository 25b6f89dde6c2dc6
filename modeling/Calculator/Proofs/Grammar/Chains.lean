import Calculator.Proofs.Grammar.Extent

/-!
# Chains take no depth

`fits_chain`: a chain within a text is not too deep if none of its operands is where it is one of two. What the text
around a chain does to a reading depends on where the chain ends and not on the chain (`Opens.splits`).
-/

namespace Calculator.Grammar
open Grammar.Derivation

/-! ## The text before a chain -/

inductive Opens (tier : Tier) : Nonterminal → List Lexeme → Prop
  | here : Opens tier (.phrase (.chain tier)) []
  | first {t : Tier} {before : List Lexeme} (inner : Opens tier (.phrase t.operand) before) :
      Opens tier (.phrase (.chain t)) before
  | behind {t : Tier} {before : List Lexeme} (first : Derivation (.phrase t.operand))
      (inner : Opens tier (.more t) before) : Opens tier (.phrase (.chain t)) (first.lexemes ++ before)
  | right {t : Tier} {s : Symbol} {op : Operator} {before : List Lexeme} (joins : Joins t s op)
      (inner : Opens tier (.phrase t.operand) before) : Opens tier (.more t) (.symbol s :: before)
  | next {t : Tier} {s : Symbol} {op : Operator} {before : List Lexeme} (joins : Joins t s op)
      (right : Derivation (.phrase t.operand)) (inner : Opens tier (.more t) before) :
      Opens tier (.more t) (.symbol s :: (right.lexemes ++ before))
  | signed {s : Symbol} {sign : Sign} {before : List Lexeme} (signs : Signs s sign)
      (inner : Opens tier (.phrase .unary) before) : Opens tier (.phrase .unary) (.symbol s :: before)
  | unsigned {before : List Lexeme} (inner : Opens tier (.phrase .power) before) :
      Opens tier (.phrase .unary) before
  | base {before : List Lexeme} (inner : Opens tier (.phrase .primary) before) : Opens tier (.phrase .power) before
  | exponent {before : List Lexeme} (base : Derivation (.phrase .primary))
      (inner : Opens tier (.phrase .unary) before) :
      Opens tier (.phrase .power) (base.lexemes ++ .symbol .caret :: before)
  | group {before : List Lexeme} (inner : Opens tier (.phrase (.chain .bitOr)) before) :
      Opens tier (.phrase .primary) (.symbol .opening :: before)
  | call {before : List Lexeme} (f : String) (inner : Opens tier .arguments before) :
      Opens tier (.phrase .primary) (.name f :: .symbol .opening :: before)
  | argument {before : List Lexeme} (inner : Opens tier (.phrase (.chain .bitOr)) before) :
      Opens tier .arguments before
  | behindArgument {before : List Lexeme} (first : Expression) (inner : Opens tier .moreArguments before) :
      Opens tier .arguments (first.lexemes ++ before)
  | nextArgument {before : List Lexeme} (inner : Opens tier (.phrase (.chain .bitOr)) before) :
      Opens tier .moreArguments (.symbol .comma :: before)
  | behindNext {before : List Lexeme} (arg : Expression) (inner : Opens tier .moreArguments before) :
      Opens tier .moreArguments (.symbol .comma :: (arg.lexemes ++ before))

/-- The lexeme by which one sees that the nonterminal has begun. -/
def Enters : Nonterminal → List Lexeme → Prop
  | .phrase .power, ahead | .phrase .primary, ahead => ∃ l, ahead.head? = some l ∧ startsPrimary l = true
  | .phrase _, ahead | .arguments, ahead => BeginsOperand ahead
  | .more tier, ahead => ∃ s op, Joins tier s op ∧ ahead.head? = some (.symbol s)
  | .moreArguments, ahead => ahead.head? = some (.symbol .comma)

theorem Enters.phrase {p : Phrase} {ahead : List Lexeme} (h : Enters (.phrase p) ahead) : BeginsOperand ahead := by
  cases p with
  | chain tier => exact h
  | unary => exact h
  | power =>
    obtain ⟨l, hl, hs⟩ := h
    exact ⟨l, hl, startsOperand_of_startsPrimary hs⟩
  | primary =>
    obtain ⟨l, hl, hs⟩ := h
    exact ⟨l, hl, startsOperand_of_startsPrimary hs⟩

theorem enters_lexemes {p : Phrase} (d : Derivation (.phrase p)) (rest : List Lexeme) :
    Enters (.phrase p) (d.lexemes ++ rest) := by
  cases p with
  | chain tier => exact beginsOperand_append d rest
  | unary => exact beginsOperand_append d rest
  | power =>
    obtain ⟨l, ls, h, hl⟩ := head_power d
    exact ⟨l, by simp [h], hl⟩
  | primary =>
    obtain ⟨l, ls, h, hl⟩ := head_primary d
    exact ⟨l, by simp [h], hl⟩

theorem Opens.enters {tier : Tier} {nt : Nonterminal} {before rest : List Lexeme} (h : Opens tier nt before)
    (hrest : BeginsOperand rest) : Enters nt (before ++ rest) := by
  induction h with
  | here => exact hrest
  | first inner ih => exact ih.phrase
  | behind first inner ih =>
    rw [List.append_assoc]
    exact beginsOperand_append first _
  | right joins inner ih => exact ⟨_, _, joins, rfl⟩
  | next joins right inner ih => exact ⟨_, _, joins, rfl⟩
  | signed signs inner ih => exact ⟨_, rfl, by cases signs <;> rfl⟩
  | unsigned inner ih => exact ih.phrase
  | base inner ih => exact ih
  | exponent base inner ih =>
    rw [List.append_assoc]
    exact enters_lexemes base _
  | group inner ih => exact ⟨_, rfl, rfl⟩
  | call f inner ih => exact ⟨_, rfl, rfl⟩
  | argument inner ih => exact ih
  | behindArgument first inner ih =>
    rw [List.append_assoc]
    exact beginsOperand_append first _
  | nextArgument inner ih => rfl
  | behindNext arg inner ih => rfl

/-! ## What the text around a chain depends on -/

/-- The reading is too deep whatever chain comes, or it goes on from where the chain ends. -/
def Splits (tier : Tier) (r : List Lexeme → Except GrammarFault (List Lexeme)) : Prop :=
  (∀ rest, BeginsOperand rest → r rest = .error .tooDeep) ∨
    ∃ limit next, ∀ rest, BeginsOperand rest → r rest = (extent limit (.phrase (.chain tier)) rest).bind next

namespace Splits
variable {tier : Tier} {r r' : List Lexeme → Except GrammarFault (List Lexeme)}

theorem congr (h : Splits tier r) (hr : ∀ rest, BeginsOperand rest → r' rest = r rest) : Splits tier r' := by
  rcases h with hdeep | ⟨limit, next, hnext⟩
  · exact .inl fun rest hrest => (hr rest hrest).trans (hdeep rest hrest)
  · exact .inr ⟨limit, next, fun rest hrest => (hr rest hrest).trans (hnext rest hrest)⟩

theorem bind (h : Splits tier r) (after : List Lexeme → Except GrammarFault (List Lexeme)) :
    Splits tier fun rest => (r rest).bind after := by
  rcases h with hdeep | ⟨limit, next, hnext⟩
  · exact .inl fun rest hrest => congrArg (·.bind after) (hdeep rest hrest)
  · refine .inr ⟨limit, fun rest => (next rest).bind after, fun rest hrest => ?_⟩
    simp only [hnext rest hrest]
    cases extent limit (.phrase (.chain tier)) rest <;> rfl

theorem behind {before : List Lexeme} {after : List Lexeme → Except GrammarFault (List Lexeme)}
    (h : Splits tier fun rest => after (before ++ rest)) (depth limit : Nat) :
    Splits tier fun rest => (admitted depth limit (before ++ rest)).bind after := by
  by_cases hd : depth ≤ limit
  · refine h.congr fun rest _ => ?_
    simp only [admitted, if_pos hd]
    rfl
  · refine .inl fun rest _ => ?_
    simp only [admitted, if_neg hd]
    rfl

end Splits

theorem not_sign {l : Lexeme} {ahead : List Lexeme} (hl : startsPrimary l = true) (hhead : ahead.head? = some l)
    (s : Symbol) (sign : Sign) (signs : Signs s sign) : ahead.head? ≠ some (.symbol s) := by
  rw [hhead]
  rintro ⟨⟩
  cases signs <;> cases hl

theorem stops_of_enters {tier : Tier} {ahead : List Lexeme} (h : Enters (.more tier) ahead) :
    tier.operand.Stops ahead := by
  obtain ⟨s, op, joins, hs⟩ := h
  obtain ⟨rest, rfl⟩ := List.head?_eq_some_iff.mp hs
  exact Phrase.stops_symbol (not_continuation joins)

theorem stops_of_comma (p : Phrase) {ahead : List Lexeme} (h : Enters .moreArguments ahead) : p.Stops ahead := by
  obtain ⟨rest, rfl⟩ := List.head?_eq_some_iff.mp h
  exact comma_stops p rest

theorem Opens.splits {tier : Tier} {nt : Nonterminal} {before : List Lexeme} (h : Opens tier nt before) :
    ∀ limit, Splits tier fun rest => extent limit nt (before ++ rest) := by
  induction h with
  | here =>
    intro limit
    refine .inr ⟨limit, .ok, fun rest _ => ?_⟩
    simp only [List.nil_append]
    cases extent limit (.phrase (.chain tier)) rest <;> rfl
  | @first t before inner ih =>
    intro limit
    exact ((ih limit).bind (extent limit (.more t))).congr fun rest _ => extent_chain
  | @behind t before first inner ih =>
    intro limit
    refine ((ih limit).behind first.depth limit).congr fun rest hrest => ?_
    rw [List.append_assoc, extent_chain, extent_lexemes first (stops_of_enters (inner.enters hrest))]
  | @right t s op before joins inner ih =>
    intro limit
    exact ((ih limit).bind (extent limit (.more t))).congr fun rest _ => extent_link joins
  | @next t s op before joins right inner ih =>
    intro limit
    refine ((ih limit).behind right.depth limit).congr fun rest hrest => ?_
    rw [List.cons_append, List.append_assoc, extent_link joins,
      extent_lexemes right (stops_of_enters (inner.enters hrest))]
  | signed signs inner ih =>
    intro limit
    cases limit with
    | zero => exact .inl fun _ _ => rfl
    | succ limit => exact (ih limit).congr fun rest _ => extent_signed signs
  | unsigned inner ih =>
    intro limit
    cases limit with
    | zero => exact .inl fun _ _ => rfl
    | succ limit =>
      refine (ih limit).congr fun rest hrest => ?_
      obtain ⟨l, hhead, hl⟩ := inner.enters hrest
      exact extent_unsigned (not_sign hl hhead)
  | base inner ih =>
    intro limit
    exact ((ih limit).bind (raiseEnd (extent limit (.phrase .unary)))).congr fun rest _ => extent_power
  | @exponent before base inner ih =>
    intro limit
    have hafter : Splits tier fun rest =>
        raiseEnd (extent limit (.phrase .unary)) (.symbol .caret :: before ++ rest) := ih limit
    refine (hafter.behind base.depth limit).congr fun rest _ => ?_
    rw [List.append_assoc, List.cons_append, extent_power, extent_lexemes base (caret_stops_base _)]
  | group inner ih =>
    intro limit
    refine ((ih limit).bind closeEnd).congr fun rest hrest => ?_
    exact extent_group (inner.enters hrest).phrase.ne_closing
  | call f inner ih =>
    intro limit
    exact ((ih limit).bind closeEnd).congr fun rest _ => extent_call f
  | argument inner ih =>
    intro limit
    refine ((ih limit).bind (extent limit .moreArguments)).congr fun rest hrest => ?_
    exact extent_arguments (inner.enters hrest).phrase
  | @behindArgument before first inner ih =>
    intro limit
    refine ((ih limit).behind first.depth limit).congr fun rest hrest => ?_
    rw [List.append_assoc, extent_arguments (beginsOperand_append first _),
      extent_lexemes first (stops_of_comma _ (inner.enters hrest))]
  | nextArgument inner ih =>
    intro limit
    refine ((ih limit).bind (extent limit .moreArguments)).congr fun rest hrest => ?_
    exact extent_comma (inner.enters hrest).phrase
  | @behindNext before arg inner ih =>
    intro limit
    refine ((ih limit).behind arg.depth limit).congr fun rest hrest => ?_
    rw [List.cons_append, List.append_assoc, extent_comma (beginsOperand_append arg _),
      extent_lexemes arg (stops_of_comma _ (inner.enters hrest))]

/-! ## Operands -/

namespace Derivation
variable {tier : Tier}

/-- The operands behind the first. -/
def rights : Derivation (.more tier) → List (Derivation (.phrase tier.operand))
  | done => []
  | link _ _ _ right more => right :: more.rights

def operands : Derivation (.phrase (.chain tier)) → List (Derivation (.phrase tier.operand))
  | chain first more => first :: more.rights

theorem depth_le_iff_rights {limit : Nat} : ∀ more : Derivation (.more tier),
    more.depth ≤ limit ↔ ∀ x ∈ more.rights, x.depth ≤ limit
  | done => by simp [depth, rights]
  | link _ _ _ right more => by
    rw [depth, rights, List.forall_mem_cons, Nat.max_le, depth_le_iff_rights more]

theorem depth_le_iff {limit : Nat} : ∀ d : Derivation (.phrase (.chain tier)),
    d.depth ≤ limit ↔ ∀ x ∈ d.operands, x.depth ≤ limit
  | chain first more => by
    rw [depth, operands, List.forall_mem_cons, Nat.max_le, depth_le_iff_rights]

theorem exists_mem_operands : ∀ d : Derivation (.phrase (.chain tier)), ∃ x, x ∈ d.operands
  | chain first _ => ⟨first, List.mem_cons_self⟩

end Derivation

/-! ## Chains of which an operand fails -/

section
variable {tier : Tier} {s : Symbol} {op : Operator} (joins : Joins tier s op) (rest : List Lexeme) {limit : Nat}
include joins

theorem more_stops_joins : ∀ more : Derivation (.more tier),
    tier.operand.Stops (more.lexemes ++ .symbol s :: rest)
  | done => Phrase.stops_symbol (not_continuation joins)
  | link _ _ joins' _ _ => Phrase.stops_symbol (not_continuation joins')

theorem extent_more_joins : ∀ more : Derivation (.more tier), more.depth ≤ limit →
    extent limit (.more tier) (more.lexemes ++ .symbol s :: rest) =
      (extent limit (.phrase tier.operand) rest).bind (extent limit (.more tier))
  | done, _ => extent_link joins
  | link s' op' joins' right more, h => by
    rw [depth, Nat.max_le] at h
    rw [lexemes, List.cons_append, List.append_assoc, extent_link joins',
      extent_lexemes right (more_stops_joins joins rest more), admitted, if_pos h.1]
    exact extent_more_joins more h.2

theorem extent_joins : ∀ d : Derivation (.phrase (.chain tier)), d.depth ≤ limit →
    extent limit (.phrase (.chain tier)) (d.lexemes ++ .symbol s :: rest) =
      (extent limit (.phrase tier.operand) rest).bind (extent limit (.more tier))
  | chain first more, h => by
    rw [depth, Nat.max_le] at h
    rw [lexemes, List.append_assoc, extent_chain, extent_lexemes first (more_stops_joins joins rest more), admitted,
      if_pos h.1]
    exact extent_more_joins joins rest more h.2

end

/-! ## Chains among lexemes -/

def IsPair {tier : Tier} (t : Derivation (.phrase (.chain tier))) (x : Derivation (.phrase tier.operand)) : Prop :=
  t.operands.length = 2 ∧ x ∈ t.operands

def Fits (limit : Nat) (nt : Nonterminal) (ls : List Lexeme) : Prop := extent limit nt ls ≠ .error .tooDeep

section
variable {tier : Tier} {nt : Nonterminal} {before : List Lexeme} (hopens : Opens tier nt before)
  {limit : Nat}
include hopens

/-- The text before a chain that fits leaves it a limit of its own, and the text behind it is read from its end. -/
theorem exists_limit_of_fits {rest : List Lexeme} (hrest : BeginsOperand rest) (h : Fits limit nt (before ++ rest)) :
    ∃ limit' next, ∀ rest, BeginsOperand rest →
      extent limit nt (before ++ rest) = (extent limit' (.phrase (.chain tier)) rest).bind next := by
  rcases hopens.splits limit with hdeep | hnext
  · exact absurd (hdeep rest hrest) h
  · exact hnext

omit hopens in
theorem fits_iff {limit' : Nat} {next : List Lexeme → Except GrammarFault (List Lexeme)}
    (hnext : ∀ rest, BeginsOperand rest →
      extent limit nt (before ++ rest) = (extent limit' (.phrase (.chain tier)) rest).bind next)
    {after : List Lexeme} (hafter : (Phrase.chain tier).Stops after) (d : Derivation (.phrase (.chain tier))) :
    Fits limit nt (before ++ (d.lexemes ++ after)) ↔ d.depth ≤ limit' ∧ next after ≠ .error .tooDeep := by
  rw [Fits, hnext _ (beginsOperand_append d after), extent_lexemes d hafter, admitted]
  split
  · rename_i hd
    exact ⟨fun h => ⟨hd, h⟩, fun h => h.2⟩
  · rename_i hd
    exact ⟨fun h => absurd rfl h, fun h => absurd h.1 hd⟩

theorem fits_chain {after : List Lexeme} (hafter : (Phrase.chain tier).Stops after)
    (d : Derivation (.phrase (.chain tier)))
    (h : ∀ x ∈ d.operands, ∃ t, IsPair t x ∧ Fits limit nt (before ++ (t.lexemes ++ after))) :
    Fits limit nt (before ++ (d.lexemes ++ after)) := by
  obtain ⟨x, hx⟩ := d.exists_mem_operands
  obtain ⟨t, -, ht⟩ := h x hx
  obtain ⟨limit', next, hnext⟩ := exists_limit_of_fits hopens (beginsOperand_append t after) ht
  refine (fits_iff hnext hafter d).mpr ⟨d.depth_le_iff.mpr fun x hx => ?_, ((fits_iff hnext hafter t).mp ht).2⟩
  obtain ⟨t, ⟨-, hmem⟩, ht⟩ := h x hx
  exact t.depth_le_iff.mp ((fits_iff hnext hafter t).mp ht).1 x hmem

/-- The lexemes behind the last operator need not be an operand. -/
theorem fits_chain_joins {s s' : Symbol} {op op' : Operator} (joins : Joins tier s op) (joins' : Joins tier s' op')
    {rest : List Lexeme} (y : Derivation (.phrase tier.operand))
    (hy : Fits limit nt (before ++ (y.lexemes ++ .symbol s' :: rest))) (d : Derivation (.phrase (.chain tier)))
    (h : ∀ x ∈ d.operands, ∃ t after, IsPair t x ∧ (Phrase.chain tier).Stops after ∧
      Fits limit nt (before ++ (t.lexemes ++ after))) :
    Fits limit nt (before ++ (d.lexemes ++ .symbol s :: rest)) := by
  obtain ⟨limit', next, hnext⟩ := exists_limit_of_fits hopens (beginsOperand_append y _) hy
  have hd : d.depth ≤ limit' := d.depth_le_iff.mpr fun x hx => by
    obtain ⟨t, after, ⟨-, hmem⟩, hafter, ht⟩ := h x hx
    exact t.depth_le_iff.mp ((fits_iff hnext hafter t).mp ht).1 x hmem
  rw [Fits, hnext _ (beginsOperand_append y _)] at hy
  rw [Fits, hnext _ (beginsOperand_append d _), extent_joins joins rest d hd]
  have hystops : tier.operand.Stops (.symbol s' :: rest) := Phrase.stops_symbol (not_continuation joins')
  rw [extent_chain, extent_lexemes y hystops, admitted] at hy
  split at hy
  · rwa [Except.bind, extent_link joins'] at hy
  · exact absurd rfl hy

end

end Calculator.Grammar
