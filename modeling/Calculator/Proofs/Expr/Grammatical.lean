import Calculator.Proofs.Expr.RoundTrip
import Mathlib.Tactic.TFAE

/-!
# The trees that texts stand for

`readable_tfae`: a tree is read from some text exactly if its operators, signs and names can be spelled, its
numbers are neither NaN nor negative, and every operand stands at the level at which the grammar takes it.
-/

namespace Calculator.Expr
open Grammar Grammar.Derivation

mutual

/-- Every part can be spelled and every operand stands at its level. Groups and calls take any expression. -/
def isGrammatical : Expr → Bool
  | number x => !x.isNaN && !x.isNegative
  | name n => isName n
  | signed s e => s.isKnown && decide (Level.sign ≤ e.level) && e.isGrammatical
  | binary op l r =>
    decide (op ∈ Operator.known) && decide (op.leftLevel ≤ l.level) && decide (op.rightLevel ≤ r.level) &&
      l.isGrammatical && r.isGrammatical
  | group e => e.isGrammatical
  | call f args => isName f && allGrammatical args
  | foreign _ => false

def allGrammatical : List Expr → Bool
  | [] => true
  | e :: es => e.isGrammatical && allGrammatical es

end

/-! ## Trees that show themselves -/

theorem operandLevels_le_primary (op : Operator) : op.leftLevel ≤ Level.primary ∧ op.rightLevel ≤ Level.primary := by
  cases op with
  | other symbol => exact (by decide : Level.bitOr ≤ Level.primary ∧ Level.bitOr + 1 ≤ Level.primary)
  | _ => decide

theorem signedLevel_bounds (e : Expr) : Level.sign ≤ e.signedLevel ∧ e.signedLevel ≤ Level.primary := by
  cases e <;> simp [signedLevel, Level.sign, Level.primary]

theorem le_level_of_bracketed {e : Expr} {asked : Level} (ha : asked ≤ Level.primary)
    (h : e.bracketed asked e.written = e) : asked ≤ e.level ∧ e.written = e := by
  by_cases hlt : e.level < asked
  · rw [bracketed, if_pos hlt] at h
    have hlevel : e.level = Level.primary := congrArg level h.symm
    rw [hlevel] at hlt
    exact absurd ha (Nat.not_le.mpr hlt)
  · rw [bracketed, if_neg hlt] at h
    exact ⟨Nat.not_lt.mp hlt, h⟩

mutual

theorem isGrammatical_of_written : ∀ {e : Expr}, e.written = e → e.isWellFormed = true →
    (∀ x ∈ e.literals, x.isNaN = false) → e.isGrammatical = true
  | number x, h, _, hx => by
    have hnan := hx x (by simp [literals])
    have hneg : x.isNegative = false := by
      rw [← Bool.not_eq_true]
      intro hneg
      rw [written, if_pos hneg] at h
      cases h
    simp [isGrammatical, hnan, hneg]
  | name n, _, hw, _ => hw
  | signed s e, h, hw, hx => by
    rw [written, signed.injEq] at h
    simp only [isWellFormed, Bool.and_eq_true] at hw
    rw [literals] at hx
    obtain ⟨hsign, hprimary⟩ := e.signedLevel_bounds
    obtain ⟨hlevel, he⟩ := le_level_of_bracketed hprimary h.2
    have := isGrammatical_of_written he hw.2 hx
    simp [isGrammatical, hw.1, this, Nat.le_trans hsign hlevel]
  | binary op l r, h, hw, hx => by
    rw [written, binary.injEq] at h
    simp only [isWellFormed, Bool.and_eq_true, decide_eq_true_eq] at hw
    simp only [literals, List.mem_append, or_imp, forall_and] at hx
    obtain ⟨hleftAsked, hrightAsked⟩ := operandLevels_le_primary op
    obtain ⟨hleft, hl⟩ := le_level_of_bracketed hleftAsked h.2.1
    obtain ⟨hright, hr⟩ := le_level_of_bracketed hrightAsked h.2.2
    have hl := isGrammatical_of_written hl hw.1.2 hx.1
    have hr := isGrammatical_of_written hr hw.2 hx.2
    simp [isGrammatical, hw.1.1, hleft, hright, hl, hr]
  | group e, h, hw, hx => by
    rw [written, group.injEq] at h
    rw [isWellFormed] at hw
    rw [literals] at hx
    rw [isGrammatical]
    exact isGrammatical_of_written h hw hx
  | call f args, h, hw, hx => by
    rw [written, call.injEq] at h
    simp only [isWellFormed, Bool.and_eq_true] at hw
    rw [literals] at hx
    have := allGrammatical_of_written h.2 hw.2 hx
    simp [isGrammatical, hw.1, this]
  | foreign _, _, hw, _ => by cases hw

theorem allGrammatical_of_written : ∀ {es : List Expr}, allWritten es = es → allWellFormed es = true →
    (∀ x ∈ allLiterals es, x.isNaN = false) → allGrammatical es = true
  | [], _, _, _ => rfl
  | e :: es, h, hw, hx => by
    rw [allWritten, List.cons.injEq] at h
    simp only [allWellFormed, Bool.and_eq_true] at hw
    simp only [allLiterals, List.mem_append, or_imp, forall_and] at hx
    have he := isGrammatical_of_written h.1 hw.1 hx.1
    have hes := allGrammatical_of_written h.2 hw.2 hx.2
    simp [allGrammatical, he, hes]

end

theorem isGrammatical_of_parse {limit : Nat} {source : String} {t : Expr} (h : parseWithin limit source = .ok t) :
    t.isGrammatical = true := by
  obtain ⟨ts, -, hs⟩ := settled_of_parse h
  refine isGrammatical_of_written hs.written hs.wellFormed fun x hx => ?_
  rw [hs.literals, mem_numbers] at hx
  obtain ⟨n, -, rfl⟩ := hx
  rcases n.value_eq with hn | ⟨ordinal, hn⟩ <;> rw [hn] <;> rfl

/-! ## A text for every grammatical tree -/

/-- Some text stands for the tree at its level. -/
def IsSpelled (e : Expr) : Prop := ∃ p : Phrase, p.level = e.level ∧ ∃ cs, p.Reads cs e

theorem IsSpelled.reads {e : Expr} (h : e.IsSpelled) {q : Phrase} (hq : q.level ≤ e.level) : ∃ cs, q.Reads cs e := by
  obtain ⟨p, hp, cs, hr⟩ := h
  exact ⟨cs, hr.of_le (hp ▸ hq)⟩

theorem IsSpelled.expression {e : Expr} (h : e.IsSpelled) : ∃ cs, (Phrase.chain .bitOr).Reads cs e := by
  obtain ⟨p, -, cs, hr⟩ := h
  exact ⟨cs, hr.of_le p.bitOr_le_level⟩

theorem isSpelled_number {x : Binary64} (hnan : x.isNaN = false) (hneg : x.isNegative = false) :
    (number x).IsSpelled := by
  obtain ⟨n, hw, hv⟩ : ∃ n : Numeral, (Lexeme.number n).isWritten = true ∧ n.value = x := by
    cases x with
    | nan => cases hnan
    | infinite negative =>
      obtain rfl : negative = false := hneg
      exact Numeral.exists_overflowing
    | finite negative ordinal =>
      obtain rfl : negative = false := hneg
      exact ⟨_, Numeral.isWritten_ofMagnitude ordinal, Numeral.value_ofMagnitude ordinal⟩
  refine ⟨.primary, by simp [level, hneg, Phrase.level], n.chars, ?_⟩
  rw [← hv]
  exact .number hw

theorem isSpelled_signed {s : Sign} {e : Expr} (hs : s.isKnown = true) (hlevel : Level.sign ≤ e.level)
    (he : e.IsSpelled) : (signed s e).IsSpelled := by
  obtain ⟨sym, signs, -⟩ := sign_cases hs
  obtain ⟨cs, hr⟩ := he.reads (q := .unary) hlevel
  exact ⟨.unary, rfl, _, hr.signed signs⟩

theorem isSpelled_binary {op : Operator} {l r : Expr} (hop : op ∈ Operator.known) (hleft : op.leftLevel ≤ l.level)
    (hright : op.rightLevel ≤ r.level) (hl : l.IsSpelled) (hr : r.IsSpelled) : (binary op l r).IsSpelled := by
  by_cases hpow : op = .pow
  · subst hpow
    obtain ⟨cs, hcs⟩ := hl.reads (q := .primary) hleft
    obtain ⟨ds, hds⟩ := hr.reads (q := .unary) hright
    exact ⟨.power, rfl, _, hcs.power hds⟩
  · obtain ⟨tier, s, joins⟩ := exists_joins hop hpow
    obtain ⟨-, -, hlevel, hleftLevel, hrightLevel⟩ := joins_spec joins
    obtain ⟨cs, hcs⟩ := hl.reads (q := .chain tier) (hleftLevel ▸ hleft)
    obtain ⟨ds, hds⟩ := hr.reads (q := tier.operand) (hrightLevel ▸ hright)
    exact ⟨.chain tier, hlevel.symm, _, .link joins hcs hds⟩

theorem isSpelled_group {e : Expr} (he : e.IsSpelled) : (group e).IsSpelled := by
  obtain ⟨cs, hr⟩ := he.expression
  exact ⟨.primary, rfl, _, hr.group⟩

def AllSpelled (es : List Expr) : Prop :=
  ∃ cs, (∀ c ∈ cs.head?, isRunChar c = false) ∧
    ∃ more : Derivation .moreArguments, Spells cs more.lexemes ∧ more.value = es

theorem allSpelled_cons {e : Expr} {es : List Expr} (he : e.IsSpelled) (hes : AllSpelled es) :
    AllSpelled (e :: es) := by
  obtain ⟨cs, d, hd, rfl⟩ := he.expression
  obtain ⟨ds, hstart, more, hm, rfl⟩ := hes
  refine ⟨',' :: (cs ++ ds), ?_, .oneMore d more, ?_, rfl⟩
  · intro c hc
    cases hc
    decide
  · exact (hd.append hm hstart).symbol .comma

def ArgumentsSpelled (args : List Expr) : Prop :=
  ∃ cs, ∃ d : Derivation .arguments, Spells cs d.lexemes ∧ d.value = args

theorem argumentsSpelled_nil : ArgumentsSpelled [] := ⟨[], .noArguments, .nil, rfl⟩

theorem argumentsSpelled_cons {e : Expr} {es : List Expr} (he : e.IsSpelled) (hes : AllSpelled es) :
    ArgumentsSpelled (e :: es) := by
  obtain ⟨cs, d, hd, rfl⟩ := he.expression
  obtain ⟨ds, hstart, more, hm, rfl⟩ := hes
  exact ⟨cs ++ ds, .someArguments d more, hd.append hm hstart, rfl⟩

theorem isSpelled_call {f : String} {args : List Expr} (hf : isName f = true) (h : ArgumentsSpelled args) :
    (call f args).IsSpelled := by
  obtain ⟨cs, d, hd, rfl⟩ := h
  exact ⟨.primary, rfl, _, .call hf hd⟩

mutual

theorem isSpelled : ∀ {e : Expr}, e.isGrammatical = true → e.IsSpelled
  | number x, h => by
    simp only [isGrammatical, Bool.and_eq_true, Bool.not_eq_true'] at h
    exact isSpelled_number h.1 h.2
  | name n, h => ⟨.primary, rfl, _, .name h⟩
  | signed s e, h => by
    simp only [isGrammatical, Bool.and_eq_true, decide_eq_true_eq] at h
    obtain ⟨⟨hs, hlevel⟩, he⟩ := h
    exact isSpelled_signed hs hlevel (isSpelled he)
  | binary op l r, h => by
    simp only [isGrammatical, Bool.and_eq_true, decide_eq_true_eq] at h
    obtain ⟨⟨⟨⟨hop, hleft⟩, hright⟩, hl⟩, hr⟩ := h
    exact isSpelled_binary hop hleft hright (isSpelled hl) (isSpelled hr)
  | group e, h => by
    rw [isGrammatical] at h
    exact isSpelled_group (isSpelled h)
  | call f [], h => by
    simp only [isGrammatical, Bool.and_eq_true] at h
    exact isSpelled_call h.1 argumentsSpelled_nil
  | call f (e :: es), h => by
    simp only [isGrammatical, allGrammatical, Bool.and_eq_true] at h
    obtain ⟨hf, he, hes⟩ := h
    exact isSpelled_call hf (argumentsSpelled_cons (isSpelled he) (allSpelled hes))
  | foreign _, h => by cases h

theorem allSpelled : ∀ {es : List Expr}, allGrammatical es = true → AllSpelled es
  | [], _ => ⟨[], by simp, .noMore, .nil, rfl⟩
  | e :: es, h => by
    rw [allGrammatical, Bool.and_eq_true] at h
    exact allSpelled_cons (isSpelled h.1) (allSpelled h.2)

end

/-! ## The trees of texts -/

theorem exists_readsAs {t : Expr} (h : t.isGrammatical = true) : ∃ source, ReadsAs source t := by
  obtain ⟨cs, hr⟩ := (isSpelled h).expression
  rw [← String.toList_ofList (l := cs)] at hr
  exact ⟨_, readsAs_of_reads hr⟩

theorem readable_tfae (t : Expr) : List.TFAE
    [∃ source, ReadsAs source t, ∃ limit source, parseWithin limit source = .ok t, t.isGrammatical = true] := by
  tfae_have 1 → 2 := by
    rintro ⟨source, h⟩
    -- a limit beyond the length of the text is never exceeded
    exact ⟨source.length + 1, source, (h _).resolve_right fun hdeep => Nat.not_succ_le_self _ hdeep.1⟩
  tfae_have 2 → 3 := by
    rintro ⟨limit, source, h⟩
    exact isGrammatical_of_parse h
  tfae_have 3 → 1 := exists_readsAs
  tfae_finish

end Calculator.Expr
