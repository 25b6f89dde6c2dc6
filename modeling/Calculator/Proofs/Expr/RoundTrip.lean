import Calculator.Proofs.Expr.Written

/-!
# Round trips

`source_of_parse`: a tree that was read is written as a text that reads back to the very same tree, unless a
literal overflowed. `strip_source`: for any writable tree at all, the tree read back is the same up to
parentheses and the signs of negative literals.
-/

namespace Calculator

/-! ## Trees that were read -/

namespace Grammar
open Grammar.Derivation

/-- The doubles that the numerals among some lexemes spell. -/
def numbers (ls : List Lexeme) : List Binary64 :=
  ls.filterMap fun
    | .number n => some n.value
    | _ => none

@[simp] theorem numbers_append (ls ms : List Lexeme) : numbers (ls ++ ms) = numbers ls ++ numbers ms :=
  List.filterMap_append

@[simp] theorem numbers_symbol (s : Symbol) (ls : List Lexeme) : numbers (.symbol s :: ls) = numbers ls := rfl

@[simp] theorem numbers_name (n : String) (ls : List Lexeme) : numbers (.name n :: ls) = numbers ls := rfl

theorem mem_numbers {ls : List Lexeme} {x : Binary64} : x ∈ numbers ls ↔ ∃ n, Lexeme.number n ∈ ls ∧ n.value = x := by
  rw [numbers, List.mem_filterMap]
  constructor
  · intro h
    obtain ⟨l, hl, hx⟩ := h
    cases l with
    | number n => exact ⟨n, hl, by simpa using hx⟩
    | _ => cases hx
  · intro h
    obtain ⟨n, hn, rfl⟩ := h
    exact ⟨.number n, hn, rfl⟩

/-- What holds of every tree that was read as a phrase: it shows itself, without further parentheses. -/
structure Settled (p : Phrase) (ls : List Lexeme) (e : Expr) : Prop where
  level : p.level ≤ e.level
  written : e.written = e
  wellFormed : e.isWellFormed = true
  literals : e.literals = numbers ls

structure AllSettled (ls : List Lexeme) (es : List Expr) : Prop where
  written : Expr.allWritten es = es
  wellFormed : Expr.allWellFormed es = true
  literals : Expr.allLiterals es = numbers ls

theorem bracketed_of_le {e : Expr} {asked : Level} (h : asked ≤ e.level) (shown : Expr) :
    e.bracketed asked shown = shown := if_neg (Nat.not_lt.mpr h)

namespace Settled
variable {p : Phrase} {ls ms : List Lexeme} {e e' : Expr}

theorem of_le {q : Phrase} (h : Settled p ls e) (hq : q.level ≤ p.level) : Settled q ls e :=
  ⟨Nat.le_trans hq h.level, h.written, h.wellFormed, h.literals⟩

theorem link {tier : Tier} {s : Symbol} {op : Operator} (joins : Joins tier s op) (h : Settled (.chain tier) ls e)
    (h' : Settled tier.operand ms e') : Settled (.chain tier) (ls ++ .symbol s :: ms) (.binary op e e') := by
  obtain ⟨hop, -, hlevel, hleft, hright⟩ := joins_spec joins
  refine ⟨Nat.le_of_eq hlevel.symm, ?_, ?_, ?_⟩
  · rw [Expr.written, h.written, h'.written, bracketed_of_le (hleft ▸ h.level), bracketed_of_le (hright ▸ h'.level)]
  · simp [Expr.isWellFormed, hop, h.wellFormed, h'.wellFormed]
  · simp [Expr.literals, h.literals, h'.literals]

theorem raised (h : Settled .primary ls e) (h' : Settled .unary ms e') :
    Settled .power (ls ++ .symbol .caret :: ms) (.binary .pow e e') := by
  refine ⟨Nat.le_refl _, ?_, ?_, ?_⟩
  · have hleft : Operator.pow.leftLevel ≤ e.level := h.level
    have hright : Operator.pow.rightLevel ≤ e'.level := h'.level
    rw [Expr.written, h.written, h'.written, bracketed_of_le hleft, bracketed_of_le hright]
  · rw [Expr.isWellFormed, h.wellFormed, h'.wellFormed]
    decide
  · simp [Expr.literals, h.literals, h'.literals]

theorem signed {s : Symbol} {sign : Sign} (signs : Signs s sign) (h : Settled .unary ls e) :
    Settled .unary (.symbol s :: ls) (.signed sign e) := by
  have hlevel : e.signedLevel ≤ e.level := by
    cases e with
    | number x =>
      -- a negative number would not show itself but a sign
      have hw := h.written
      rw [Expr.written] at hw
      split at hw
      · cases hw
      · rename_i hx
        simp [Expr.signedLevel, Expr.level, hx]
    | _ => exact h.level
  refine ⟨Nat.le_refl _, ?_, ?_, h.literals⟩
  · rw [Expr.written, h.written, bracketed_of_le hlevel]
  · rw [Expr.isWellFormed, h.wellFormed]
    cases signs <;> rfl

theorem number {n : Numeral} : Settled .primary [.number n] (.number n.value) := by
  have hn : n.value.isNegative = false := by
    rcases n.value_eq with h | ⟨ordinal, h⟩ <;> rw [h] <;> rfl
  refine ⟨?_, ?_, rfl, rfl⟩
  · rw [Expr.level, hn]
    exact Nat.le_refl _
  · rw [Expr.written, hn]
    rfl

theorem name {n : String} (h : isName n = true) : Settled .primary [.name n] (.name n) := ⟨Nat.le_refl _, rfl, h, rfl⟩

theorem group (h : Settled (.chain .bitOr) ls e) :
    Settled .primary (.symbol .opening :: (ls ++ [.symbol .closing])) (.group e) := by
  refine ⟨Nat.le_refl _, ?_, ?_, ?_⟩
  · rw [Expr.written, h.written]
  · rw [Expr.isWellFormed, h.wellFormed]
  · simpa [Expr.literals, numbers] using h.literals

theorem call {f : String} {es : List Expr} (hf : isName f = true) (h : AllSettled ls es) :
    Settled .primary (.name f :: .symbol .opening :: (ls ++ [.symbol .closing])) (.call f es) := by
  refine ⟨Nat.le_refl _, ?_, ?_, ?_⟩
  · rw [Expr.written, h.written]
  · rw [Expr.isWellFormed, hf, h.wellFormed]
    rfl
  · simpa [Expr.literals, numbers] using h.literals

end Settled

theorem AllSettled.cons {ls ms : List Lexeme} {e : Expr} {es : List Expr} (h : Settled (.chain .bitOr) ls e)
    (hs : AllSettled ms es) : AllSettled (ls ++ ms) (e :: es) := by
  refine ⟨?_, ?_, ?_⟩
  · rw [Expr.allWritten, h.written, hs.written]
  · rw [Expr.allWellFormed, h.wellFormed, hs.wellFormed]
    rfl
  · rw [Expr.allLiterals, h.literals, hs.literals, numbers_append]

/-- What a derivation builds is settled; a repetition keeps settled what it goes on from. -/
def Builds : (nt : Nonterminal) → List Lexeme → nt.Value → Prop
  | .phrase p, ls, e => Settled p ls e
  | .more tier, ls, links => ∀ before left, Settled (.chain tier) before left →
      Settled (.chain tier) (before ++ ls) (joinAll left links)
  | .arguments, ls, es => AllSettled ls es
  | .moreArguments, ls, es => AllSettled ls es

theorem builds {nt : Nonterminal} (d : Derivation nt) : (∀ l ∈ d.lexemes, l.isWritten = true) →
    Builds nt d.lexemes d.value := by
  induction d with
  | @chain tier first more hf hm =>
    intro hw
    simp only [lexemes, List.mem_append, or_imp, forall_and] at hw
    have hfirst : Settled tier.operand _ _ := hf hw.1
    exact hm hw.2 _ _ (hfirst.of_le (by rw [Phrase.level_operand]; exact Nat.le_succ _))
  | done =>
    intro _ before left h
    rw [lexemes, List.append_nil]
    exact h
  | link s op joins right more hr hm =>
    intro hw before left h
    simp only [lexemes, List.mem_cons, List.mem_append, or_imp, forall_and] at hw
    have := hm hw.2.2 _ _ (h.link joins (hr hw.2.1))
    rwa [List.append_assoc] at this
  | signed s sign signs operand ho =>
    intro hw
    simp only [lexemes, List.mem_cons, or_imp, forall_and] at hw
    exact Settled.signed signs (ho hw.2)
  | unsigned power hp => exact fun hw => Settled.of_le (hp hw) (by decide)
  | plain base hb => exact fun hw => Settled.of_le (hb hw) (by decide)
  | raised base exponent hb he =>
    intro hw
    simp only [lexemes, List.mem_cons, List.mem_append, or_imp, forall_and] at hw
    exact Settled.raised (hb hw.1) (he hw.2.2)
  | number n => exact fun _ => .number
  | name n => exact fun hw => Settled.name (hw (.name n) (by simp [lexemes]))
  | call f args ha =>
    intro hw
    simp only [lexemes, List.mem_cons, List.mem_append, or_imp, forall_and] at hw
    exact Settled.call (hw.1 _ rfl) (ha hw.2.2.1)
  | group inner hi =>
    intro hw
    simp only [lexemes, List.mem_cons, List.mem_append, or_imp, forall_and] at hw
    exact Settled.group (hi hw.2.1)
  | noArguments => exact fun _ => ⟨rfl, rfl, rfl⟩
  | someArguments first more hf hm =>
    intro hw
    simp only [lexemes, List.mem_append, or_imp, forall_and] at hw
    exact AllSettled.cons (hf hw.1) (hm hw.2)
  | noMore => exact fun _ => ⟨rfl, rfl, rfl⟩
  | oneMore arg more ha hm =>
    intro hw
    simp only [lexemes, List.mem_cons, List.mem_append, or_imp, forall_and] at hw
    obtain ⟨hwritten, hwell, hlit⟩ := AllSettled.cons (ha hw.2.1) (hm hw.2.2)
    exact ⟨hwritten, hwell, hlit⟩

end Grammar

/-! ## The round trip of parsed text -/

/-- Some numeral with a point stands in the text and is too large for a double. -/
def Overflows (source : String) : Prop :=
  ∃ ts n, tokens source = .ok ts ∧ Lexeme.number n ∈ ts.map (·.lexeme) ∧ n.fraction.isSome = true ∧
    n.value = .infinite false

theorem overflows_of_infinite {source : String} {ts : List Token} (h : tokens source = .ok ts) {n : Numeral}
    (hn : Lexeme.number n ∈ ts.map (·.lexeme)) (hx : n.value.isFinite = false) : Overflows source := by
  have hw : (Lexeme.number n).isWritten = true := by
    obtain ⟨t, ht, hl⟩ := List.mem_map.mp hn
    exact hl ▸ (tokens_eq_ok_iff.mp h).isWritten t ht
  rw [Lexeme.isWritten, Bool.and_eq_true] at hw
  refine ⟨ts, n, h, hn, ?_, ?_⟩
  · cases hf : n.fraction with
    | some _ => rfl
    | none => rw [Numeral.isFinite_value_of_integer hw.2 hf] at hx; cases hx
  · rcases n.value_eq with hv | ⟨ordinal, hv⟩
    · exact hv
    · rw [hv] at hx; cases hx

namespace Expr
open Grammar

theorem settled_of_parse {limit : Nat} {source : String} {t : Expr} (h : parseWithin limit source = .ok t) :
    ∃ ts, tokens source = .ok ts ∧ Settled (.chain .bitOr) (ts.map (·.lexeme)) t := by
  obtain ⟨ts, ht, d, hd, rfl⟩ := exists_derivation h
  refine ⟨ts, ht, hd ▸ builds d fun l hl => ?_⟩
  rw [hd] at hl
  obtain ⟨tok, htok, rfl⟩ := List.mem_map.mp hl
  exact (tokens_eq_ok_iff.mp ht).isWritten tok htok

theorem finite_iff_of_parse {limit : Nat} {source : String} {t : Expr} (h : parseWithin limit source = .ok t) :
    (∀ x ∈ t.literals, x.isFinite = true) ↔ ¬ Overflows source := by
  obtain ⟨ts, ht, hs⟩ := settled_of_parse h
  simp only [hs.literals, mem_numbers]
  constructor
  · intro hfin hover
    obtain ⟨ts', n, ht', hn, -, hv⟩ := hover
    cases ht.symm.trans ht'
    have := hfin _ ⟨n, hn, rfl⟩
    rw [hv] at this
    cases this
  · intro hover x hx
    obtain ⟨n, hn, rfl⟩ := hx
    rw [← Bool.not_eq_false]
    exact fun hx => hover (overflows_of_infinite ht hn hx)

theorem source_of_parse {limit : Nat} {source : String} {t : Expr} (h : parseWithin limit source = .ok t) :
    ((∃ error, t.source = .error error) ↔ Overflows source) ∧
      (¬ Overflows source → ∃ text, t.source = .ok text ∧ ReadsAs text t) := by
  have hfin := finite_iff_of_parse h
  have hback : ¬ Overflows source → ∃ text, t.source = .ok text ∧ ReadsAs text t := by
    intro hover
    obtain ⟨ts, -, hs⟩ := settled_of_parse h
    obtain ⟨text, htext, hread⟩ := readsAs_source ⟨hs.wellFormed, hfin.mpr hover⟩
    exact ⟨text, htext, hs.written ▸ hread⟩
  refine ⟨⟨fun herror => ?_, fun hover => ?_⟩, hback⟩
  · obtain ⟨error, he⟩ := herror
    refine Classical.byContradiction fun hover => ?_
    obtain ⟨text, htext, -⟩ := hback hover
    rw [he] at htext
    cases htext
  · cases hs : t.source with
    | error error => exact ⟨error, rfl⟩
    | ok text => exact absurd hover (hfin.mp (source_finite hs))

theorem source_of_parse_power : ∃ t, parseWithin 10 "(x - 0.5)^-y" = .ok t ∧
    ((∃ error, t.source = .error error) ↔ Overflows "(x - 0.5)^-y") ∧
    (¬ Overflows "(x - 0.5)^-y" → ∃ text, t.source = .ok text ∧ ReadsAs text t) :=
  have h : parseWithin 10 "(x - 0.5)^-y" = .ok (binary .pow (group (binary .sub (name "x")
      (number (Numeral.value ⟨['0'], some ['5']⟩)))) (signed .minus (name "y"))) := rfl
  ⟨_, h, source_of_parse h⟩

/-! ## The round trip of any tree -/

mutual

/-- A tree without its groups, a negative number being a sign before its magnitude. -/
def strip : Expr → Expr
  | number x => if x.isNegative then signed .minus (number x.abs) else number x
  | name n => name n
  | signed s e => signed s e.strip
  | binary op l r => binary op l.strip r.strip
  | group e => e.strip
  | call f args => call f (stripAll args)
  | foreign kind => foreign kind

def stripAll : List Expr → List Expr
  | [] => []
  | e :: es => e.strip :: stripAll es

end

theorem strip_bracketed (e : Expr) (asked : Level) (shown : Expr) : (e.bracketed asked shown).strip = shown.strip := by
  unfold bracketed
  split
  · rw [strip]
  · rfl

mutual

theorem strip_written : ∀ e : Expr, e.written.strip = e.strip
  | number x => by
    cases x with
    | nan => rfl
    | infinite negative => cases negative <;> rfl
    | finite negative ordinal => cases negative <;> rfl
  | name _ => rfl
  | signed s e => by rw [written, strip, strip, strip_bracketed, strip_written e]
  | binary op l r => by
    rw [written, strip, strip, strip_bracketed, strip_bracketed, strip_written l, strip_written r]
  | group e => by rw [written, strip, strip, strip_written e]
  | call f args => by rw [written, strip, strip, stripAll_written args]
  | foreign _ => rfl

theorem stripAll_written : ∀ es : List Expr, stripAll (allWritten es) = stripAll es
  | [] => rfl
  | e :: es => by rw [allWritten, stripAll, stripAll, strip_written e, stripAll_written es]

end

theorem strip_source {t : Expr} (h : t.IsWritable) :
    ∃ text t', t.source = .ok text ∧ ReadsAs text t' ∧ t'.strip = t.strip := by
  obtain ⟨text, hs, hr⟩ := readsAs_source h
  exact ⟨text, t.written, hs, hr, strip_written t⟩

theorem strip_source_nested_difference :
    (binary .sub (name "x") (binary .sub (number (.finite true 0)) (name "y"))).IsWritable ∧
      ∃ text t', (binary .sub (name "x") (binary .sub (number (.finite true 0)) (name "y"))).source = .ok text ∧
        ReadsAs text t' ∧
        t'.strip = (binary .sub (name "x") (binary .sub (number (.finite true 0)) (name "y"))).strip :=
  ⟨by decide, strip_source (by decide)⟩

end Expr
end Calculator
