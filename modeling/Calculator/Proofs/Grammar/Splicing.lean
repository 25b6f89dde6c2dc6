import Calculator.Proofs.Expr.Replacement
import Calculator.Proofs.Grammar.Openings
import Calculator.Proofs.Grammar.Reading

/-!
# Splicing a text into parentheses

`readsAs_replace`: in a text with a name between parentheses the name gives way to any text that can be read, and
the tree of the whole changes in that place alone. The two halves of the text around the name need not be read on
their own, so the argument is about the derivation of the whole: the parenthesized name lies within one of its parts
(`Hole.append`), down to the group or call that the parentheses belong to.
-/

namespace Calculator.Grammar
open Grammar.Derivation

/-! ## Replacing a name in a value -/

/-- A name is replaced in all trees of a value. -/
@[simp] def Nonterminal.replace (x : String) (u : Expr) : (nt : Nonterminal) → nt.Value → nt.Value
  | phrase _, t => t.replace x u
  | more _, links => Expr.replaceLinks x u links
  | arguments, ts => Expr.replaceAll ts x u
  | moreArguments, ts => Expr.replaceAll ts x u

section
variable {nt : Nonterminal} {x : String}

theorem occurrences_eq_zero (d : Derivation nt) (h : .name x ∉ d.lexemes) :
    Expr.allOccurrences x (nt.trees d.value) = 0 := by
  induction d with
  | chain first more hf hm =>
    simp only [lexemes, List.mem_append, not_or] at h
    simpa using ⟨hf h.1, hm h.2⟩
  | done => rfl
  | link s op joins right more hr hm =>
    simp only [lexemes, List.mem_cons, List.mem_append, not_or] at h
    simpa using ⟨hr h.2.1, hm h.2.2⟩
  | signed s sign signs operand ho =>
    simp only [lexemes, List.mem_cons, not_or] at h
    simpa using ho h.2
  | unsigned power hp => exact hp h
  | plain base hb => exact hb h
  | raised base exponent hb he =>
    simp only [lexemes, List.mem_append, List.mem_cons, not_or] at h
    simpa using ⟨hb h.1, he h.2.2⟩
  | number n => rfl
  | name n =>
    have hne : n ≠ x := by rintro rfl; exact h (List.mem_singleton.mpr rfl)
    simp [hne]
  | call f args ha =>
    simp only [lexemes, List.mem_cons, List.mem_append, not_or] at h
    simpa using ha h.2.2.1
  | group inner hi =>
    simp only [lexemes, List.mem_cons, List.mem_append, not_or] at h
    simpa using hi h.2.1
  | noArguments => rfl
  | someArguments first more hf hm =>
    simp only [lexemes, List.mem_append, not_or] at h
    simpa using ⟨hf h.1, hm h.2⟩
  | noMore => rfl
  | oneMore arg more ha hm =>
    simp only [lexemes, List.mem_cons, List.mem_append, not_or] at h
    simpa using ⟨ha h.2.1, hm h.2.2⟩

theorem replace_value (u : Expr) (d : Derivation nt) (h : .name x ∉ d.lexemes) :
    nt.replace x u d.value = d.value := by
  have hzero := occurrences_eq_zero d h
  cases nt with
  | phrase p =>
    rw [Nonterminal.trees, Expr.allOccurrences, Expr.allOccurrences, Nat.add_zero] at hzero
    exact Expr.replace_eq_self u hzero
  | more tier => exact Expr.replaceLinks_eq_self u hzero
  | arguments => exact Expr.replaceAll_eq_self u hzero
  | moreArguments => exact Expr.replaceAll_eq_self u hzero

end

/-! ## A name between parentheses -/

/-- Lexemes that name `x` in one place, between parentheses. -/
structure Hole (x : String) (ls before behind : List Lexeme) : Prop where
  split : ls = before ++ .symbol .opening :: .name x :: .symbol .closing :: behind
  before : .name x ∉ before
  behind : .name x ∉ behind

namespace Hole
variable {x : String} {before behind : List Lexeme}

/-- What is open behind a derivation was open before it, so that no derivation ends between the parentheses. -/
theorem append {nt : Nonterminal} (d : Derivation nt) {ms : List Lexeme}
    (h : Hole x (d.lexemes ++ ms) before behind) :
    (∃ as, behind = as ++ ms ∧ Hole x d.lexemes before as ∧ .name x ∉ ms) ∨
      ∃ bs, before = d.lexemes ++ bs ∧ Hole x ms bs behind ∧ .name x ∉ d.lexemes := by
  obtain ⟨hsplit, hbefore, hbehind⟩ := h
  rcases List.append_eq_append_iff.mp hsplit with ⟨bs, rfl, hms⟩ | ⟨as, hd, has⟩
  · rw [List.mem_append, not_or] at hbefore
    exact .inr ⟨bs, rfl, ⟨hms, hbefore.2, hbehind⟩, hbefore.1⟩
  have hclosed := openings_lexemes d 0 []
  rw [hd, openings_append] at hclosed
  match as, has with
  | [], has =>
    rw [List.append_nil] at hd
    rw [hd]
    exact .inr ⟨[], by simp, ⟨has.symm, by simp, hbehind⟩, hbefore⟩
  | [.symbol .opening], _ => cases hclosed
  | [.symbol .opening, .name _], _ => cases hclosed
  | .symbol .opening :: .name _ :: .symbol .closing :: as, has =>
    simp only [List.cons_append, List.cons.injEq, Lexeme.name.injEq, true_and] at has
    obtain ⟨rfl, rfl⟩ := has
    rw [List.mem_append, not_or] at hbehind
    exact .inl ⟨as, rfl, ⟨hd, hbefore, hbehind.1⟩, hbehind.2⟩

theorem uncons {l : Lexeme} {ls : List Lexeme} (h : Hole x (l :: ls) before behind) :
    (before = [] ∧ l = .symbol .opening ∧ ls = .name x :: .symbol .closing :: behind) ∨
      ∃ bs, before = l :: bs ∧ Hole x ls bs behind := by
  obtain ⟨hsplit, hbefore, hbehind⟩ := h
  cases before with
  | nil =>
    rw [List.nil_append, List.cons.injEq] at hsplit
    exact .inl ⟨rfl, hsplit⟩
  | cons b bs =>
    rw [List.cons_append, List.cons.injEq] at hsplit
    obtain ⟨rfl, hls⟩ := hsplit
    exact .inr ⟨bs, rfl, hls, fun hb => hbefore (List.mem_cons_of_mem _ hb), hbehind⟩

theorem skip (passed : List Lexeme) {ls : List Lexeme} (hopening : .symbol .opening ∉ passed) :
    ∀ {before : List Lexeme}, Hole x (passed ++ ls) before behind →
      ∃ bs, before = passed ++ bs ∧ Hole x ls bs behind := by
  induction passed with
  | nil => exact fun h => ⟨_, rfl, h⟩
  | cons l passed ih =>
    intro before h
    rw [List.mem_cons, not_or] at hopening
    rcases h.uncons with ⟨-, hl, -⟩ | ⟨bs, rfl, hrest⟩
    · exact absurd hl.symm hopening.1
    · obtain ⟨bs, rfl, hls⟩ := ih hopening.2 hrest
      exact ⟨bs, rfl, hls⟩

/-- Where no parenthesis is opened there is no name between parentheses. -/
theorem opens {ls : List Lexeme} (h : Hole x ls before behind) : .symbol .opening ∈ ls := by
  rw [h.split]
  simp

theorem within {nt : Nonterminal} (d : Derivation nt) {passed : List Lexeme} (hopening : .symbol .opening ∉ passed)
    (h : Hole x (d.lexemes ++ passed) before behind) : ∃ as, behind = as ++ passed ∧ Hole x d.lexemes before as := by
  rcases h.append d with ⟨as, rfl, hd, -⟩ | ⟨bs, -, hpassed, -⟩
  · exact ⟨as, rfl, hd⟩
  · exact absurd hpassed.opens hopening

end Hole

/-! ## Another expression between the parentheses -/

structure Fills {nt : Nonterminal} (e : Expression) (x : String) (before behind : List Lexeme)
    (d d' : Derivation nt) : Prop where
  lexemes : d'.lexemes = before ++ .symbol .opening :: (e.lexemes ++ .symbol .closing :: behind)
  value : d'.value = nt.replace x e.value d.value
  occurrences : Expr.allOccurrences x (nt.trees d.value) = 1

def Fillable {nt : Nonterminal} (e : Expression) (x : String) (d : Derivation nt) : Prop :=
  ∀ {before behind : List Lexeme}, Hole x d.lexemes before behind → ∃ d', Fills e x before behind d d'

section
variable {e : Expression} {x : String}

/-- Of two parts with nothing or an operator between them one holds the name and the other stays as it is. -/
theorem fillable_append (between : List Lexeme) (hb : .symbol .opening ∉ between) {nt mt : Nonterminal}
    {c : Derivation nt} {d : Derivation mt} (hc : Fillable e x c) (hd : Fillable e x d) {before behind : List Lexeme}
    (h : Hole x (c.lexemes ++ (between ++ d.lexemes)) before behind) :
    ∃ (c' : Derivation nt) (d' : Derivation mt), c'.lexemes ++ (between ++ d'.lexemes) =
        before ++ .symbol .opening :: (e.lexemes ++ .symbol .closing :: behind) ∧
      c'.value = nt.replace x e.value c.value ∧ d'.value = mt.replace x e.value d.value ∧
      Expr.allOccurrences x (nt.trees c.value) + Expr.allOccurrences x (mt.trees d.value) = 1 := by
  rcases h.append c with ⟨as, rfl, hhole, hfresh⟩ | ⟨bs, rfl, hhole, hfresh⟩
  · rw [List.mem_append, not_or] at hfresh
    obtain ⟨c', hl, hv, ho⟩ := hc hhole
    refine ⟨c', d, by simp [hl], hv, (replace_value e.value d hfresh.2).symm, ?_⟩
    rw [ho, occurrences_eq_zero d hfresh.2]
  · obtain ⟨bs, rfl, hrest⟩ := Hole.skip between hb hhole
    obtain ⟨d', hl, hv, ho⟩ := hd hrest
    refine ⟨c, d', by simp [hl], (replace_value e.value c hfresh).symm, hv, ?_⟩
    rw [ho, occurrences_eq_zero c hfresh]

section
variable {tier : Tier} {operand : Derivation (.phrase tier.operand)} {more : Derivation (.more tier)}

theorem fillable_chain (ho : Fillable e x operand) (hm : Fillable e x more) : Fillable e x (chain operand more) := by
  intro before behind h
  obtain ⟨operand', more', hl, hvo, hvm, hone⟩ := fillable_append [] (by simp) ho hm h
  refine ⟨chain operand' more', hl, ?_, ?_⟩
  · rw [value, hvo, hvm]
    exact (Expr.replace_joinAll x e.value more.value operand.value).symm
  · simpa using hone

theorem fillable_link {s : Symbol} {op : Operator} (joins : Joins tier s op) (ho : Fillable e x operand)
    (hm : Fillable e x more) : Fillable e x (link s op joins operand more) := by
  intro before behind h
  obtain ⟨bs, rfl, hrest⟩ := Hole.skip [.symbol s] (by cases joins <;> simp) h
  obtain ⟨operand', more', hl, hvo, hvm, hone⟩ := fillable_append [] (by simp) ho hm hrest
  refine ⟨link s op joins operand' more', by simpa using hl, by rw [value, hvo, hvm]; rfl, ?_⟩
  simpa using hone

end

section
variable {operand : Derivation (.phrase .unary)} {power : Derivation (.phrase .power)}
  {base : Derivation (.phrase .primary)}

theorem fillable_signed {s : Symbol} {sign : Sign} (signs : Signs s sign) (ho : Fillable e x operand) :
    Fillable e x (signed s sign signs operand) := by
  intro before behind h
  obtain ⟨bs, rfl, hrest⟩ := Hole.skip [.symbol s] (by cases signs <;> simp) h
  obtain ⟨operand', hl, hv, hone⟩ := ho hrest
  refine ⟨signed s sign signs operand', by simp [hl], by rw [value, hv]; rfl, ?_⟩
  simpa using hone

theorem fillable_unsigned (hp : Fillable e x power) : Fillable e x (unsigned power) := by
  intro before behind h
  obtain ⟨power', hl, hv, hone⟩ := hp h
  exact ⟨unsigned power', hl, hv, hone⟩

theorem fillable_plain (hb : Fillable e x base) : Fillable e x (plain base) := by
  intro before behind h
  obtain ⟨base', hl, hv, hone⟩ := hb h
  exact ⟨plain base', hl, hv, hone⟩

theorem fillable_raised (hb : Fillable e x base) (ho : Fillable e x operand) :
    Fillable e x (raised base operand) := by
  intro before behind h
  obtain ⟨base', operand', hl, hvb, hvo, hone⟩ := fillable_append [.symbol .caret] (by simp) hb ho h
  refine ⟨raised base' operand', hl, by rw [value, hvb, hvo]; rfl, ?_⟩
  simpa using hone

end

/-! ### Primaries and arguments -/

def single {tier : Tier} (operand : Derivation (.phrase tier.operand)) : Derivation (.phrase (.chain tier)) :=
  chain operand done

def alone (x : String) : Expression := single (single (single (single (.unsigned (.plain (.name x))))))

theorem eq_alone {inner : Expression} {behind : List Lexeme}
    (h : inner.lexemes ++ [.symbol .closing] = .name x :: .symbol .closing :: behind) :
    inner = alone x ∧ behind = [] := by
  obtain ⟨rfl, hrest⟩ := determined inner (alone x) (closing_stops _ []) (closing_stops _ behind) h
  exact ⟨rfl, by simpa using hrest.symm⟩

theorem eq_someArguments {args : Derivation .arguments} {behind : List Lexeme}
    (h : args.lexemes ++ [.symbol .closing] = .name x :: .symbol .closing :: behind) :
    args = someArguments (alone x) noMore ∧ behind = [] := by
  obtain ⟨rfl, hrest⟩ := determined args (someArguments (alone x) noMore) (by rfl) (by rfl) h
  exact ⟨rfl, by simpa using hrest.symm⟩

theorem fillable_of_not_mem {nt : Nonterminal} {d : Derivation nt} (h : .symbol .opening ∉ d.lexemes) :
    Fillable e x d := fun hhole => absurd hhole.opens h

theorem fillable_group {inner : Expression} (hi : Fillable e x inner) : Fillable e x (group inner) := by
  intro before behind h
  rcases h.uncons with ⟨rfl, -, hls⟩ | ⟨bs, rfl, hrest⟩
  · obtain ⟨rfl, rfl⟩ := eq_alone hls
    refine ⟨group e, by simp, ?_, ?_⟩
    · simp [alone, single, joinAll]
    · simp [alone, single, joinAll]
  · obtain ⟨as, rfl, hhole⟩ := hrest.within inner (by simp)
    obtain ⟨inner', hl, hv, hone⟩ := hi hhole
    refine ⟨group inner', by simp [hl], by rw [value, hv]; rfl, ?_⟩
    simpa using hone

theorem fillable_call (f : String) {args : Derivation .arguments} (ha : Fillable e x args) :
    Fillable e x (call f args) := by
  intro before behind h
  obtain ⟨bs, rfl, hparen⟩ := Hole.skip [.name f] (by simp) h
  rcases hparen.uncons with ⟨rfl, -, hls⟩ | ⟨bs, rfl, hrest⟩
  · obtain ⟨rfl, rfl⟩ := eq_someArguments hls
    refine ⟨call f (someArguments e noMore), by simp, ?_, ?_⟩
    · simp [alone, single, joinAll]
    · simp [alone, single, joinAll]
  · obtain ⟨as, rfl, hhole⟩ := hrest.within args (by simp)
    obtain ⟨args', hl, hv, hone⟩ := ha hhole
    refine ⟨call f args', by simp [hl], by rw [value, hv]; rfl, ?_⟩
    simpa using hone

section
variable {arg : Expression} {more : Derivation .moreArguments}

theorem fillable_someArguments (ha : Fillable e x arg) (hm : Fillable e x more) :
    Fillable e x (someArguments arg more) := by
  intro before behind h
  obtain ⟨arg', more', hl, hva, hvm, hone⟩ := fillable_append [] (by simp) ha hm h
  refine ⟨someArguments arg' more', hl, by rw [value, hva, hvm]; rfl, ?_⟩
  simpa using hone

theorem fillable_oneMore (ha : Fillable e x arg) (hm : Fillable e x more) : Fillable e x (oneMore arg more) := by
  intro before behind h
  obtain ⟨bs, rfl, hrest⟩ := Hole.skip [.symbol .comma] (by simp) h
  obtain ⟨arg', more', hl, hva, hvm, hone⟩ := fillable_append [] (by simp) ha hm hrest
  refine ⟨oneMore arg' more', by simpa using hl, by rw [value, hva, hvm]; rfl, ?_⟩
  simpa using hone

end

theorem fillable {nt : Nonterminal} (d : Derivation nt) : Fillable e x d := by
  induction d with
  | chain first more hf hm => exact fillable_chain hf hm
  | done => exact fillable_of_not_mem (by simp)
  | link s op joins right more hr hm => exact fillable_link joins hr hm
  | signed s sign signs operand ho => exact fillable_signed signs ho
  | unsigned power hp => exact fillable_unsigned hp
  | plain base hb => exact fillable_plain hb
  | raised base exponent hb he => exact fillable_raised hb he
  | number n => exact fillable_of_not_mem (by simp)
  | name n => exact fillable_of_not_mem (by simp)
  | call f args ha => exact fillable_call f ha
  | group inner hi => exact fillable_group hi
  | noArguments => exact fillable_of_not_mem (by simp)
  | someArguments first more hf hm => exact fillable_someArguments hf hm
  | noMore => exact fillable_of_not_mem (by simp)
  | oneMore arg more ha hm => exact fillable_oneMore ha hm

end

end Calculator.Grammar

/-! ## Texts -/

namespace Calculator
open Grammar Grammar.Derivation

def mentions (source x : String) : Bool :=
  match tokens source with
  | .ok ts => ts.any fun t => decide (t.lexeme = .name x)
  | .error _ => false

/-- A name that occurs nowhere in a text, not even within another name, is not mentioned. -/
theorem isInfix_of_mentions {source x : String} (h : mentions source x = true) : x.toList <:+: source.toList := by
  unfold mentions at h
  split at h
  · rename_i ts hts
    obtain ⟨t, ht, hx⟩ := List.any_eq_true.mp h
    have := (tokens_eq_ok_iff.mp hts).isInfix t ht
    rwa [of_decide_eq_true hx, Lexeme.chars_name] at this
  · cases h

theorem Spells.not_mem {source x : String} {ls : List Lexeme} (h : Spells source.toList ls)
    (hx : mentions source x = false) : .name x ∉ ls := by
  obtain ⟨ts, hseg, rfl⟩ := h 1
  rw [mentions, tokens_eq_ok_iff.mpr hseg] at hx
  simpa using hx

namespace Expr

theorem readsAs_replace {p q s x : String} (hx : isName x = true) (hp : mentions p x = false)
    (hq : mentions q x = false) {limit limit' : Nat} {t u : Expr} (hs : parseWithin limit s = .ok u)
    (ht : parseWithin limit' (p ++ "(" ++ x ++ ")" ++ q) = .ok t) :
    t.occurrences x = 1 ∧ ReadsAs (p ++ "(" ++ s ++ ")" ++ q) (t.replace x u) := by
  obtain ⟨us, hus, e, he, rfl⟩ := exists_derivation hs
  obtain ⟨ts, hts, d, hd, rfl⟩ := exists_derivation ht
  have hinner : Spells s.toList e.lexemes := he ▸ Spells.of_segmentation (tokens_eq_ok_iff.mp hus)
  have houter := Spells.of_segmentation (tokens_eq_ok_iff.mp hts)
  have htext : ∀ r : String, (p ++ "(" ++ r ++ ")" ++ q).toList =
      p.toList ++ Symbol.opening.char :: (r.toList ++ Symbol.closing.char :: q.toList) := by
    intro r
    simp only [String.toList_append, List.append_assoc]
    rfl
  -- no lexeme runs across a parenthesis, whatever the halves are
  rw [← hd, htext] at houter
  obtain ⟨before, rest, hsplit, hbefore, hrest⟩ := houter.cut
  obtain ⟨name, behind, rfl, hname, hbehind⟩ := hrest.cut
  obtain rfl := hname.unique (Spells.single (l := .name x) hx)
  obtain ⟨d', hl, hv, hone⟩ := fillable (e := e) d ⟨hsplit, hbefore.not_mem hp, hbehind.not_mem hq⟩
  refine ⟨by simpa using hone, ?_⟩
  have hfilled : ReadsAs (p ++ "(" ++ s ++ ")" ++ q) d'.value := by
    refine readsAs_of_spells d' ?_
    rw [htext, hl]
    exact hbefore.append_symbol .opening (hinner.append_symbol .closing hbehind)
  rw [hv] at hfilled
  exact hfilled

theorem readsAs_replace_argument : ∃ t u, parseWithin 10 "2 ^ -g(a, f(y) * b) % c" = .ok t ∧
    parseWithin 10 "1 - 2" = .ok u ∧ t.occurrences "y" = 1 ∧
    ReadsAs "2 ^ -g(a, f(1 - 2) * b) % c" (t.replace "y" u) := by
  have hs : ∃ u, parseWithin 10 "1 - 2" = .ok u := ⟨_, rfl⟩
  have ht : ∃ t, parseWithin 10 "2 ^ -g(a, f(y) * b) % c" = .ok t := ⟨_, rfl⟩
  obtain ⟨u, hs⟩ := hs
  obtain ⟨t, ht⟩ := ht
  refine ⟨t, u, ht, hs, ?_⟩
  exact readsAs_replace (p := "2 ^ -g(a, f") (q := " * b) % c") (by decide) rfl rfl hs ht

end Expr
end Calculator
