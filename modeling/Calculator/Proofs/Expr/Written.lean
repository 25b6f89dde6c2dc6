import Calculator.Proofs.Expr.Writable
import Calculator.Proofs.Grammar.Reading
import Calculator.Proofs.Number.Plain

/-!
# Written trees are read back

`readsAs_source`: what `Expr.source` writes for a well-formed tree with finite literals is read as the tree
`written`, which is the tree itself but for the parentheses that were added and the signs of its negative
literals. The text is followed phrase by phrase: `Phrase.Reads` says that a text stands for a tree at a level.
-/

namespace Calculator

/-! ## What a text shows of a tree -/

namespace Expr

/-- An operand with the parentheses that it gets at a level, `shown` standing for what they enclose. -/
def bracketed (e : Expr) (asked : Level) (shown : Expr) : Expr :=
  if e.level < asked then group shown else shown

mutual

/-- The tree that the text of a tree shows. -/
def written : Expr → Expr
  | number x => if x.isNegative then signed .minus (number (-x)) else number x
  | name n => name n
  | signed s e => signed s (e.bracketed e.signedLevel e.written)
  | binary op l r => binary op (l.bracketed op.leftLevel l.written) (r.bracketed op.rightLevel r.written)
  | group e => group e.written
  | call f args => call f (allWritten args)
  | foreign kind => foreign kind

def allWritten : List Expr → List Expr
  | [] => []
  | e :: es => e.written :: allWritten es

end

end Expr

namespace Grammar
open Grammar.Derivation

/-! ## Texts of phrases -/

/-- The level at which a phrase may stand. -/
def Phrase.level : Phrase → Nat
  | chain .bitOr => Level.bitOr
  | chain .bitAnd => Level.bitAnd
  | chain .sum => Level.sum
  | chain .product => Level.product
  | unary => Level.sign
  | power => Level.power
  | primary => Level.primary

theorem Phrase.level_operand (tier : Tier) : tier.operand.level = (chain tier).level + 1 := by
  cases tier <;> rfl

theorem Phrase.bitOr_le_level (p : Phrase) : (chain .bitOr).level ≤ p.level := by
  cases p with
  | chain t => cases t <;> decide
  | _ => decide

theorem Phrase.level_le_primary (p : Phrase) : p.level ≤ primary.level := by
  cases p with
  | chain t => cases t <;> decide
  | _ => decide

theorem Phrase.level_injective {p q : Phrase} (h : p.level = q.level) : p = q := by
  cases p with
  | chain t =>
    cases q with
    | chain u => cases t <;> cases u <;> first | rfl | cases h
    | _ => cases t <;> cases h
  | _ =>
    cases q with
    | chain u => cases u <;> cases h
    | _ => first | rfl | cases h

def Phrase.Reads (p : Phrase) (cs : List Char) (e : Expr) : Prop :=
  ∃ d : Derivation (.phrase p), Spells cs d.lexemes ∧ d.value = e

theorem readsAs_of_reads {source : String} {t : Expr} (h : (Phrase.chain .bitOr).Reads source.toList t) :
    Expr.ReadsAs source t := by
  obtain ⟨d, hs, rfl⟩ := h
  exact readsAs_of_spells d hs

namespace Phrase.Reads
variable {cs ds : List Char} {e e' : Expr}

theorem chain_of_operand (tier : Tier) (h : tier.operand.Reads cs e) : (Phrase.chain tier).Reads cs e := by
  obtain ⟨d, hs, rfl⟩ := h
  exact ⟨.chain d .done, by simpa [lexemes] using hs, rfl⟩

theorem looser {p : Phrase} (h : p.Reads cs e) (hp : 1 < p.level) :
    ∃ q : Phrase, q.level + 1 = p.level ∧ q.Reads cs e := by
  cases p with
  | primary =>
    obtain ⟨d, hs, hv⟩ := h
    exact ⟨.power, rfl, .plain d, hs, hv⟩
  | power =>
    obtain ⟨d, hs, hv⟩ := h
    exact ⟨.unary, rfl, .unsigned d, hs, hv⟩
  | unary => exact ⟨.chain .product, rfl, chain_of_operand .product h⟩
  | chain tier =>
    cases tier with
    | product => exact ⟨.chain .sum, rfl, chain_of_operand .sum h⟩
    | sum => exact ⟨.chain .bitAnd, rfl, chain_of_operand .bitAnd h⟩
    | bitAnd => exact ⟨.chain .bitOr, rfl, chain_of_operand .bitOr h⟩
    | bitOr => exact absurd hp (by decide)

theorem loosen : ∀ (n : Nat) {p q : Phrase}, p.level = q.level + n → p.Reads cs e → q.Reads cs e
  | 0, p, q, hl, h => Phrase.level_injective hl ▸ h
  | n + 1, p, q, hl, h => by
    have : 1 ≤ q.level := q.bitOr_le_level
    obtain ⟨p', hl', h'⟩ := h.looser (by omega)
    exact loosen n (by omega) h'

theorem of_le {p q : Phrase} (h : p.Reads cs e) (hl : q.level ≤ p.level) : q.Reads cs e :=
  loosen (p.level - q.level) (by omega) h

theorem number {n : Numeral} (h : (Lexeme.number n).isWritten = true) :
    Phrase.primary.Reads n.chars (.number n.value) := by
  refine ⟨.number n, ?_, rfl⟩
  rw [← Lexeme.chars_number]
  exact .single h

theorem name {n : String} (h : isName n = true) : Phrase.primary.Reads n.toList (.name n) :=
  ⟨.name n, .single (l := .name n) h, rfl⟩

theorem signed {s : Symbol} {sign : Sign} (signs : Signs s sign) (h : Phrase.unary.Reads cs e) :
    Phrase.unary.Reads (s.char :: cs) (.signed sign e) := by
  obtain ⟨d, hs, rfl⟩ := h
  exact ⟨.signed s sign signs d, hs.symbol s, rfl⟩

theorem group (h : (Phrase.chain .bitOr).Reads cs e) :
    Phrase.primary.Reads ('(' :: (cs ++ [')'])) (.group e) := by
  obtain ⟨d, hs, rfl⟩ := h
  exact ⟨.group d, (hs.append_symbol .closing .nil).symbol .opening, rfl⟩

theorem call {f : String} (hf : isName f = true) {d : Derivation .arguments} (h : Spells cs d.lexemes) :
    Phrase.primary.Reads (f.toList ++ '(' :: (cs ++ [')'])) (.call f d.value) := by
  refine ⟨.call f d, ?_, rfl⟩
  have hargs := (h.append_symbol .closing .nil).symbol .opening
  have hstop : (Lexeme.name f).StopsAt (Symbol.opening.char :: (cs ++ [Symbol.closing.char])) := by
    intro c hc
    cases hc
    exact (by decide : isNameChar '(' = false)
  exact Spells.lexeme (l := .name f) hf hstop hargs

theorem spells_joined {ls ms : List Lexeme} (h : Spells cs ls) (s : Symbol) (h' : Spells ds ms) :
    Spells (cs ++ ' ' :: s.char :: ' ' :: ds) (ls ++ .symbol s :: ms) := by
  refine h.append (.blank rfl ((h'.blank rfl).symbol s)) fun c hc => ?_
  cases hc
  decide

theorem power (h : Phrase.primary.Reads cs e) (h' : Phrase.unary.Reads ds e') :
    Phrase.power.Reads (cs ++ ' ' :: '^' :: ' ' :: ds) (.binary .pow e e') := by
  obtain ⟨d, hs, rfl⟩ := h
  obtain ⟨d', hs', rfl⟩ := h'
  exact ⟨.raised d d', spells_joined hs .caret hs', rfl⟩

theorem exists_extended {tier : Tier} {s : Symbol} {op : Operator} (joins : Joins tier s op)
    (right : Derivation (.phrase tier.operand)) : ∀ more : Derivation (.more tier),
    ∃ more' : Derivation (.more tier), more'.lexemes = more.lexemes ++ .symbol s :: right.lexemes ∧
      more'.value = more.value ++ [(op, right.value)]
  | .done => ⟨.link s op joins right .done, by simp [lexemes], rfl⟩
  | .link s' op' joins' right' more => by
    obtain ⟨more', hl, hv⟩ := exists_extended joins right more
    exact ⟨.link s' op' joins' right' more', by simp [lexemes, hl], by simp [value, hv]⟩

theorem link {tier : Tier} {s : Symbol} {op : Operator} (joins : Joins tier s op)
    (h : (Phrase.chain tier).Reads cs e) (h' : tier.operand.Reads ds e') :
    (Phrase.chain tier).Reads (cs ++ ' ' :: s.char :: ' ' :: ds) (.binary op e e') := by
  obtain ⟨d, hs, rfl⟩ := h
  obtain ⟨right, hs', rfl⟩ := h'
  obtain ⟨first, more, rfl⟩ : ∃ first more, d = .chain first more := by
    cases d
    exact ⟨_, _, rfl⟩
  obtain ⟨more', hl, hv⟩ := exists_extended joins right more
  refine ⟨.chain first more', ?_, ?_⟩
  · rw [lexemes, hl, ← List.append_assoc]
    exact spells_joined hs s hs'
  · simp [value, hv, joinAll]

/-- An operand is a phrase of the level at which it is asked for, with parentheses where it needs them. -/
theorem enclose {p q : Phrase} {t shown : Expr} {text : String} {asked : Level} (h : p.Reads text.toList shown)
    (hp : p.level = t.level) (hq : q.level ≤ asked) :
    q.Reads (t.enclose asked text).toList (t.bracketed asked shown) := by
  unfold Expr.enclose Expr.bracketed
  split
  · rw [String.toList_append, String.toList_append]
    exact (h.of_le p.bitOr_le_level).group.of_le q.level_le_primary
  · rename_i hlt
    exact h.of_le (Nat.le_trans hq (hp ▸ Nat.not_lt.mp hlt))

end Phrase.Reads

theorem joins_spec {tier : Tier} {s : Symbol} {op : Operator} (h : Joins tier s op) :
    op ∈ Operator.known ∧ op.symbol = String.singleton s.char ∧ op.level = (Phrase.chain tier).level ∧
      op.leftLevel = (Phrase.chain tier).level ∧ op.rightLevel = tier.operand.level := by
  cases h <;> decide

theorem exists_joins {op : Operator} (h : op ∈ Operator.known) (hp : op ≠ .pow) : ∃ tier s, Joins tier s op := by
  cases op with
  | add => exact ⟨_, _, .plus⟩
  | sub => exact ⟨_, _, .minus⟩
  | mul => exact ⟨_, _, .star⟩
  | div => exact ⟨_, _, .slash⟩
  | mod => exact ⟨_, _, .percent⟩
  | bitAnd => exact ⟨_, _, .ampersand⟩
  | bitOr => exact ⟨_, _, .bar⟩
  | pow => exact absurd rfl hp
  | other s => simp [Operator.known] at h

theorem sign_cases {sign : Sign} (h : sign.isKnown = true) :
    ∃ s, Signs s sign ∧ sign.symbol = String.singleton s.char := by
  cases sign with
  | plus => exact ⟨.plus, .plus, rfl⟩
  | minus => exact ⟨.minus, .minus, rfl⟩
  | other _ => cases h

end Grammar

namespace Expr
open Grammar Grammar.Derivation

/-! ## Texts of trees -/

/-- A text is written and stands for what it shows at the level of the tree. -/
def WritesBack (e : Expr) : Prop :=
  ∃ text, e.source = .ok text ∧ ∃ p : Phrase, p.level = e.level ∧ p.Reads text.toList e.written

theorem writesBack_number {x : Binary64} (h : x.isFinite = true) : (number x).WritesBack := by
  cases x with
  | finite negative ordinal =>
    have hn := Phrase.Reads.number (Numeral.isWritten_ofMagnitude ordinal)
    rw [Numeral.value_ofMagnitude] at hn
    refine ⟨_, numberSource_finite negative ordinal, ?_⟩
    cases negative with
    | false =>
      refine ⟨.primary, rfl, ?_⟩
      simpa [Binary64.signText, Numeral.text, written, Binary64.isNegative] using hn
    | true =>
      refine ⟨.unary, rfl, ?_⟩
      have hs := (hn.of_le (q := .unary) (by decide)).signed .minus
      simpa [Binary64.signText, Numeral.text, written, Binary64.isNegative, Symbol.char] using hs
  | _ => cases h

theorem writesBack_signed {s : Sign} {e : Expr} (hs : s.isKnown = true) (h : e.WritesBack) :
    (signed s e).WritesBack := by
  obtain ⟨text, he, p, hp, hr⟩ := h
  obtain ⟨sym, signs, hsym⟩ := sign_cases hs
  have hlevel : Phrase.unary.level ≤ e.signedLevel := by
    cases e <;> simp [signedLevel, Phrase.level, Level.sign, Level.primary]
  refine ⟨s.symbol ++ e.enclose e.signedLevel text, by rw [source, he]; rfl, .unary, rfl, ?_⟩
  rw [written, hsym, String.toList_append, String.toList_singleton]
  exact (hr.enclose hp hlevel).signed signs

theorem writesBack_binary {op : Operator} {l r : Expr} (hop : op ∈ Operator.known) (hl : l.WritesBack)
    (hr : r.WritesBack) : (binary op l r).WritesBack := by
  obtain ⟨left, hls, p, hp, hlr⟩ := hl
  obtain ⟨right, hrs, q, hq, hrr⟩ := hr
  refine ⟨l.enclose op.leftLevel left ++ " " ++ op.symbol ++ " " ++ r.enclose op.rightLevel right,
    by rw [source, hls, hrs]; rfl, ?_⟩
  have htext : ∀ s : Symbol, op.symbol = String.singleton s.char →
      (l.enclose op.leftLevel left ++ " " ++ op.symbol ++ " " ++ r.enclose op.rightLevel right).toList =
        (l.enclose op.leftLevel left).toList ++ ' ' :: s.char :: ' ' :: (r.enclose op.rightLevel right).toList := by
    intro s hs
    simp [hs]
  by_cases hpow : op = .pow
  · subst hpow
    refine ⟨.power, rfl, ?_⟩
    rw [written, htext .caret rfl]
    exact (hlr.enclose hp (Nat.le_refl _)).power (hrr.enclose hq (Nat.le_refl _))
  · obtain ⟨tier, s, joins⟩ := exists_joins hop hpow
    obtain ⟨-, hs, hlevel, hleft, hright⟩ := joins_spec joins
    refine ⟨.chain tier, hlevel.symm, ?_⟩
    rw [written, htext s hs]
    exact .link joins (hlr.enclose hp (Nat.le_of_eq hleft.symm)) (hrr.enclose hq (Nat.le_of_eq hright.symm))

theorem writesBack_group {e : Expr} (h : e.WritesBack) : (group e).WritesBack := by
  obtain ⟨text, he, p, -, hr⟩ := h
  refine ⟨"(" ++ text ++ ")", by rw [source, he]; rfl, .primary, rfl, ?_⟩
  rw [written, String.toList_append, String.toList_append]
  exact (hr.of_le p.bitOr_le_level).group

def AllWriteBack (es : List Expr) : Prop :=
  ∃ texts, sources es = .ok texts ∧ ∃ d : Derivation .arguments,
    Spells (String.intercalate ", " texts).toList d.lexemes ∧ d.value = allWritten es

theorem allWriteBack_cons {e : Expr} {es : List Expr} (h : e.WritesBack) (hs : AllWriteBack es) :
    AllWriteBack (e :: es) := by
  obtain ⟨text, he, p, -, hr⟩ := h
  obtain ⟨texts, hes, d, hd, hv⟩ := hs
  obtain ⟨first, hf, hfv⟩ := hr.of_le (q := .chain .bitOr) p.bitOr_le_level
  refine ⟨text :: texts, by rw [sources, he, hes]; rfl, ?_⟩
  cases es with
  | nil =>
    cases hes
    refine ⟨.someArguments first .noMore, ?_, by rw [value, hfv]; rfl⟩
    simpa [lexemes] using hf
  | cons e' es =>
    obtain ⟨text', texts', rfl⟩ : ∃ text' texts', texts = text' :: texts' := by
      obtain ⟨text', -, hrest⟩ := bind_eq_ok hes
      obtain ⟨texts', -, hlast⟩ := bind_eq_ok hrest
      cases hlast
      exact ⟨text', texts', rfl⟩
    cases d with
    | noArguments => cases hv
    | someArguments second more =>
      refine ⟨.someArguments first (.oneMore second more), ?_, ?_⟩
      · rw [String.intercalate_cons_cons, String.toList_append, String.toList_append]
        simpa [lexemes, Symbol.char] using hf.append_symbol .comma (hd.blank (c := ' ') rfl)
      · rw [value, value, hfv]
        exact congrArg (e.written :: ·) hv

theorem writesBack_call {f : String} {args : List Expr} (hf : isName f = true) (h : AllWriteBack args) :
    (call f args).WritesBack := by
  obtain ⟨texts, hs, d, hd, hv⟩ := h
  refine ⟨f ++ "(" ++ String.intercalate ", " texts ++ ")", by rw [source, hs]; rfl, .primary, rfl, ?_⟩
  have hcall := Phrase.Reads.call hf hd
  rw [hv] at hcall
  simpa [written] using hcall

mutual

theorem writesBack : ∀ {e : Expr}, e.isWellFormed = true → (∀ x ∈ e.literals, x.isFinite = true) → e.WritesBack
  | number x, _, hx => writesBack_number (hx x (by simp [literals]))
  | name n, hw, _ => ⟨n, rfl, .primary, rfl, .name hw⟩
  | signed s e, hw, hx => by
    rw [isWellFormed, Bool.and_eq_true] at hw
    rw [literals] at hx
    exact writesBack_signed hw.1 (writesBack hw.2 hx)
  | binary op l r, hw, hx => by
    simp only [isWellFormed, Bool.and_eq_true, decide_eq_true_eq] at hw
    simp only [literals, List.mem_append, or_imp, forall_and] at hx
    exact writesBack_binary hw.1.1 (writesBack hw.1.2 hx.1) (writesBack hw.2 hx.2)
  | group e, hw, hx => by
    rw [isWellFormed] at hw
    rw [literals] at hx
    exact writesBack_group (writesBack hw hx)
  | call f args, hw, hx => by
    rw [isWellFormed, Bool.and_eq_true] at hw
    rw [literals] at hx
    exact writesBack_call hw.1 (allWriteBack hw.2 hx)
  | foreign _, hw, _ => by cases hw

theorem allWriteBack : ∀ {es : List Expr}, allWellFormed es = true →
    (∀ x ∈ allLiterals es, x.isFinite = true) → AllWriteBack es
  | [], _, _ => ⟨[], rfl, .noArguments, .nil, rfl⟩
  | e :: es, hw, hx => by
    rw [allWellFormed, Bool.and_eq_true] at hw
    simp only [allLiterals, List.mem_append, or_imp, forall_and] at hx
    exact allWriteBack_cons (writesBack hw.1 hx.1) (allWriteBack hw.2 hx.2)

end

theorem readsAs_source {e : Expr} (h : e.IsWritable) : ∃ text, e.source = .ok text ∧ ReadsAs text e.written := by
  obtain ⟨text, hs, p, -, hr⟩ := writesBack h.wellFormed h.finite
  exact ⟨text, hs, readsAs_of_reads (hr.of_le p.bitOr_le_level)⟩

end Expr
end Calculator
