import Calculator.Proofs.Expr.Nesting
import Calculator.Proofs.Expr.Parentheses
import Calculator.Proofs.Grammar.Openings

/-!
# No needless parentheses

`parentheses_needed`: each pair of parentheses that is added for the level of an operand is needed. Without it the
text of the whole cannot be read, or stands for another tree. The tree that the text would have to stand for is known
(`Pair.exists_bare`): it is spelled with the parentheses that remain, and has the operand where it may not stand.
-/

namespace Calculator.Expr
open Grammar Grammar.Derivation

/-! ## Trees in a list -/

theorem stripAll_eq_map (es : List Expr) : stripAll es = es.map strip := by
  induction es with
  | nil => rfl
  | cons e es ih => rw [stripAll, List.map_cons, ih]

theorem allGrammatical_eq_all (es : List Expr) : allGrammatical es = es.all isGrammatical := by
  induction es with
  | nil => rfl
  | cons e es ih => rw [allGrammatical, List.all_cons, ih]

theorem Part.isWritable {whole part : Expr} {asked : Level} {before behind : String}
    (h : Part whole part asked before behind) (hw : whole.IsWritable) : part.IsWritable := by
  cases h with
  | signed s e => exact hw.signed.2
  | left op l source => exact hw.binary.2.1
  | right op r source => exact hw.binary.2.2
  | group e => exact hw.group
  | argument f e first last =>
    exact hw.call.2 _ (List.mem_append_right _ List.mem_cons_self)

/-! ## Texts and their parentheses -/

def Turning (text : String) (turns : List Turn) : Prop := ∃ ls, Spells text.toList ls ∧ ls.map Lexeme.turn = turns

namespace Turning
variable {text text' : String} {ts us : List Turn}

theorem blank (h : Turning text ts) : Turning (" " ++ text) ts := by
  obtain ⟨ls, hs, ht⟩ := h
  refine ⟨ls, ?_, ht⟩
  rw [String.toList_append]
  exact hs.blank (c := ' ') rfl

theorem symbol (s : Symbol) (h : Turning text ts) :
    Turning (String.singleton s.char ++ text) ((Lexeme.symbol s).turn :: ts) := by
  obtain ⟨ls, hs, rfl⟩ := h
  refine ⟨.symbol s :: ls, ?_, rfl⟩
  rw [String.toList_append, String.toList_singleton]
  exact hs.symbol s

theorem append_symbol (h : Turning text ts) (s : Symbol) (h' : Turning text' us) :
    Turning (text ++ (String.singleton s.char ++ text')) (ts ++ (Lexeme.symbol s).turn :: us) := by
  obtain ⟨ls, hs, rfl⟩ := h
  obtain ⟨ms, hs', rfl⟩ := h'
  refine ⟨ls ++ .symbol s :: ms, ?_, by rw [List.map_append, List.map_cons]⟩
  rw [String.toList_append, String.toList_append, String.toList_singleton]
  exact hs.append_symbol s hs'

theorem closed (h : Turning text ts) : Turning (text ++ ")") (ts ++ [.closes]) := by
  have hend : Turning "" [] := ⟨[], .nil, rfl⟩
  have hclosed := h.append_symbol .closing hend
  rw [String.append_empty] at hclosed
  exact hclosed

theorem append_separator (h : Turning text ts) (h' : Turning text' us) :
    Turning (text ++ (", " ++ text')) (ts ++ .stays :: us) := by
  have hcomma : ", " ++ text' = String.singleton Symbol.comma.char ++ (" " ++ text') := by
    rw [← String.append_assoc]
    rfl
  rw [hcomma]
  exact h.append_symbol .comma h'.blank

theorem group (h : Turning text ts) : Turning ("(" ++ text ++ ")") (.opens :: (ts ++ [.closes])) := by
  rw [String.append_assoc]
  exact h.closed.symbol .opening

theorem joined (h : Turning text ts) (s : Symbol) (h' : Turning text' us) :
    Turning (text ++ " " ++ String.singleton s.char ++ " " ++ text') (ts ++ (Lexeme.symbol s).turn :: us) := by
  obtain ⟨ls, hs, rfl⟩ := h
  obtain ⟨ms, hs', rfl⟩ := h'
  refine ⟨ls ++ .symbol s :: ms, ?_, by rw [List.map_append, List.map_cons]⟩
  simpa using Phrase.Reads.spells_joined hs s hs'

theorem call {f : String} (hf : isName f = true) (h : Turning text ts) :
    Turning (f ++ "(" ++ text) (.stays :: .opens :: ts) := by
  obtain ⟨ls, hs, rfl⟩ := h
  refine ⟨.name f :: .symbol .opening :: ls, ?_, rfl⟩
  rw [String.toList_append, String.toList_append, List.append_assoc]
  refine Spells.lexeme (l := .name f) hf ?_ (hs.symbol .opening)
  intro c hc
  cases hc
  exact (by decide : isNameChar '(' = false)

end Turning

theorem turning_source {e : Expr} {text : String} (h : e.IsWritable) (hs : e.source = .ok text) :
    Turning text e.written.turns := by
  obtain ⟨text', hs', p, -, d, hd, hv⟩ := writesBack h.wellFormed h.finite
  cases hs.symm.trans hs'
  exact ⟨d.lexemes, hd, by rw [turns_lexemes, hv]⟩

theorem turning_enclose {shown : Expr} {text : String} (h : Turning text shown.turns) (e : Expr) (asked : Level) :
    Turning (e.enclose asked text) (e.bracketed asked shown).turns := by
  unfold enclose bracketed
  split
  · exact h.group
  · exact h

/-! ## Numbers without signs -/

theorem isUnsigned_of_parse {limit : Nat} {source : String} {t : Expr} (h : parseWithin limit source = .ok t) :
    t.IsUnsigned := by
  obtain ⟨ts, -, hs⟩ := settled_of_parse h
  intro x hx
  rw [hs.literals, mem_numbers] at hx
  obtain ⟨n, -, rfl⟩ := hx
  rcases n.value_eq with hv | ⟨ordinal, hv⟩ <;> rw [hv] <;> rfl

theorem isUnsigned_written {e : Expr} (h : e.IsWritable) : e.written.IsUnsigned := by
  obtain ⟨text, -, hr⟩ := readsAs_source h
  exact isUnsigned_of_parse ((hr (text.length + 1)).resolve_right fun hdeep => Nat.not_succ_le_self _ hdeep.1)

theorem isUnsigned_bracketed {e shown : Expr} (h : shown.IsUnsigned) (asked : Level) :
    (e.bracketed asked shown).IsUnsigned := by
  unfold bracketed
  split
  · exact h
  · exact h

/-! ## Arguments -/

theorem turnsBehind_append (as : List Expr) (x : Expr) (bs : List Expr) : turnsBehind (as ++ x :: bs) =
    .stays :: (as.flatMap (fun a => a.turns ++ [.stays]) ++ (x.turns ++ turnsBehind bs)) := by
  induction as with
  | nil => rfl
  | cons a as ih =>
    rw [List.cons_append, turnsBehind, ih, List.flatMap_cons]
    simp only [List.append_assoc, List.cons_append, List.nil_append]

theorem turns_call (f : String) (as : List Expr) (x : Expr) (bs : List Expr) : (call f (as ++ x :: bs)).turns =
    .stays :: .opens :: (as.flatMap (fun a => a.turns ++ [.stays]) ++ (x.turns ++ turnsBehind bs)) := by
  cases as with
  | nil => rfl
  | cons a as =>
    rw [List.cons_append, turns, turnsBehind_append, List.flatMap_cons]
    simp only [List.append_assoc, List.cons_append, List.nil_append]

theorem turning_before {text : String} {ts : List Turn} (h : Turning text ts) : ∀ {as : List Expr}
    {first : List String}, (∀ a ∈ as, a.IsWritable) → sources as = .ok first →
    Turning (String.join (first.map (· ++ ", ")) ++ text)
      ((as.map written).flatMap (fun a => a.turns ++ [.stays]) ++ ts)
  | [], first, _, hs => by
    cases hs
    rw [List.map_nil, String.join_nil, String.empty_append]
    exact h
  | a :: as, first, hw, hs => by
    obtain ⟨textA, ha, hrest⟩ := bind_eq_ok hs
    obtain ⟨texts, has, ht⟩ := bind_eq_ok hrest
    cases ht
    rw [List.forall_mem_cons] at hw
    have hsep := (turning_source hw.1 ha).append_separator (turning_before h hw.2 has)
    rw [List.map_cons, String.join_cons, List.map_cons, List.flatMap_cons]
    simpa only [String.append_assoc, List.append_assoc, List.cons_append, List.nil_append] using hsep

theorem turning_behind : ∀ {bs : List Expr} {last : List String} {text : String} {ts : List Turn},
    (∀ b ∈ bs, b.IsWritable) → sources bs = .ok last → Turning text ts →
    Turning (text ++ (String.join (last.map (", " ++ ·)) ++ ")")) (ts ++ turnsBehind (bs.map written))
  | [], last, text, ts, _, hs, h => by
    cases hs
    rw [List.map_nil, String.join_nil, String.empty_append]
    exact h.closed
  | b :: bs, last, text, ts, hw, hs, h => by
    obtain ⟨textB, hb, hrest⟩ := bind_eq_ok hs
    obtain ⟨texts, hbs, ht⟩ := bind_eq_ok hrest
    cases ht
    rw [List.forall_mem_cons] at hw
    have hsep := h.append_separator (turning_behind hw.2 hbs (turning_source hw.1 hb))
    rw [List.map_cons, String.join_cons, List.map_cons, turnsBehind]
    simpa only [String.append_assoc] using hsep

/-! ## Trees around a part -/

theorem exists_symbol {op : Operator} (h : op ∈ Operator.known) :
    ∃ s : Symbol, op.symbol = String.singleton s.char ∧ (Lexeme.symbol s).turn = .stays := by
  by_cases hp : op = .pow
  · exact ⟨.caret, by rw [hp]; rfl, rfl⟩
  · obtain ⟨tier, s, joins⟩ := exists_joins h hp
    exact ⟨s, (joins_spec joins).2.1, turn_joins joins⟩

theorem turning_binary {op : Operator} (h : op ∈ Operator.known) {left right : String} {l r : Expr}
    (hl : Turning left l.turns) (hr : Turning right r.turns) :
    Turning (left ++ " " ++ op.symbol ++ " " ++ right) (binary op l r).turns := by
  obtain ⟨s, hs, hturn⟩ := exists_symbol h
  have hjoined := hl.joined s hr
  rwa [← hs, hturn] at hjoined

theorem isGrammatical_bracketed (e : Expr) (asked : Level) (shown : Expr) :
    (e.bracketed asked shown).isGrammatical = shown.isGrammatical := by
  unfold bracketed
  split
  · rw [isGrammatical]
  · rfl

/-- What is around a part in a written tree, as a function of what is shown in its place. -/
structure Surrounds (whole part : Expr) (asked : Level) (before behind : String) (around : Expr → Expr) : Prop where
  turning : ∀ {text : String} {x : Expr}, Turning text x.turns → Turning (before ++ text ++ behind) (around x).turns
  strip : ∀ {x : Expr}, x.strip = part.strip → (around x).strip = whole.strip
  isUnsigned : ∀ {x : Expr}, x.IsUnsigned → (around x).IsUnsigned
  grammatical : ∀ {x : Expr}, (around x).isGrammatical = true → x.isGrammatical = true
  level : ∀ {x : Expr}, (around x).isGrammatical = true → whole.origin part = .operand → asked ≤ x.level

theorem surrounds_signed {s : Sign} {e : Expr} (h : (signed s e).IsWritable) :
    Surrounds (signed s e) e e.signedLevel s.symbol "" (signed s) where
  turning := by
    intro text x ht
    obtain ⟨sym, signs, hsym⟩ := sign_cases h.signed.1
    rw [String.append_empty, hsym, turns, ← turn_signs signs]
    exact ht.symbol sym
  strip hs := by rw [Expr.strip, Expr.strip, hs]
  isUnsigned hx := hx
  grammatical hg := by
    simp only [isGrammatical, Bool.and_eq_true] at hg
    exact hg.2
  level := by
    intro x hg ho
    simp only [isGrammatical, Bool.and_eq_true, decide_eq_true_eq] at hg
    cases e with
    | number => cases ho
    | _ => exact hg.1.2

theorem surrounds_left {op : Operator} {l r : Expr} {right : String} (h : (binary op l r).IsWritable)
    (hr : r.source = .ok right) : Surrounds (binary op l r) l op.leftLevel ""
      (" " ++ op.symbol ++ " " ++ r.enclose op.rightLevel right)
      (fun x => binary op x (r.bracketed op.rightLevel r.written)) where
  turning := by
    intro text x ht
    obtain ⟨hop, -, hr'⟩ := h.binary
    have hbinary := turning_binary hop ht (turning_enclose (turning_source hr' hr) r op.rightLevel)
    simpa only [String.empty_append, String.append_assoc] using hbinary
  strip hs := by rw [Expr.strip, Expr.strip, hs, strip_bracketed, strip_written]
  isUnsigned hx := List.forall_mem_append.mpr ⟨hx, isUnsigned_bracketed (isUnsigned_written h.binary.2.2) _⟩
  grammatical hg := by
    simp only [isGrammatical, Bool.and_eq_true] at hg
    exact hg.1.2
  level hg _ := by
    simp only [isGrammatical, Bool.and_eq_true, decide_eq_true_eq] at hg
    exact hg.1.1.1.2

theorem surrounds_right {op : Operator} {l r : Expr} {left : String} (h : (binary op l r).IsWritable)
    (hl : l.source = .ok left) : Surrounds (binary op l r) r op.rightLevel
      (l.enclose op.leftLevel left ++ " " ++ op.symbol ++ " ") ""
      (binary op (l.bracketed op.leftLevel l.written)) where
  turning := by
    intro text x ht
    obtain ⟨hop, hl', -⟩ := h.binary
    rw [String.append_empty]
    exact turning_binary hop (turning_enclose (turning_source hl' hl) l op.leftLevel) ht
  strip hs := by rw [Expr.strip, Expr.strip, hs, strip_bracketed, strip_written]
  isUnsigned hx := List.forall_mem_append.mpr ⟨isUnsigned_bracketed (isUnsigned_written h.binary.2.1) _, hx⟩
  grammatical hg := by
    simp only [isGrammatical, Bool.and_eq_true] at hg
    exact hg.2
  level hg _ := by
    simp only [isGrammatical, Bool.and_eq_true, decide_eq_true_eq] at hg
    exact hg.1.1.2

theorem surrounds_group (e : Expr) : Surrounds (group e) e Level.bitOr "(" ")" group where
  turning ht := ht.group
  strip hs := by rw [Expr.strip, Expr.strip, hs]
  isUnsigned hx := hx
  grammatical hg := hg
  level _ _ := bitOr_le_level _

theorem surrounds_argument {f : String} {as : List Expr} {e : Expr} {bs : List Expr} {first last : List String}
    (h : (call f (as ++ e :: bs)).IsWritable) (has : sources as = .ok first) (hbs : sources bs = .ok last) :
    Surrounds (call f (as ++ e :: bs)) e Level.bitOr (f ++ "(" ++ String.join (first.map (· ++ ", ")))
      (String.join (last.map (", " ++ ·)) ++ ")") (fun x => call f (as.map written ++ x :: bs.map written)) where
  turning := by
    intro text x ht
    obtain ⟨hf, hargs⟩ := h.call
    obtain ⟨has', -, hbs'⟩ := List.forall_mem_append.mp hargs |>.imp_right List.forall_mem_cons.mp
    have hcall := Turning.call hf (turning_before (turning_behind hbs' hbs ht) has' has)
    rw [turns_call]
    simpa only [String.append_assoc] using hcall
  strip hs := by
    have hshown : ∀ es : List Expr, (es.map written).map strip = es.map strip := by
      intro es
      rw [List.map_map]
      exact List.map_congr_left fun e _ => strip_written e
    rw [Expr.strip, Expr.strip, stripAll_eq_map, stripAll_eq_map, List.map_append, List.map_append, List.map_cons,
      List.map_cons, hs, hshown, hshown]
  isUnsigned := by
    intro x hx y hy
    obtain ⟨-, hargs⟩ := h.call
    obtain ⟨has', -, hbs'⟩ := List.forall_mem_append.mp hargs |>.imp_right List.forall_mem_cons.mp
    have hshown : ∀ {es : List Expr}, (∀ e ∈ es, e.IsWritable) → ∀ y ∈ (es.map written).flatMap literals,
        y.isNegative = false := by
      intro es hes y hy
      obtain ⟨e, he, hy⟩ := List.mem_flatMap.mp hy
      obtain ⟨e, he', rfl⟩ := List.mem_map.mp he
      exact isUnsigned_written (hes e he') y hy
    rw [literals, allLiterals_eq_flatMap, List.flatMap_append, List.flatMap_cons, List.mem_append,
      List.mem_append] at hy
    rcases hy with hy | hy | hy
    · exact hshown has' y hy
    · exact hx y hy
    · exact hshown hbs' y hy
  grammatical hg := by
    simp only [isGrammatical, Bool.and_eq_true, allGrammatical_eq_all, List.all_append, List.all_cons] at hg
    exact hg.2.2.1
  level _ _ := bitOr_le_level _

theorem Part.exists_surrounding {whole part : Expr} {asked : Level} {before behind : String}
    (h : Part whole part asked before behind) (hw : whole.IsWritable) :
    ∃ around, Surrounds whole part asked before behind around := by
  cases h with
  | signed s e => exact ⟨_, surrounds_signed hw⟩
  | left op l source => exact ⟨_, surrounds_left hw source⟩
  | right op r source => exact ⟨_, surrounds_right hw source⟩
  | group e => exact ⟨_, surrounds_group _⟩
  | argument f e first last => exact ⟨_, surrounds_argument hw first last⟩

/-! ## Texts without a pair of parentheses -/

/-- The tree that the text without a pair would have to stand for. -/
theorem Pair.exists_bare {t : Expr} {origin : Origin} {before inside behind : String}
    (h : Pair t origin before inside behind) : t.IsWritable → origin = .operand →
    ∃ x : Expr, Turning (before ++ inside ++ behind) x.turns ∧ x.strip = t.strip ∧ x.IsUnsigned ∧
      x.isGrammatical = false := by
  induction h with
  | group => exact fun _ ho => nomatch ho
  | call => exact fun _ ho => nomatch ho
  | @added whole part asked before behind text h loose source =>
    intro hw ho
    obtain ⟨around, ha⟩ := h.exists_surrounding hw
    have hpart := h.isWritable hw
    refine ⟨around part.written, ha.turning (turning_source hpart source), ha.strip (strip_written part),
      ha.isUnsigned (isUnsigned_written hpart), ?_⟩
    rw [← Bool.not_eq_true]
    intro hg
    have hlevel := ha.level hg ho
    rw [level_written] at hlevel
    exact absurd loose (Nat.not_lt.mpr hlevel)
  | @within whole part asked before behind before' inside behind' origin h _ ih =>
    intro hw ho
    obtain ⟨x, ht, hs, hu, hg⟩ := ih (h.isWritable hw) ho
    obtain ⟨around, ha⟩ := h.exists_surrounding hw
    refine ⟨around (part.bracketed asked x), ?_, ha.strip ((strip_bracketed part asked x).trans hs),
      ha.isUnsigned (isUnsigned_bracketed hu asked), ?_⟩
    · have := ha.turning (turning_enclose ht part asked)
      rw [enclose_eq] at this
      simpa only [String.append_assoc] using this
    · rw [← Bool.not_eq_true]
      intro hwhole
      have hpart := ha.grammatical hwhole
      rw [isGrammatical_bracketed, hg] at hpart
      cases hpart

def Matched (text : String) : Prop :=
  ∃ ls, Spells text.toList ls ∧ ∀ place opened, openings place opened ls = opened

theorem matched_source {e : Expr} {text : String} (h : e.IsWritable) (hs : e.source = .ok text) : Matched text := by
  obtain ⟨text', hs', p, -, d, hd, -⟩ := writesBack h.wellFormed h.finite
  cases hs.symm.trans hs'
  exact ⟨d.lexemes, hd, openings_lexemes d⟩

theorem Pair.matched {t : Expr} {origin : Origin} {before inside behind : String}
    (h : Pair t origin before inside behind) : t.IsWritable → Matched inside := by
  induction h with
  | group source => exact fun hw => matched_source hw.group source
  | @call f args texts source =>
    rintro ⟨hw, hf⟩
    rw [isWellFormed, Bool.and_eq_true] at hw
    obtain ⟨texts', hs, d, hd, -⟩ := allWriteBack hw.2 hf
    cases source.symm.trans hs
    exact ⟨d.lexemes, hd, openings_lexemes d⟩
  | added h _ source => exact fun hw => matched_source (h.isWritable hw) source
  | within h _ ih => exact fun hw => ih (h.isWritable hw)

theorem parentheses_needed {t : Expr} (h : t.IsWritable) : ∃ text, t.source = .ok text ∧
    (∀ before rest, text = before ++ "(" ++ rest → ∃ origin inside behind,
      rest = inside ++ ")" ++ behind ∧ Matched inside ∧ Pair t origin before inside behind) ∧
    ∀ before inside behind, Pair t .operand before inside behind →
      text = before ++ "(" ++ inside ++ ")" ++ behind ∧
      ∀ limit t', parseWithin limit (before ++ inside ++ behind) = .ok t' → t'.strip ≠ t.strip := by
  obtain ⟨text, hs, -⟩ := readsAs_source h
  refine ⟨text, hs, ?_, ?_⟩
  · rintro before rest rfl
    obtain ⟨origin, inside, behind, hrest, hpair⟩ := isPaired h.wellFormed before rest hs
    exact ⟨origin, inside, behind, hrest, hpair.matched h, hpair⟩
  intro before inside behind hpair
  refine ⟨Except.ok.inj (hs.symm.trans hpair.source), fun limit t' ht' hstrip => ?_⟩
  obtain ⟨x, ⟨ls, hls, hturns⟩, hxs, hxu, hxg⟩ := hpair.exists_bare h rfl
  obtain ⟨ts, hts, d, hd, hv⟩ := exists_derivation ht'
  have hsame : ls = d.lexemes := by
    rw [hd]
    exact hls.unique (.of_segmentation (tokens_eq_ok_iff.mp hts))
  -- the tree read would be the bare one, of which one operand stands too low
  have heq : t' = x := by
    refine eq_of_turns (isUnsigned_of_parse ht') hxu (hstrip.trans hxs.symm) ?_
    rw [← hturns, hsame, turns_lexemes, hv]
  rw [← heq, isGrammatical_of_parse ht'] at hxg
  cases hxg

/-- Without its parentheses the base of a power loses its sign. -/
theorem parentheses_needed_signed_base : (binary .pow (signed .minus (name "x")) (name "y")).IsWritable ∧
    (binary .pow (signed .minus (name "x")) (name "y")).source = .ok "(-x) ^ y" ∧
    ∀ limit t', parseWithin limit "-x ^ y" = .ok t' →
      t'.strip ≠ (binary .pow (signed .minus (name "x")) (name "y")).strip := by
  have h : (binary .pow (signed .minus (name "x")) (name "y")).IsWritable := by decide
  have hpair : Pair (binary .pow (signed .minus (name "x")) (name "y")) .operand "" "-x" " ^ y" :=
    .added (.left .pow (signed .minus (name "x")) (r := name "y") rfl) (by decide) rfl
  obtain ⟨text, hs, -, hneeded⟩ := parentheses_needed h
  obtain ⟨rfl, hlost⟩ := hneeded "" "-x" " ^ y" hpair
  exact ⟨h, hs, hlost⟩

end Calculator.Expr
