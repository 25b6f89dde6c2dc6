import Calculator.Proofs.Expr.Stability

/-!
# The parentheses of a written tree

`Pair` tells for each pair of parentheses in the text of a tree where it comes from and what it encloses:
`Pair.source` says that they stand there, and `isPaired` that no other parenthesis is opened.
-/

namespace Calculator.Expr
open Grammar (bind_eq_ok)

/-! ## Parts of a text -/

def bracket (e : Expr) (asked : Level) (text : String) : String := if e.level < asked then text else ""

theorem bitOr_le_level (e : Expr) : Level.bitOr ≤ e.level := by
  cases e with
  | number x =>
    rw [level]
    split <;> decide
  | signed => exact (by decide : Level.bitOr ≤ Level.sign)
  | binary op l r =>
    rw [level]
    cases op with
    | other symbol => exact Nat.le_refl _
    | _ => decide
  | _ => exact (by decide : Level.bitOr ≤ Level.primary)

theorem enclose_eq (e : Expr) (asked : Level) (text : String) :
    e.enclose asked text = e.bracket asked "(" ++ text ++ e.bracket asked ")" := by
  unfold enclose bracket
  split
  · rfl
  · rw [String.empty_append, String.append_empty]

/-- The text of a part, in parentheses if it stands below the level asked for, lies between two others in the text of
the whole. -/
inductive Part : (whole part : Expr) → (asked : Level) → (before behind : String) → Prop
  | signed (s : Sign) (e : Expr) : Part (signed s e) e e.signedLevel s.symbol ""
  | left (op : Operator) (l : Expr) {r : Expr} {right : String} (source : r.source = .ok right) :
      Part (binary op l r) l op.leftLevel "" (" " ++ op.symbol ++ " " ++ r.enclose op.rightLevel right)
  | right (op : Operator) {l : Expr} (r : Expr) {left : String} (source : l.source = .ok left) :
      Part (binary op l r) r op.rightLevel (l.enclose op.leftLevel left ++ " " ++ op.symbol ++ " ") ""
  | group (e : Expr) : Part (group e) e Level.bitOr "(" ")"
  | argument (f : String) {as : List Expr} (e : Expr) {bs : List Expr} {texts texts' : List String}
      (first : sources as = .ok texts) (last : sources bs = .ok texts') :
      Part (call f (as ++ e :: bs)) e Level.bitOr (f ++ "(" ++ String.join (texts.map (· ++ ", ")))
        (String.join (texts'.map (", " ++ ·)) ++ ")")

/-! ## Pairs of parentheses -/

inductive Origin where
  | group
  | call
  /-- An operand at too loose a level. -/
  | operand
  /-- A negative number under a sign. -/
  | negative

def origin (whole part : Expr) : Origin :=
  match whole, part with
  | signed _ _, number _ => .negative
  | _, _ => .operand

/-- The text of a tree has a pair of parentheses of some origin, with some texts before, inside and behind it. -/
inductive Pair : Expr → Origin → (before inside behind : String) → Prop
  | group {e : Expr} {text : String} (source : e.source = .ok text) : Pair (group e) .group "" text ""
  | call (f : String) {args : List Expr} {texts : List String} (source : sources args = .ok texts) :
      Pair (call f args) .call f (String.intercalate ", " texts) ""
  | added {whole part : Expr} {asked : Level} {before behind text : String} (h : Part whole part asked before behind)
      (loose : part.level < asked) (source : part.source = .ok text) :
      Pair whole (whole.origin part) before text behind
  | within {whole part : Expr} {asked : Level} {before behind before' inside behind' : String} {origin : Origin}
      (h : Part whole part asked before behind) (inner : Pair part origin before' inside behind') :
      Pair whole origin (before ++ part.bracket asked "(" ++ before') inside
        (behind' ++ part.bracket asked ")" ++ behind)

/-! ## The parentheses stand in the text -/

theorem sources_append : ∀ {as bs : List Expr} {texts texts' : List String}, sources as = .ok texts →
    sources bs = .ok texts' → sources (as ++ bs) = .ok (texts ++ texts')
  | [], bs, texts, texts', h, h' => by
    cases h
    exact h'
  | a :: as, bs, texts, texts', h, h' => by
    obtain ⟨text, ha, hrest⟩ := bind_eq_ok h
    obtain ⟨rest, has, ht⟩ := bind_eq_ok hrest
    cases ht
    rw [List.cons_append, sources, ha, sources_append has h']
    rfl

theorem intercalate_cons : ∀ (text : String) (texts : List String),
    String.intercalate ", " (text :: texts) = text ++ String.join (texts.map (", " ++ ·))
  | text, [] => by rw [String.intercalate_singleton, List.map_nil, String.join_nil, String.append_empty]
  | text, next :: texts => by
    rw [String.intercalate_cons_cons, intercalate_cons next texts, List.map_cons, String.join_cons,
      String.append_assoc, String.append_assoc]

theorem join_behind (text : String) (texts : List String) :
    String.join ((text :: texts).map (", " ++ ·)) = ", " ++ String.intercalate ", " (text :: texts) := by
  rw [intercalate_cons, List.map_cons, String.join_cons, String.append_assoc]

theorem intercalate_append (text : String) (texts' : List String) : ∀ texts : List String,
    String.intercalate ", " (texts ++ text :: texts') =
      String.join (texts.map (· ++ ", ")) ++ text ++ String.join (texts'.map (", " ++ ·))
  | [] => by rw [List.nil_append, intercalate_cons, List.map_nil, String.join_nil, String.empty_append]
  | first :: texts => by
    have hjoined : String.join ((texts ++ text :: texts').map (", " ++ ·)) =
        ", " ++ String.intercalate ", " (texts ++ text :: texts') := by
      cases texts <;> exact join_behind _ _
    rw [List.cons_append, intercalate_cons, hjoined, intercalate_append text texts' texts]
    simp only [List.map_cons, String.join_cons, String.append_assoc]

theorem Part.source {whole part : Expr} {asked : Level} {before behind text : String}
    (h : Part whole part asked before behind) (hs : part.source = .ok text) :
    whole.source = .ok (before ++ part.enclose asked text ++ behind) := by
  cases h with
  | signed s e =>
    rw [Expr.source, hs]
    exact congrArg Except.ok (String.append_empty).symm
  | left op l hr =>
    rw [Expr.source, hs, hr]
    refine congrArg Except.ok ?_
    simp only [String.append_assoc, String.empty_append]
  | right op r hl =>
    rw [Expr.source, hl, hs]
    refine congrArg Except.ok ?_
    simp only [String.append_assoc, String.append_empty]
  | group =>
    rw [Expr.source, hs, enclose_of_le part.bitOr_le_level]
    rfl
  | argument f _ hfirst hlast =>
    have hall : sources (_ ++ part :: _) = .ok (_ ++ text :: _) :=
      sources_append hfirst (by rw [sources, hs, hlast]; rfl)
    rw [Expr.source, hall, enclose_of_le part.bitOr_le_level]
    refine congrArg Except.ok ?_
    rw [intercalate_append]
    simp only [String.append_assoc]

theorem Pair.source {t : Expr} {origin : Origin} {before inside behind : String}
    (h : Pair t origin before inside behind) : t.source = .ok (before ++ "(" ++ inside ++ ")" ++ behind) := by
  induction h with
  | group source =>
    rw [Expr.source, source, String.empty_append, String.append_empty]
    rfl
  | call f source =>
    rw [Expr.source, source, String.append_empty]
    rfl
  | added h loose source =>
    rw [h.source source, enclose, if_pos loose]
    simp only [String.append_assoc]
  | within h _ ih =>
    rw [h.source ih, enclose_eq]
    simp only [String.append_assoc]

/-! ## Opening parentheses in a text -/

theorem append_eq_opening {a b before rest : String} (h : a ++ b = before ++ "(" ++ rest) :
    (∃ rest', a = before ++ "(" ++ rest' ∧ rest = rest' ++ b) ∨
      ∃ before', before = a ++ before' ∧ b = before' ++ "(" ++ rest := by
  have hchars : a.toList ++ b.toList = before.toList ++ '(' :: rest.toList := by
    rw [← String.toList_append, h]
    simp
  rcases List.append_eq_append_iff.mp hchars with ⟨cs, hbefore, hb⟩ | ⟨cs, ha, hrest⟩
  · refine .inr ⟨String.ofList cs, String.toList_inj.mp ?_, String.toList_inj.mp ?_⟩
    · rw [String.toList_append, String.toList_ofList, hbefore]
    · simp [hb]
  cases cs with
  | nil =>
    rw [List.append_nil] at ha
    refine .inr ⟨"", ?_, String.toList_inj.mp ?_⟩
    · rw [String.append_empty, String.toList_inj.mp ha]
    · simpa using hrest.symm
  | cons c cs =>
    obtain ⟨rfl, htail⟩ := List.cons.inj hrest
    refine .inl ⟨String.ofList cs, String.toList_inj.mp ?_, String.toList_inj.mp ?_⟩
    · simp [ha]
    · rw [String.toList_append, String.toList_ofList]
      exact htail

theorem ne_opening {a before rest : String} (ha : '(' ∉ a.toList) : a ≠ before ++ "(" ++ rest := by
  rintro rfl
  simp at ha

theorem opening_behind {a b before rest : String} (ha : '(' ∉ a.toList) (h : a ++ b = before ++ "(" ++ rest) :
    ∃ before', before = a ++ before' ∧ b = before' ++ "(" ++ rest := by
  refine (append_eq_opening h).resolve_left ?_
  rintro ⟨rest', hfirst, -⟩
  exact ne_opening ha hfirst

theorem opening_before {a b before rest : String} (hb : '(' ∉ b.toList) (h : a ++ b = before ++ "(" ++ rest) :
    ∃ rest', a = before ++ "(" ++ rest' ∧ rest = rest' ++ b := by
  refine (append_eq_opening h).resolve_right ?_
  rintro ⟨before', -, hlast⟩
  exact ne_opening hb hlast

theorem opening_first {b before rest : String} (h : "(" ++ b = before ++ "(" ++ rest) :
    before = "" ∧ rest = b ∨ ∃ before', before = "(" ++ before' ∧ b = before' ++ "(" ++ rest := by
  refine (append_eq_opening h).imp_left ?_
  rintro ⟨rest', hfirst, rfl⟩
  have hlength := congrArg String.length hfirst
  simp only [String.length_append] at hlength
  obtain rfl : before = "" := String.length_eq_zero_iff.mp (by omega)
  obtain rfl : rest' = "" := String.length_eq_zero_iff.mp (by omega)
  exact ⟨rfl, String.empty_append⟩

theorem not_mem_name {s : String} (h : isName s = true) : '(' ∉ s.toList := by
  intro hc
  exact absurd (isNameChar_toList h _ hc) (by decide)

theorem not_mem_number {x : Binary64} {text : String} (h : numberSource x = .ok text) : '(' ∉ text.toList := by
  cases x with
  | finite negative ordinal =>
    cases (numberSource_finite negative ordinal).symm.trans h
    intro hc
    rw [String.toList_append, List.mem_append, Numeral.text, String.toList_ofList] at hc
    rcases hc with hc | hc
    · cases negative <;> exact absurd hc (by decide)
    · exact absurd (Numeral.isRunChar_chars (Numeral.isSpelling_ofMagnitude ordinal) _ hc) (by decide)
  | _ => cases h

theorem not_mem_sign {s : Sign} (h : s.isKnown = true) : '(' ∉ s.symbol.toList := by
  cases s with
  | other _ => cases h
  | _ => decide

theorem not_mem_symbol {op : Operator} (h : op ∈ Operator.known) : '(' ∉ (" " ++ op.symbol ++ " ").toList := by
  revert op
  decide

/-! ## No other parenthesis is opened -/

def IsPaired (t : Expr) : Prop :=
  ∀ before rest, t.source = .ok (before ++ "(" ++ rest) →
    ∃ origin inside behind, rest = inside ++ ")" ++ behind ∧ Pair t origin before inside behind

theorem Part.exists_pair {whole part : Expr} {asked : Level} {before behind text before' rest : String}
    (h : Part whole part asked before behind) (hp : part.IsPaired) (hs : part.source = .ok text)
    (ht : part.enclose asked text = before' ++ "(" ++ rest) :
    ∃ origin inside behind', rest ++ behind = inside ++ ")" ++ behind' ∧
      Pair whole origin (before ++ before') inside behind' := by
  have hinner : ∀ {before'' rest'' : String}, text = before'' ++ "(" ++ rest'' →
      ∃ origin inside behind', rest'' ++ part.bracket asked ")" ++ behind = inside ++ ")" ++ behind' ∧
        Pair whole origin (before ++ part.bracket asked "(" ++ before'') inside behind' := by
    rintro before'' rest'' rfl
    obtain ⟨origin, inside, behind', rfl, hpair⟩ := hp before'' rest'' hs
    exact ⟨origin, inside, _, by simp only [String.append_assoc], .within h hpair⟩
  unfold enclose at ht
  unfold bracket at hinner
  split at ht
  · rename_i hloose
    simp only [if_pos hloose] at hinner
    rw [String.append_assoc] at ht
    rcases opening_first ht with ⟨rfl, rfl⟩ | ⟨before'', rfl, hrest⟩
    · exact ⟨_, text, behind, rfl, by rw [String.append_empty]; exact .added h hloose hs⟩
    · obtain ⟨rest'', htext, rfl⟩ := opening_before (by decide) hrest
      rw [← String.append_assoc]
      exact hinner htext
  · rename_i hloose
    simp only [if_neg hloose, String.append_empty] at hinner
    exact hinner ht

theorem exists_argument : ∀ {es : List Expr} {texts : List String} {before rest : String}, sources es = .ok texts →
    String.intercalate ", " texts = before ++ "(" ++ rest →
    ∃ (as : List Expr) (e : Expr) (bs : List Expr) (first : List String) (text : String) (last : List String),
      es = as ++ e :: bs ∧ sources as = .ok first ∧ e.source = .ok text ∧ sources bs = .ok last ∧
      ∃ before' rest', text = before' ++ "(" ++ rest' ∧
        before = String.join (first.map (· ++ ", ")) ++ before' ∧ rest = rest' ++ String.join (last.map (", " ++ ·))
  | [], texts, before, rest, hs, h => by
    cases hs
    exact absurd h (ne_opening (by decide))
  | e :: es, texts, before, rest, hs, h => by
    obtain ⟨text, he, hrest⟩ := bind_eq_ok hs
    obtain ⟨texts, hes, ht⟩ := bind_eq_ok hrest
    cases ht
    rw [intercalate_cons] at h
    rcases append_eq_opening h with ⟨rest', htext, hrest'⟩ | ⟨before', hbefore, hmore⟩
    · exact ⟨[], e, es, [], text, texts, rfl, rfl, he, hes, before, rest', htext, String.empty_append.symm, hrest'⟩
    cases texts with
    | nil => exact absurd hmore (ne_opening (by decide))
    | cons next texts =>
      rw [join_behind] at hmore
      obtain ⟨before', rfl, harguments⟩ := opening_behind (by decide) hmore
      obtain ⟨as, e', bs, first, text', last, rfl, has, he', hbs, before'', rest', htext, rfl, rfl⟩ :=
        exists_argument hes harguments
      refine ⟨e :: as, e', bs, text :: first, text', last, rfl, ?_, he', hbs, before'', rest', htext, ?_, rfl⟩
      · rw [sources, he, has]
        rfl
      · rw [hbefore, List.map_cons, String.join_cons]
        simp only [String.append_assoc]

theorem isPaired_signed {s : Sign} {e : Expr} (hs : s.isKnown = true) (he : e.IsPaired) : (signed s e).IsPaired := by
  intro before rest h
  obtain ⟨text, hsource, ht⟩ := bind_eq_ok h
  obtain ⟨before', rfl, hshown⟩ := opening_behind (not_mem_sign hs) (Except.ok.inj ht)
  have hpair := (Part.signed s e).exists_pair he hsource hshown
  rwa [String.append_empty] at hpair

theorem isPaired_binary {op : Operator} {l r : Expr} (hop : op ∈ Operator.known) (hl : l.IsPaired)
    (hr : r.IsPaired) : (binary op l r).IsPaired := by
  intro before rest h
  obtain ⟨left, hleft, ht⟩ := bind_eq_ok h
  obtain ⟨right, hright, ht⟩ := bind_eq_ok ht
  have htext : l.enclose op.leftLevel left ++ ((" " ++ op.symbol ++ " ") ++ r.enclose op.rightLevel right) =
      before ++ "(" ++ rest := by
    rw [← Except.ok.inj ht]
    simp only [String.append_assoc]
  rcases append_eq_opening htext with ⟨rest', hshown, rfl⟩ | ⟨before', rfl, hbehind⟩
  · have hpair := (Part.left op l hright).exists_pair hl hleft hshown
    rwa [String.empty_append] at hpair
  · obtain ⟨before'', rfl, hshown⟩ := opening_behind (not_mem_symbol hop) hbehind
    have hpair := (Part.right op r hleft).exists_pair hr hright hshown
    simpa only [String.append_assoc, String.append_empty] using hpair

theorem isPaired_group {e : Expr} (he : e.IsPaired) : (group e).IsPaired := by
  intro before rest h
  obtain ⟨text, hsource, ht⟩ := bind_eq_ok h
  have htext := Except.ok.inj ht
  rw [String.append_assoc] at htext
  rcases opening_first htext with ⟨rfl, rfl⟩ | ⟨before', rfl, hrest⟩
  · exact ⟨.group, text, "", String.append_empty.symm, .group hsource⟩
  · obtain ⟨rest', hinner, rfl⟩ := opening_before (by decide) hrest
    refine (Part.group e).exists_pair he hsource ?_
    rwa [enclose_of_le e.bitOr_le_level]

theorem isPaired_call {f : String} {args : List Expr} (hf : isName f = true) (hargs : ∀ e ∈ args, e.IsPaired) :
    (call f args).IsPaired := by
  intro before rest h
  obtain ⟨texts, hsources, ht⟩ := bind_eq_ok h
  have htext : f ++ ("(" ++ (String.intercalate ", " texts ++ ")")) = before ++ "(" ++ rest := by
    rw [← Except.ok.inj ht]
    simp only [String.append_assoc]
  obtain ⟨before', rfl, hbehind⟩ := opening_behind (not_mem_name hf) htext
  rcases opening_first hbehind with ⟨rfl, rfl⟩ | ⟨before'', rfl, hrest⟩
  · refine ⟨.call, String.intercalate ", " texts, "", String.append_empty.symm, ?_⟩
    rw [String.append_empty]
    exact .call f hsources
  · obtain ⟨rest', harguments, rfl⟩ := opening_before (by decide) hrest
    obtain ⟨as, e, bs, first, text, last, rfl, has, he, hbs, before', rest, hshown, rfl, rfl⟩ :=
      exists_argument hsources harguments
    have hpaired := hargs e (List.mem_append_right as List.mem_cons_self)
    have hpair := (Part.argument f e has hbs).exists_pair hpaired he
      ((enclose_of_le e.bitOr_le_level text).trans hshown)
    simpa only [String.append_assoc] using hpair

mutual

theorem isPaired : ∀ {t : Expr}, t.isWellFormed = true → t.IsPaired
  | number _, _ => fun _ _ hs => absurd rfl (ne_opening (not_mem_number hs))
  | name _, hw => fun _ _ hs => absurd (Except.ok.inj hs) (ne_opening (not_mem_name hw))
  | signed s e, hw => by
    rw [isWellFormed, Bool.and_eq_true] at hw
    exact isPaired_signed hw.1 (isPaired hw.2)
  | binary op l r, hw => by
    simp only [isWellFormed, Bool.and_eq_true, decide_eq_true_eq] at hw
    exact isPaired_binary hw.1.1 (isPaired hw.1.2) (isPaired hw.2)
  | group e, hw => by
    rw [isWellFormed] at hw
    exact isPaired_group (isPaired hw)
  | call f args, hw => by
    rw [isWellFormed, Bool.and_eq_true] at hw
    exact isPaired_call hw.1 (allPaired hw.2)

theorem allPaired : ∀ {ts : List Expr}, allWellFormed ts = true → ∀ t ∈ ts, t.IsPaired
  | [], _ => fun _ ht => nomatch ht
  | t :: ts, hw => by
    rw [allWellFormed, Bool.and_eq_true] at hw
    exact List.forall_mem_cons.mpr ⟨isPaired hw.1, allPaired hw.2⟩

end

end Calculator.Expr
