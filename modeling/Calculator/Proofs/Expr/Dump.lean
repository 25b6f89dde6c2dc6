import Calculator.Proofs.Expr.Height
import Calculator.Proofs.Expr.Writable
import Calculator.Proofs.Number.Dump

/-!
# Dumps tell trees apart

`dump_unambiguous`: a tree that can be written has one dump, at every limit that its height does not exceed, and no
other such tree has the same. A dump is a list of words and lists in parentheses whose first word tells the kind of
tree. The parentheses and the blanks alone fix this nesting, and the words in it are told apart by their first
characters.
-/

namespace Calculator

/-! ## Words and lists in parentheses -/

def isWordChar (c : Char) : Bool := c != ' ' && c != '(' && c != ')'

def isWord (s : String) : Bool := !s.toList.isEmpty && s.toList.all isWordChar

/-- A word, or a list in parentheses that a word begins. -/
inductive Nested where
  | word (text : String)
  | list (tag : String) (items : List Nested)

namespace Nested

mutual

def chars : Nested → List Char
  | word s => s.toList
  | list tag items => '(' :: (tag.toList ++ charsBehind items)

def charsBehind : List Nested → List Char
  | [] => [')']
  | item :: items => ' ' :: (item.chars ++ charsBehind items)

end

mutual

def isLegible : Nested → Bool
  | word s => isWord s
  | list tag items => isWord tag && allLegible items

def allLegible : List Nested → Bool
  | [] => true
  | item :: items => item.isLegible && allLegible items

end

/-- A text that does not prolong a word. -/
def Stops (rest : List Char) : Prop := ∀ c ∈ rest.head?, isWordChar c = false

theorem stops_charsBehind (items : List Nested) (rest : List Char) : Stops (charsBehind items ++ rest) := by
  intro c hc
  cases items with
  | nil => cases hc; rfl
  | cons item items => cases hc; rfl

theorem word_unique {s s' : String} {rest rest' : List Char} (hs : isWord s = true) (hs' : isWord s' = true)
    (hr : Stops rest) (hr' : Stops rest') (h : s.toList ++ rest = s'.toList ++ rest') : s = s' ∧ rest = rest' := by
  simp only [isWord, Bool.and_eq_true, List.all_eq_true] at hs hs'
  obtain ⟨ht, hd⟩ := takeWhile_append rest hs.2 hr
  obtain ⟨ht', hd'⟩ := takeWhile_append rest' hs'.2 hr'
  rw [h, ht'] at ht
  rw [h, hd'] at hd
  exact ⟨String.toList_inj.mp ht.symm, hd.symm⟩

theorem word_ne_list {s : String} {cs rest : List Char} (hs : isWord s = true) : s.toList ++ rest ≠ '(' :: cs := by
  intro h
  simp only [isWord, Bool.and_eq_true, List.all_eq_true] at hs
  match hchars : s.toList, hs, h with
  | [], hs, _ => exact absurd hs.1 (by decide)
  | c :: _, hs, h =>
    obtain rfl := List.head_eq_of_cons_eq h
    exact absurd (hs.2 _ List.mem_cons_self) (by decide)

mutual

/-- Both the nesting and the place where its text ends are known from a text that begins with it. -/
theorem unique : ∀ {n n' : Nested} {rest rest' : List Char}, n.isLegible = true → n'.isLegible = true →
    Stops rest → Stops rest' → n.chars ++ rest = n'.chars ++ rest' → n = n' ∧ rest = rest'
  | word s, word s', rest, rest', hn, hn', hr, hr', h => by
    obtain ⟨rfl, hrest⟩ := word_unique hn hn' hr hr' h
    exact ⟨rfl, hrest⟩
  | word s, list tag items, rest, rest', hn, _, _, _, h => (word_ne_list hn h).elim
  | list tag items, word s, rest, rest', _, hn', _, _, h => (word_ne_list hn' h.symm).elim
  | list tag items, list tag' items', rest, rest', hn, hn', _, _, h => by
    rw [isLegible, Bool.and_eq_true] at hn hn'
    simp only [chars, List.cons_append, List.append_assoc, List.cons.injEq, true_and] at h
    obtain ⟨rfl, hitems⟩ := word_unique hn.1 hn'.1 (stops_charsBehind _ _) (stops_charsBehind _ _) h
    obtain ⟨rfl, hrest⟩ := uniqueBehind hn.2 hn'.2 hitems
    exact ⟨rfl, hrest⟩

theorem uniqueBehind : ∀ {items items' : List Nested} {rest rest' : List Char}, allLegible items = true →
    allLegible items' = true → charsBehind items ++ rest = charsBehind items' ++ rest' →
    items = items' ∧ rest = rest'
  | [], [], rest, rest', _, _, h => ⟨rfl, (List.cons.inj h).2⟩
  | [], _ :: _, rest, rest', _, _, h => absurd (List.head_eq_of_cons_eq h) (by decide)
  | _ :: _, [], rest, rest', _, _, h => absurd (List.head_eq_of_cons_eq h) (by decide)
  | item :: items, item' :: items', rest, rest', hn, hn', h => by
    rw [allLegible, Bool.and_eq_true] at hn hn'
    simp only [charsBehind, List.cons_append, List.append_assoc, List.cons.injEq, true_and] at h
    obtain ⟨rfl, hbehind⟩ := unique hn.1 hn'.1 (stops_charsBehind _ _) (stops_charsBehind _ _) h
    obtain ⟨rfl, hrest⟩ := uniqueBehind hn.2 hn'.2 hbehind
    exact ⟨rfl, hrest⟩

end

theorem chars_injective {n n' : Nested} (hn : n.isLegible = true) (hn' : n'.isLegible = true)
    (h : n.chars = n'.chars) : n = n' := by
  have hstops : Stops [] := fun _ hc => nomatch hc
  exact (unique hn hn' hstops hstops (by rw [h])).1

end Nested

/-! ## The nesting of a dump -/

namespace Expr
open Nested

mutual

/-- The words and lists of a dump. -/
def nested : Expr → Nested
  | number x => word x.dump
  | name n => word n
  | signed s e => list (if s = .minus then "neg" else "pos") [e.nested]
  | binary op l r => list op.symbol [l.nested, r.nested]
  | group e => list "group" [e.nested]
  | call f args => list "call" (word f :: allNested args)
  | foreign kind => word kind

def allNested : List Expr → List Nested
  | [] => []
  | e :: es => e.nested :: allNested es

end

theorem allNested_eq_map (es : List Expr) : allNested es = es.map nested := by
  induction es with
  | nil => rfl
  | cons e es ih => rw [allNested, ih, List.map_cons]

def dumpText (e : Expr) : String := String.ofList e.nested.chars

theorem toList_intercalate : ∀ (first : String) (items : List Nested),
    (String.intercalate " " (first :: items.map fun n => String.ofList n.chars)).toList ++ [')'] =
      first.toList ++ charsBehind items
  | first, [] => by rw [List.map_nil, String.intercalate_singleton, charsBehind]
  | first, item :: items => by
    rw [List.map_cons, String.intercalate_cons_cons, String.toList_append, List.append_assoc, toList_intercalate,
      String.toList_ofList, String.toList_append, List.append_assoc]
    rfl

theorem dumpText_call (f : String) (args : List Expr) :
    "(" ++ String.intercalate " " ("call" :: f :: args.map dumpText) ++ ")" = (call f args).dumpText := by
  have hitems := toList_intercalate "call" (word f :: allNested args)
  rw [List.map_cons, chars, String.ofList_toList, allNested_eq_map, List.map_map] at hitems
  refine String.toList_inj.mp ?_
  rw [String.toList_append, String.toList_append, List.append_assoc, dumpText, nested, allNested_eq_map, chars,
    ← hitems]
  exact String.toList_ofList.symm

/-- A dump takes a level for each node on the way down, along chains of operators too. -/
theorem dumpWithin_eq (limit : Nat) {e : Expr} (hw : e.isWellFormed = true) :
    e.dumpWithin limit = roomFor e.height limit dumpOverflow e.dumpText := by
  induction limit generalizing e with
  | zero => exact (roomFor_of_lt e.height_pos _).symm
  | succ limit ih =>
    cases e with
    | number x =>
      rw [dumpWithin, height, roomFor_one, dumpText, nested, chars, String.ofList_toList]
    | name n => rw [dumpWithin, height, roomFor_one, dumpText, nested, chars, String.ofList_toList]
    | signed s operand =>
      simp only [isWellFormed, Bool.and_eq_true] at hw
      rw [dumpWithin, ih hw.2, height, roomFor_succ]
      refine (roomFor_map _ _ _).trans (congrArg _ (String.toList_inj.mp ?_))
      simp [dumpText, nested, chars, charsBehind]
    | binary op left right =>
      simp only [isWellFormed, Bool.and_eq_true] at hw
      rw [dumpWithin, ih hw.1.2, ih hw.2, height, roomFor_succ]
      refine (congrArg _ (funext fun x => roomFor_map _ _ _)).trans ?_
      refine (roomFor_bind left.height right.height _ _).trans (congrArg _ (String.toList_inj.mp ?_))
      simp [dumpText, nested, chars, charsBehind]
    | group inner =>
      rw [isWellFormed] at hw
      rw [dumpWithin, ih hw, height, roomFor_succ]
      refine (roomFor_map _ _ _).trans (congrArg _ (String.toList_inj.mp ?_))
      simp [dumpText, nested, chars, charsBehind]
    | call f args =>
      rw [isWellFormed, Bool.and_eq_true, allWellFormed_eq_all, List.all_eq_true] at hw
      rw [dumpWithin, mapM_roomFor fun e he => ih (hw.2 e he), height, roomFor_succ]
      exact (roomFor_map _ _ _).trans (congrArg _ (dumpText_call f args))
    | foreign kind => cases hw

/-! ## Words of a dump -/

theorem isWordChar_of_isRunChar {c : Char} (h : isRunChar c = true) : isWordChar c = true := by
  simp only [isWordChar, Bool.and_eq_true, bne_iff_ne]
  refine ⟨⟨?_, ?_⟩, ?_⟩ <;> rintro rfl <;> revert h <;> decide

theorem isWord_name {s : String} (h : isName s = true) : isWord s = true := by
  obtain ⟨c, cs, hc, -⟩ := toList_eq_cons h
  rw [isWord, Bool.and_eq_true, List.all_eq_true]
  refine ⟨by rw [hc]; rfl, fun c hc => ?_⟩
  exact isWordChar_of_isRunChar (isRunChar_of_isNameChar (isNameChar_toList h c hc))

theorem isWord_number {x : Binary64} (h : x.isFinite = true) : isWord x.dump = true := by
  cases x with
  | finite negative ordinal =>
    obtain ⟨c, cs, hc, -⟩ := Binary64.dump_start negative ordinal
    rw [isWord, Bool.and_eq_true, List.all_eq_true]
    refine ⟨by rw [hc]; rfl, fun c hc => ?_⟩
    rcases Binary64.mem_dump hc with hrun | rfl | rfl
    · exact isWordChar_of_isRunChar hrun
    · rfl
    · rfl
  | _ => cases h

theorem number_ne_name {x : Binary64} {s : String} (hx : x.isFinite = true) (hs : isName s = true) : x.dump ≠ s := by
  rintro rfl
  cases x with
  | finite negative ordinal =>
    obtain ⟨c, cs, hc, hstart⟩ := Binary64.dump_start negative ordinal
    rw [isName, hc, Bool.and_eq_true, hstart] at hs
    exact Bool.noConfusion hs.1
  | _ => cases hx

theorem dump_number_injective {x y : Binary64} (hx : x.isFinite = true) (hy : y.isFinite = true)
    (h : x.dump = y.dump) : x = y := by
  cases x with
  | finite =>
    cases y with
    | finite => exact Binary64.dump_injective h
    | _ => cases hy
  | _ => cases hx

theorem isWord_symbol {op : Operator} (h : op ∈ Operator.known) : isWord op.symbol = true := by
  revert op
  decide

mutual

theorem isLegible_nested : ∀ {e : Expr}, e.IsWritable → e.nested.isLegible = true
  | number x, h => isWord_number (h.finite x List.mem_cons_self)
  | name n, h => isWord_name h.wellFormed
  | signed s e, h => by
    have htag : isWord (if s = .minus then "neg" else "pos") = true := by split <;> decide
    simp only [nested, isLegible, allLegible, htag, isLegible_nested h.signed.2, Bool.and_self]
  | binary op l r, h => by
    obtain ⟨hop, hl, hr⟩ := h.binary
    simp only [nested, isLegible, allLegible, isWord_symbol hop, isLegible_nested hl, isLegible_nested hr,
      Bool.and_self]
  | group e, h => by
    have htag : isWord "group" = true := by decide
    simp only [nested, isLegible, allLegible, htag, isLegible_nested h.group, Bool.and_self]
  | call f args, h => by
    have htag : isWord "call" = true := by decide
    simp only [nested, isLegible, allLegible, htag, isWord_name h.call.1, allLegible_nested h.call.2, Bool.and_self]
  | foreign _, h => nomatch h.wellFormed

theorem allLegible_nested : ∀ {es : List Expr}, (∀ e ∈ es, e.IsWritable) → allLegible (allNested es) = true
  | [], _ => rfl
  | e :: es, h => by
    rw [List.forall_mem_cons] at h
    rw [allNested, allLegible, isLegible_nested h.1, allLegible_nested h.2, Bool.and_self]

end

/-! ## From the nesting to the tree -/

theorem sign_of_tag {s s' : Sign} (hs : s.isKnown = true) (hs' : s'.isKnown = true)
    (h : (if s = .minus then "neg" else "pos") = if s' = .minus then "neg" else "pos") : s = s' := by
  cases s <;> cases s' <;> revert hs hs' h <;> simp [Sign.isKnown]

theorem symbol_injective {op op' : Operator} (h : op ∈ Operator.known) (h' : op' ∈ Operator.known)
    (heq : op.symbol = op'.symbol) : op = op' := by
  have hall : ∀ a ∈ Operator.known, ∀ b ∈ Operator.known, a.symbol = b.symbol → a = b := by decide
  exact hall op h op' h' heq

theorem symbol_ne_call {op : Operator} (h : op ∈ Operator.known) : op.symbol ≠ "call" := by
  revert op
  decide

mutual

theorem nested_injective : ∀ {t u : Expr}, t.IsWritable → u.IsWritable → t.nested = u.nested → t = u
  | number x, u, ht, hu, h => by
    have hx : x.isFinite = true := ht.finite x List.mem_cons_self
    cases u with
    | number y => rw [dump_number_injective hx (hu.finite y List.mem_cons_self) (word.inj h)]
    | name n => exact absurd (word.inj h) (number_ne_name hx hu.wellFormed)
    | foreign => cases hu.wellFormed
    | _ => cases h
  | name n, u, ht, hu, h => by
    cases u with
    | number y =>
      exact absurd (word.inj h).symm (number_ne_name (hu.finite y List.mem_cons_self) ht.wellFormed)
    | name n' => rw [word.inj h]
    | foreign => cases hu.wellFormed
    | _ => cases h
  | signed s e, u, ht, hu, h => by
    obtain ⟨hs, he⟩ := ht.signed
    cases u with
    | signed s' e' =>
      obtain ⟨hs', he'⟩ := hu.signed
      simp only [nested, list.injEq, List.cons.injEq, and_true] at h
      rw [sign_of_tag hs hs' h.1, nested_injective he he' h.2]
    | group | call => exact absurd (list.inj h).1 (by split <;> decide)
    | binary => exact absurd (list.inj h).2 (by simp)
    | foreign => cases hu.wellFormed
    | _ => cases h
  | binary op l r, u, ht, hu, h => by
    obtain ⟨hop, hl, hr⟩ := ht.binary
    cases u with
    | binary op' l' r' =>
      obtain ⟨hop', hl', hr'⟩ := hu.binary
      simp only [nested, list.injEq, List.cons.injEq, and_true] at h
      rw [symbol_injective hop hop' h.1, nested_injective hl hl' h.2.1, nested_injective hr hr' h.2.2]
    | call => exact absurd (list.inj h).1 (symbol_ne_call hop)
    | signed | group => exact absurd (list.inj h).2 (by simp)
    | foreign => cases hu.wellFormed
    | _ => cases h
  | group e, u, ht, hu, h => by
    cases u with
    | group e' =>
      simp only [nested, list.injEq, List.cons.injEq, and_true, true_and] at h
      rw [nested_injective ht.group hu.group h]
    | signed => exact absurd (list.inj h).1 (by split <;> decide)
    | call => exact absurd (list.inj h).1 (by decide)
    | binary => exact absurd (list.inj h).2 (by simp)
    | foreign => cases hu.wellFormed
    | _ => cases h
  | call f args, u, ht, hu, h => by
    cases u with
    | call f' args' =>
      simp only [nested, list.injEq, List.cons.injEq, word.injEq, true_and] at h
      rw [h.1, allNested_injective ht.call.2 hu.call.2 h.2]
    | binary => exact absurd (list.inj h).1.symm (symbol_ne_call hu.binary.1)
    | signed => exact absurd (list.inj h).1 (by split <;> decide)
    | group => exact absurd (list.inj h).1 (by decide)
    | foreign => cases hu.wellFormed
    | _ => cases h
  | foreign _, _, ht, _, _ => nomatch ht.wellFormed

theorem allNested_injective : ∀ {ts us : List Expr}, (∀ t ∈ ts, t.IsWritable) → (∀ u ∈ us, u.IsWritable) →
    allNested ts = allNested us → ts = us
  | [], [], _, _, _ => rfl
  | t :: ts, u :: us, hts, hus, h => by
    rw [List.forall_mem_cons] at hts hus
    rw [allNested, allNested, List.cons.injEq] at h
    rw [nested_injective hts.1 hus.1 h.1, allNested_injective hts.2 hus.2 h.2]

end

theorem dump_unambiguous {t u : Expr} (ht : t.IsWritable) (hu : u.IsWritable) :
    ∃ text, (∀ limit, t.dumpWithin limit = if t.height ≤ limit then .ok text else .error dumpOverflow) ∧
      ∀ limit, u.dumpWithin limit = .ok text → u = t := by
  refine ⟨t.dumpText, fun limit => dumpWithin_eq limit ht.wellFormed, fun limit h => ?_⟩
  rw [dumpWithin_eq limit hu.wellFormed] at h
  have hchars : u.nested.chars = t.nested.chars := String.ofList_injective (roomFor_eq_ok h).2
  exact nested_injective hu ht (Nested.chars_injective (isLegible_nested hu) (isLegible_nested ht) hchars)

/-- A call of a function named as a tag is, and the sign that is dumped with that tag. -/
theorem dump_unambiguous_neg : (call "neg" [name "x"]).IsWritable ∧ (signed .minus (name "x")).IsWritable ∧
    ∃ text, (∀ limit, (call "neg" [name "x"]).dumpWithin limit =
        if (call "neg" [name "x"]).height ≤ limit then .ok text else .error dumpOverflow) ∧
      ∀ limit, (signed .minus (name "x")).dumpWithin limit = .ok text →
        signed .minus (name "x") = call "neg" [name "x"] :=
  ⟨by decide, by decide, dump_unambiguous (by decide) (by decide)⟩

end Expr
end Calculator
