import Calculator.Proofs.Grammar.FirstFault

/-!
# Parentheses reported as unmatched

`unmatched_parentheses`: an opening parenthesis reported as unmatched is closed nowhere, and a closing one has no
partner unless it stands right behind an operator. There it is reported for want of an operand, whether it has a partner
or not: `reported_with_partner`.
-/

namespace Calculator.Grammar
open Grammar.Derivation

/-! ## Partners -/

/-- The places of the parentheses that are open before a place, the innermost first. -/
def openBefore (ls : List Lexeme) (i : Nat) : List Nat := openings 0 [] (ls.take i)

/-- The closing parenthesis at `i` closes the innermost one open before it, which is at `j`. -/
structure Closes (ls : List Lexeme) (i j : Nat) : Prop where
  closing : ls[i]? = some (.symbol .closing)
  innermost : (openBefore ls i).head? = some j

theorem openBefore_succ {ls : List Lexeme} {i : Nat} {l : Lexeme} (h : ls[i]? = some l) :
    openBefore ls (i + 1) = openings i (openBefore ls i) [l] := by
  obtain ⟨hi, -⟩ := List.getElem?_eq_some_iff.mp h
  have htake : ls.take (i + 1) = ls.take i ++ [l] := by rw [List.take_add_one, h, Option.toList_some]
  rw [openBefore, htake, openings_append, Nat.zero_add, List.length_take, Nat.min_eq_left (Nat.le_of_lt hi)]
  rfl

theorem openBefore_succ_of_le {ls : List Lexeme} {i : Nat} (h : ls.length ≤ i) :
    openBefore ls (i + 1) = openBefore ls i := by
  rw [openBefore, openBefore, List.take_of_length_le h, List.take_of_length_le (Nat.le_succ_of_le h)]

theorem openBefore_cases (ls : List Lexeme) (i : Nat) :
    (ls[i]? = some (.symbol .opening) ∧ openBefore ls (i + 1) = i :: openBefore ls i) ∨
      (ls[i]? = some (.symbol .closing) ∧ openBefore ls (i + 1) = (openBefore ls i).tail) ∨
      (ls[i]? ≠ some (.symbol .opening) ∧ ls[i]? ≠ some (.symbol .closing) ∧
        openBefore ls (i + 1) = openBefore ls i) := by
  cases h : ls[i]? with
  | none => exact .inr (.inr ⟨by simp, by simp, openBefore_succ_of_le (List.getElem?_eq_none_iff.mp h)⟩)
  | some l =>
    rw [openBefore_succ h]
    cases l with
    | number n => exact .inr (.inr ⟨by simp, by simp, rfl⟩)
    | name n => exact .inr (.inr ⟨by simp, by simp, rfl⟩)
    | symbol s =>
      cases s with
      | opening => exact .inl ⟨rfl, rfl⟩
      | closing => exact .inr (.inl ⟨rfl, rfl⟩)
      | _ => exact .inr (.inr ⟨by simp, by simp, rfl⟩)

theorem openBefore_lt {ls : List Lexeme} : ∀ {i j : Nat}, j ∈ openBefore ls i → j < i
  | 0, j, h => by simp [openBefore, openings] at h
  | i + 1, j, h => by
    rcases openBefore_cases ls i with ⟨-, he⟩ | ⟨-, he⟩ | ⟨-, -, he⟩
    · rw [he] at h
      rcases List.mem_cons.mp h with rfl | h
      · exact Nat.lt_succ_self _
      · exact Nat.lt_succ_of_lt (openBefore_lt h)
    · rw [he] at h
      exact Nat.lt_succ_of_lt (openBefore_lt (List.mem_of_mem_tail h))
    · rw [he] at h
      exact Nat.lt_succ_of_lt (openBefore_lt h)

theorem openBefore_nodup (ls : List Lexeme) : ∀ i, (openBefore ls i).Nodup
  | 0 => .nil
  | i + 1 => by
    have ih := openBefore_nodup ls i
    rcases openBefore_cases ls i with ⟨-, he⟩ | ⟨-, he⟩ | ⟨-, -, he⟩
    · rw [he]
      exact List.nodup_cons.mpr ⟨fun h => Nat.lt_irrefl i (openBefore_lt h), ih⟩
    · rw [he]
      exact ih.tail
    · rw [he]
      exact ih

theorem mem_tail_iff {js : List Nat} (hd : js.Nodup) {j : Nat} : j ∈ js.tail ↔ j ∈ js ∧ js.head? ≠ some j := by
  cases js with
  | nil => simp
  | cons k ks =>
    have hk := (List.nodup_cons.mp hd).1
    simp only [List.tail_cons, List.mem_cons, List.head?_cons, ne_eq, Option.some.injEq]
    constructor
    · intro hj
      exact ⟨.inr hj, fun he => hk (he ▸ hj)⟩
    · rintro ⟨rfl | hj, hne⟩
      · exact absurd rfl hne
      · exact hj

section
variable {ls : List Lexeme} {i j : Nat}

theorem Closes.lt (h : Closes ls i j) : j < i := openBefore_lt (List.mem_of_mem_head? h.innermost)

theorem mem_openBefore_succ : j ∈ openBefore ls (i + 1) ↔
    (j = i ∧ ls[i]? = some (.symbol .opening)) ∨ (j ∈ openBefore ls i ∧ ¬ Closes ls i j) := by
  rcases openBefore_cases ls i with ⟨hl, he⟩ | ⟨hl, he⟩ | ⟨hopening, hclosing, he⟩
  · have hnot : ¬ Closes ls i j := fun h => by cases hl.symm.trans h.closing
    rw [he, List.mem_cons]
    simp only [hl, hnot, and_true, not_false_eq_true]
  · have hcloses : Closes ls i j ↔ (openBefore ls i).head? = some j := ⟨fun h => h.innermost, fun h => ⟨hl, h⟩⟩
    rw [he, mem_tail_iff (openBefore_nodup ls i), hcloses]
    simp [hl]
  · have hnot : ¬ Closes ls i j := fun h => hclosing h.closing
    rw [he]
    simp only [hopening, hnot, and_false, false_or, not_false_eq_true, and_true]

end

theorem mem_openBefore_iff {ls : List Lexeme} {j : Nat} : ∀ {i : Nat},
    j ∈ openBefore ls i ↔ j < i ∧ ls[j]? = some (.symbol .opening) ∧ ∀ m < i, ¬ Closes ls m j
  | 0 => by simp [openBefore, openings]
  | i + 1 => by
    rw [mem_openBefore_succ, mem_openBefore_iff]
    constructor
    · rintro (⟨rfl, hj⟩ | ⟨⟨hlt, hj, hopen⟩, hi⟩)
      · refine ⟨Nat.lt_succ_self j, hj, fun m hm hc => ?_⟩
        have := hc.lt
        omega
      · refine ⟨Nat.lt_succ_of_lt hlt, hj, fun m hm => ?_⟩
        rcases Nat.lt_succ_iff_lt_or_eq.mp hm with hm | rfl
        · exact hopen m hm
        · exact hi
    · rintro ⟨hlt, hj, hopen⟩
      rcases Nat.lt_succ_iff_lt_or_eq.mp hlt with hlt | rfl
      · exact .inr ⟨⟨hlt, hj, fun m hm => hopen m (Nat.lt_succ_of_lt hm)⟩, hopen i (Nat.lt_succ_self i)⟩
      · exact .inl ⟨rfl, hj⟩

/-- A closing parenthesis has no partner if and only if every parenthesis opened before it is closed before it. -/
theorem no_partner_iff {ls : List Lexeme} {i : Nat} (h : ls[i]? = some (.symbol .closing)) :
    (∀ j, ¬ Closes ls i j) ↔ ∀ j < i, ls[j]? = some (.symbol .opening) → ∃ m < i, Closes ls m j := by
  have hopen : (∀ j, ¬ Closes ls i j) ↔ openBefore ls i = [] := by
    rw [← List.head?_eq_none_iff, Option.eq_none_iff_forall_ne_some]
    exact ⟨fun hn j hj => hn j ⟨h, hj⟩, fun hn j hc => hn j hc.innermost⟩
  rw [hopen, List.eq_nil_iff_forall_not_mem]
  refine forall_congr' fun j => ?_
  rw [mem_openBefore_iff]
  simp only [not_and, not_forall, not_not, exists_prop]

/-! ## Where a closing parenthesis is taken for unmatched -/

def isOperator : Lexeme → Bool
  | .symbol .opening => false
  | .symbol .closing => false
  | .symbol .comma => false
  | .symbol _ => true
  | _ => false

/-- A closing parenthesis taken for unmatched comes first or right behind an operator. -/
def Premature {α : Type} (ls : List Lexeme) (x : Except GrammarError α) : Prop :=
  ∀ k, x = .error ⟨.unmatchedClosing, k⟩ → ∃ read rest, ls = read ++ .symbol .closing :: rest ∧ k = rest.length + 1 ∧
    ∀ l ∈ read.getLast?, isOperator l = true

theorem unexpected_unmatchedClosing {α : Type} {ls : List Lexeme} {k : Nat}
    (h : (Reader.unexpected ls : Except GrammarError α) = .error ⟨.unmatchedClosing, k⟩) :
    ∃ rest, ls = .symbol .closing :: rest ∧ k = rest.length + 1 := by
  unfold Reader.unexpected at h
  split at h
  · cases h
  · rename_i rest
    cases h
    exact ⟨rest, rfl, rfl⟩
  · cases h

namespace Premature
variable {α β : Type} {ls : List Lexeme}

theorem ok (a : α) : Premature ls (.ok a) := fun _ h => by cases h

theorem fail {fault : GrammarFault} (h : fault ≠ .unmatchedClosing) (ahead : List Lexeme) :
    Premature ls (Reader.fail fault ahead : Except GrammarError α) := by
  intro k he
  cases he
  exact absurd rfl h

theorem bind {x : Except GrammarError α} {f : α → Except GrammarError β} (hx : Premature ls x)
    (hf : ∀ a, x = .ok a → Premature ls (f a)) : Premature ls (x.bind f) := by
  cases x with
  | error e =>
    intro k he
    cases he
    exact hx k rfl
  | ok a => exact hf a rfl

theorem behind {ahead : List Lexeme} {x : Except GrammarError α} (h : Premature ahead x) {before : List Lexeme}
    (hb : ahead.head? = some (.symbol .closing) → ∀ l ∈ before.getLast?, isOperator l = true) :
    Premature (before ++ ahead) x := by
  intro k hk
  obtain ⟨read, rest, rfl, rfl, hread⟩ := h k hk
  refine ⟨before ++ read, rest, (List.append_assoc ..).symm, rfl, ?_⟩
  cases read with
  | nil =>
    rw [List.append_nil]
    exact hb rfl
  | cons l read =>
    intro l' hl'
    exact hread l' (by simpa [List.getLast?_append, List.getLast?_cons] using hl')

theorem behind_operator {l : Lexeme} {ahead : List Lexeme} {x : Except GrammarError α} (h : Premature ahead x)
    (hl : isOperator l = true) (before : List Lexeme) : Premature (before ++ l :: ahead) x := by
  rw [← List.singleton_append, ← List.append_assoc]
  refine h.behind fun _ l' hl' => ?_
  rw [List.getLast?_concat] at hl'
  cases hl'
  exact hl

theorem unexpected (ls : List Lexeme) : Premature ls (Reader.unexpected ls : Except GrammarError α) := by
  intro k h
  obtain ⟨rest, rfl, rfl⟩ := unexpected_unmatchedClosing h
  exact ⟨[], rest, rfl, rfl, by simp⟩

theorem close (opened after : List Lexeme) : Premature ls (Reader.close opened after) := by
  unfold Reader.close
  split
  · exact .ok _
  · exact .fail (by decide) _
  · rename_i hclosing hne
    unfold Reader.unexpected
    split
    · exact absurd rfl hne
    · exact absurd rfl (hclosing _)
    · exact .fail (by simp) _

end Premature

def PrematureAhead {α : Type} (r : Reader α) : Prop := ∀ ahead, Premature ahead (r ahead)

def PrematureBehind {α : Type} (r : Reader α) : Prop := ∀ before ahead, Premature (before ++ ahead) (r ahead)

/-! ## Chains -/

theorem isOperator_joins {tier : Tier} {s : Symbol} {op : Operator} (h : Joins tier s op) :
    isOperator (.symbol s) = true := by
  cases h <;> rfl

theorem isOperator_signs {s : Symbol} {sign : Sign} (h : Signs s sign) : isOperator (.symbol s) = true := by
  cases h <;> rfl

section
variable {tier : Tier} {operand : Reader Expr} (hs : Sound (.phrase tier.operand) operand)
  (ho : PrematureAhead operand)
include hs ho

theorem chainFrom_premature : ∀ (room : Nat) (left : Expr),
    PrematureBehind (Reader.chainFrom tier.operator? operand room left)
  | 0, _, _, _ => .ok _
  | room + 1, left, before, ahead => by
    rcases linked_or_not tier ahead with ⟨s, op, rest, hj, rfl⟩ | hj
    · rw [chainFrom_link hj]
      refine ((ho rest).behind_operator (isOperator_joins hj) before).bind fun p hp => ?_
      obtain ⟨d, rfl, -⟩ := hs _ _ _ hp
      have := chainFrom_premature room (.binary op left p.1) (before ++ .symbol s :: d.lexemes) p.2
      rwa [List.append_assoc, List.cons_append] at this
    · rw [chainFrom_stop hj]
      exact .ok _

variable (tier) in
theorem chain_premature (room : Nat) : PrematureAhead (Reader.chain tier.operator? room operand) := by
  intro ahead
  rw [chain_eq]
  refine (ho ahead).bind fun p hp => ?_
  obtain ⟨d, rfl, -⟩ := hs _ _ _ hp
  exact chainFrom_premature hs ho room p.1 d.lexemes p.2

end

theorem expression_premature {operand : Reader Expr} (hs : Sound (.phrase .unary) operand)
    (ho : PrematureAhead operand) (room : Nat) : PrematureAhead (Reader.expression room operand) := by
  have product : Sound (.phrase (.chain .product)) _ := chain_sound .product hs room
  have sum : Sound (.phrase (.chain .sum)) _ := chain_sound .sum product room
  have and : Sound (.phrase (.chain .bitAnd)) _ := chain_sound .bitAnd sum room
  have hproduct := chain_premature .product hs ho room
  have hsum := chain_premature .sum product hproduct room
  have hand := chain_premature .bitAnd sum hsum room
  exact chain_premature .bitOr and hand room

/-! ## Arguments and primaries -/

section
variable {inner : Reader Expr} (hs : Sound (.phrase (.chain .bitOr)) inner) (hi : PrematureAhead inner)

include hi in
theorem argument_premature : PrematureBehind (Reader.argument inner) := by
  intro before ahead
  unfold Reader.argument
  split
  · exact .fail (by decide) _
  · exact .fail (by decide) _
  · rename_i hclosing
    refine (hi ahead).behind fun hc => ?_
    obtain ⟨rest, rfl⟩ := List.head?_eq_some_iff.mp hc
    exact absurd rfl (hclosing rest)

include hs hi

theorem argumentsFrom_premature : ∀ (room : Nat) (read : List Expr),
    PrematureBehind (Reader.argumentsFrom inner room read)
  | 0, _, _, _ => by
    simp only [Reader.argumentsFrom]
    exact .ok _
  | room + 1, read, before, ahead => by
    by_cases hc : ahead.head? = some (.symbol .comma)
    · obtain ⟨rest, rfl⟩ := List.head?_eq_some_iff.mp hc
      rw [argumentsFrom_comma, ← List.singleton_append, ← List.append_assoc]
      refine (argument_premature hi _ rest).bind fun p hp => ?_
      obtain ⟨d, rfl, -⟩ := hs _ _ _ (argument_eq_ok hp)
      rw [← List.append_assoc]
      exact argumentsFrom_premature room _ _ p.2
    · rw [argumentsFrom_stop hc]
      exact .ok _

theorem arguments_premature (room : Nat) : PrematureBehind (Reader.arguments room inner) := by
  intro before ahead
  by_cases hc : ahead.head? = some (.symbol .closing)
  · obtain ⟨rest, rfl⟩ := List.head?_eq_some_iff.mp hc
    exact .ok _
  · rw [arguments_some hc]
    refine (argument_premature hi before ahead).bind fun p hp => ?_
    obtain ⟨d, rfl, -⟩ := hs _ _ _ (argument_eq_ok hp)
    rw [← List.append_assoc]
    exact argumentsFrom_premature hs hi room _ _ p.2

theorem primary_premature (room : Nat) : PrematureAhead (Reader.primary room inner)
  | [] => by
    rw [primary_other (by simp)]
    exact .unexpected _
  | .number n :: rest => .ok _
  | .name n :: rest => by
    by_cases hc : rest.head? = some (.symbol .opening)
    · obtain ⟨tail, rfl⟩ := List.head?_eq_some_iff.mp hc
      rw [primary_call]
      refine (arguments_premature hs hi room [.name n, .symbol .opening] tail).bind fun p _ => ?_
      exact (Premature.close _ p.2).bind fun _ _ => .ok _
    · rw [primary_name hc]
      exact .ok _
  | .symbol s :: rest => by
    by_cases hs : s = .opening
    · subst hs
      by_cases hc : rest.head? = some (.symbol .closing)
      · obtain ⟨tail, rfl⟩ := List.head?_eq_some_iff.mp hc
        exact .fail (by decide) _
      · rw [primary_group hc]
        have hinner : Premature ([.symbol .opening] ++ rest) (inner rest) :=
          (hi rest).behind fun hclosing => absurd hclosing hc
        exact hinner.bind fun p _ => (Premature.close _ p.2).bind fun _ _ => .ok _
    · rw [primary_other (by simpa [startsPrimary] using hs)]
      exact .unexpected _

end

/-! ## Powers and signs -/

section
variable {operand : Reader Expr} (hs : Sound (.phrase .unary) operand) (ho : PrematureAhead operand)

include ho in
theorem raise_premature (base : Expr) (before after : List Lexeme) :
    Premature (before ++ after) (raise operand (base, after)) := by
  unfold raise
  split
  · exact .fail (by decide) _
  · rename_i he
    cases he
    exact ((ho _).behind_operator rfl before).bind fun _ _ => .ok _
  · exact .ok _

include hs ho

theorem power_premature (room : Nat) : PrematureAhead (Reader.power room operand) := by
  intro ahead
  have hsound := expression_sound hs room
  rw [power_eq]
  refine (primary_premature hsound (expression_premature hs ho room) room ahead).bind fun p hp => ?_
  obtain ⟨d, rfl, -⟩ := primary_sound hsound room _ _ _ hp
  exact raise_premature ho p.1 d.lexemes p.2

end

theorem operand_premature (room : Nat) : ∀ limit, PrematureAhead (Reader.operand room limit)
  | 0, ahead => .fail (by decide) _
  | limit + 1, ahead => by
    have ho := operand_premature room limit
    rcases signed_or_not ahead with ⟨s, sign, rest, hsign, rfl⟩ | hsign
    · rw [operand_signed hsign]
      exact ((ho rest).behind_operator (isOperator_signs hsign) []).bind fun _ _ => .ok _
    · rw [operand_unsigned hsign]
      exact power_premature (operand_sound room limit) ho room ahead

/-! ## Whole texts -/

/-- A closing parenthesis taken for unmatched stands behind an operator, or behind a whole expression. -/
theorem ofLexemes_unmatchedClosing {limit : Nat} {ls : List Lexeme} {k : Nat}
    (h : Expr.ofLexemes limit ls = .error ⟨.unmatchedClosing, k⟩) :
    ∃ read rest, ls = read ++ .symbol .closing :: rest ∧ k = rest.length + 1 ∧
      ((∀ l ∈ read.getLast?, isOperator l = true) ∨ openings 0 [] read = []) := by
  have hs := expression_sound (operand_sound ls.length limit) ls.length
  have hp := expression_premature (operand_sound ls.length limit) (operand_premature ls.length limit) ls.length
  unfold Expr.ofLexemes at h
  split at h
  · cases h
  · simp only at h
    split at h
    · rename_i e he
      cases h
      obtain ⟨read, rest, hls, hk, hread⟩ := hp ls k he
      exact ⟨read, rest, hls, hk, .inl hread⟩
    · cases h
    · rename_i he
      obtain ⟨d, hd, -⟩ := hs _ _ _ he
      obtain ⟨rest, rfl, hk⟩ := unexpected_unmatchedClosing h
      exact ⟨d.lexemes, rest, hd.symm, hk, .inr (openings_lexemes d 0 [])⟩

def BehindOperator (ls : List Lexeme) (i : Nat) : Prop := ∃ l, (ls.take i).getLast? = some l ∧ isOperator l = true

section
variable {limit : Nat} {ls : List Lexeme} {k : Nat}

theorem closing_reported (h : Expr.ofLexemes limit ls = .error ⟨.unmatchedClosing, k⟩) :
    ∃ i, i + k = ls.length ∧ ls[i]? = some (.symbol .closing) ∧ (BehindOperator ls i ∨ ∀ j, ¬ Closes ls i j) := by
  obtain ⟨read, rest, rfl, rfl, hread⟩ := ofLexemes_unmatchedClosing h
  have htake : (read ++ .symbol .closing :: rest).take read.length = read := List.take_left
  refine ⟨read.length, by simp, by simp, ?_⟩
  have hnone : openings 0 [] read = [] → ∀ j, ¬ Closes (read ++ .symbol .closing :: rest) read.length j := by
    intro hopen j hc
    have := hc.innermost
    rw [openBefore, htake, hopen] at this
    cases this
  rcases hread with hoperator | hopen
  · cases hlast : read.getLast? with
    | none =>
      rw [List.getLast?_eq_none_iff] at hlast
      exact .inr (hnone (by rw [hlast]; rfl))
    | some l => exact .inl ⟨l, by rw [htake, hlast], hoperator l hlast⟩
  · exact .inr (hnone hopen)

theorem opening_reported (h : Expr.ofLexemes limit ls = .error ⟨.unmatchedOpening, k⟩) :
    ∃ j, j + k = ls.length ∧ ls[j]? = some (.symbol .opening) ∧ ∀ i, ¬ Closes ls i j := by
  obtain ⟨_, hr⟩ := ofLexemes_reported h (by simp)
  obtain ⟨j, hhead, hopening, hj⟩ := hr.innermost rfl
  refine ⟨j, hj, hopening, fun i hc => ?_⟩
  have hopen : j ∈ openBefore ls ls.length := by
    rw [openBefore, List.take_length]
    exact List.mem_of_mem_head? hhead
  obtain ⟨hi, -⟩ := List.getElem?_eq_some_iff.mp hc.closing
  exact (mem_openBefore_iff.mp hopen).2.2 i hi hc

end

/-! ## Texts -/

theorem message_eq_unmatchedClosing_iff {fault : GrammarFault} :
    fault.message = "unmatched ')'" ↔ fault = .unmatchedClosing := by
  constructor
  · intro h
    cases fault with
    | unmatchedClosing => rfl
    | unexpected l =>
      have hlist : ("unexpected token '" ++ l.text ++ "'").toList = "unmatched ')'".toList := congrArg String.toList h
      simp at hlist
    | _ => exact absurd h (by decide +kernel)
  · rintro rfl
    rfl

theorem getElem?_columnAhead (source : String) {ts : List Token} {i k : Nat} {l : Lexeme}
    (h : (ts.map (·.lexeme))[i]? = some l) (hk : i + k = ts.length) :
    ts[i]? = some ⟨l, columnAhead ts (endColumn source) k⟩ := by
  rw [List.getElem?_map, Option.map_eq_some_iff] at h
  obtain ⟨t, ht, rfl⟩ := h
  rw [columnAhead_eq_columnAt source hk, columnAt, ht]

theorem unmatched_parentheses {limit : Nat} {source : String} {fault : GrammarFault} {column : Nat}
    (h : Expr.parseWithin limit source = .error (.grammar fault column)) :
    ∃ ts, tokens source = .ok ts ∧
      (fault.message = "unmatched ')'" → ∃ i, ts[i]? = some ⟨.symbol .closing, column⟩ ∧
        (BehindOperator (ts.map (·.lexeme)) i ∨
          (∀ j, ¬ Closes (ts.map (·.lexeme)) i j) ∧
            ∀ j < i, (ts.map (·.lexeme))[j]? = some (.symbol .opening) → ∃ m < i, Closes (ts.map (·.lexeme)) m j)) ∧
      (fault.message = "unmatched '('" → ∃ j, ts[j]? = some ⟨.symbol .opening, column⟩ ∧
        ∀ i, ¬ Closes (ts.map (·.lexeme)) i j) := by
  obtain ⟨ts, k, ht, ho, rfl⟩ := parseWithin_eq_grammar_iff.mp h
  refine ⟨ts, ht, fun hm => ?_, fun hm => ?_⟩
  · rw [message_eq_unmatchedClosing_iff] at hm
    subst hm
    obtain ⟨i, hk, hclosing, hplace⟩ := closing_reported ho
    rw [List.length_map] at hk
    refine ⟨i, getElem?_columnAhead source hclosing hk, hplace.imp_right fun hnone => ⟨hnone, ?_⟩⟩
    exact (no_partner_iff hclosing).mp hnone
  · rw [message_eq_unmatchedOpening_iff] at hm
    subst hm
    obtain ⟨j, hk, hopening, hnone⟩ := opening_reported ho
    rw [List.length_map] at hk
    exact ⟨j, getElem?_columnAhead source hopening hk, hnone⟩

theorem unmatched_parentheses_behind_sum : Expr.parseWithin 2 "(1) + x)" = .error (.grammar .unmatchedClosing 8) ∧
    ∃ ts i, tokens "(1) + x)" = .ok ts ∧ ts[i]? = some ⟨.symbol .closing, 8⟩ ∧
      ∀ j, ¬ Closes (ts.map (·.lexeme)) i j := by
  have hparse : Expr.parseWithin 2 "(1) + x)" = .error (.grammar .unmatchedClosing 8) := by rfl
  obtain ⟨ts, ht, hclosing, -⟩ := unmatched_parentheses hparse
  obtain ⟨i, hi, hplace⟩ := hclosing rfl
  refine ⟨hparse, ts, i, ht, hi, ?_⟩
  rcases hplace with ⟨l, hl, hoperator⟩ | ⟨hnone, -⟩
  · have hts : tokens "(1) + x)" = .ok [⟨.symbol .opening, 1⟩, ⟨.number ⟨['1'], none⟩, 2⟩, ⟨.symbol .closing, 3⟩,
        ⟨.symbol .plus, 5⟩, ⟨.name "x", 7⟩, ⟨.symbol .closing, 8⟩] := by rfl
    cases hts.symm.trans ht
    obtain rfl : i = 5 := by
      match i, hi with
      | 5, _ => rfl
    cases hl
    cases hoperator
  · exact hnone

/-- The parenthesis that closes the first one, where the right operand of a sum is due. -/
theorem reported_with_partner : ∃ ts, tokens "(1 + )" = .ok ts ∧
    Expr.parseWithin 2 "(1 + )" = .error (.grammar .unmatchedClosing 6) ∧
    GrammarFault.unmatchedClosing.message = "unmatched ')'" ∧ ts[3]? = some ⟨.symbol .closing, 6⟩ ∧
    Closes (ts.map (·.lexeme)) 3 0 := by
  refine ⟨[⟨.symbol .opening, 1⟩, ⟨.number ⟨['1'], none⟩, 2⟩, ⟨.symbol .plus, 4⟩, ⟨.symbol .closing, 6⟩], ?_⟩
  exact ⟨by rfl, by rfl, rfl, rfl, ⟨rfl, rfl⟩⟩

end Calculator.Grammar
