import Calculator.Proofs.Expr.RoundTrip

/-!
# Where parentheses stand

`eq_of_turns`: two trees that differ in their groups alone are equal if their parentheses stand at the same places
among the other lexemes. `turns` keeps of a tree as it is spelled only which lexemes open or close a parenthesis.
-/

namespace Calculator

inductive Turn where
  | opens
  | closes
  | stays
deriving DecidableEq

def Lexeme.turn : Lexeme → Turn
  | symbol .opening => .opens
  | symbol .closing => .closes
  | _ => .stays

namespace Expr

mutual

/-- The turns of the lexemes that a tree is spelled with, parentheses standing for groups and calls only. -/
def turns : Expr → List Turn
  | number _ => [.stays]
  | name _ => [.stays]
  | signed _ e => .stays :: e.turns
  | binary _ l r => l.turns ++ .stays :: r.turns
  | group e => .opens :: (e.turns ++ [.closes])
  | call _ [] => [.stays, .opens, .closes]
  | call _ (e :: es) => .stays :: .opens :: (e.turns ++ turnsBehind es)
  | foreign _ => [.stays]

def turnsBehind : List Expr → List Turn
  | [] => [.closes]
  | e :: es => .stays :: (e.turns ++ turnsBehind es)

end

end Expr

/-! ## Derivations -/

namespace Grammar
open Grammar.Derivation

theorem turn_joins {tier : Tier} {s : Symbol} {op : Operator} (h : Joins tier s op) :
    (Lexeme.symbol s).turn = .stays := by
  cases h <;> rfl

theorem turn_signs {s : Symbol} {sign : Sign} (h : Signs s sign) : (Lexeme.symbol s).turn = .stays := by
  cases h <;> rfl

/-- What the turns of lexemes say of the value that they stand for. -/
def TurnsAs : (nt : Nonterminal) → List Turn → nt.Value → Prop
  | .phrase _, turns, e => turns = e.turns
  | .more _, turns, links => ∀ left : Expr, left.turns ++ turns = (joinAll left links).turns
  | .arguments, turns, es => ∀ f, .stays :: .opens :: (turns ++ [.closes]) = (Expr.call f es).turns
  | .moreArguments, turns, es => turns ++ [.closes] = Expr.turnsBehind es

theorem turnsAs {nt : Nonterminal} (d : Derivation nt) : TurnsAs nt (d.lexemes.map Lexeme.turn) d.value := by
  induction d with
  | chain first more hf hm =>
    simp only [TurnsAs] at hf hm ⊢
    rw [lexemes, List.map_append, hf, hm, value]
  | done => exact fun left => List.append_nil _
  | link s op joins right more hr hm =>
    intro left
    simp only [TurnsAs] at hr hm
    rw [lexemes, List.map_cons, List.map_append, turn_joins joins, hr]
    have := hm (.binary op left right.value)
    rwa [Expr.turns, List.append_assoc] at this
  | signed s sign signs operand ho =>
    simp only [TurnsAs] at ho ⊢
    rw [lexemes, List.map_cons, turn_signs signs, ho, value, Expr.turns]
  | unsigned power hp => exact hp
  | plain base hb => exact hb
  | raised base exponent hb he =>
    simp only [TurnsAs] at hb he ⊢
    rw [lexemes, List.map_append, List.map_cons, hb, he, value, Expr.turns]
    rfl
  | number n => rfl
  | name n => rfl
  | call f args ha =>
    rw [lexemes, List.map_cons, List.map_cons, List.map_append]
    exact ha f
  | group inner hi =>
    simp only [TurnsAs] at hi ⊢
    rw [lexemes, List.map_cons, List.map_append, hi, value, Expr.turns]
    rfl
  | noArguments => exact fun _ => rfl
  | someArguments first more hf hm =>
    intro f
    simp only [TurnsAs] at hf hm
    rw [lexemes, List.map_append, List.append_assoc, hf, hm, value, Expr.turns]
  | noMore => rfl
  | oneMore arg more ha hm =>
    simp only [TurnsAs] at ha hm ⊢
    rw [lexemes, List.map_cons, List.map_append, List.cons_append, List.append_assoc, ha, hm, value, Expr.turnsBehind]
    rfl

theorem turns_lexemes {p : Phrase} (d : Derivation (.phrase p)) : d.lexemes.map Lexeme.turn = d.value.turns :=
  turnsAs d

end Grammar

namespace Expr

/-! ## Balance -/

structure Balanced (turns : List Turn) : Prop where
  sane : ∀ ts, ts <+: turns → ts.count .closes ≤ ts.count .opens
  settled : turns.count .closes = turns.count .opens

namespace Balanced

theorem nil : Balanced [] where
  sane := by
    intro ts h
    rw [List.prefix_nil.mp h]
    exact Nat.le_refl _
  settled := rfl

theorem stays : Balanced [.stays] where
  sane := by
    intro ts h
    rcases List.prefix_cons_iff.mp h with rfl | ⟨us, rfl, hus⟩
    · exact Nat.le_refl _
    · rw [List.prefix_nil.mp hus]
      decide
  settled := rfl

theorem append {ts us : List Turn} (h : Balanced ts) (h' : Balanced us) : Balanced (ts ++ us) where
  sane := by
    intro vs hvs
    rcases List.prefix_or_prefix_of_prefix hvs (List.prefix_append ts us) with hvs | ⟨ws, rfl⟩
    · exact h.sane vs hvs
    · rw [List.count_append, List.count_append, h.settled]
      exact Nat.add_le_add_left (h'.sane ws ((List.prefix_append_right_inj ts).mp hvs)) _
  settled := by rw [List.count_append, List.count_append, h.settled, h'.settled]

theorem link {ts us : List Turn} (h : Balanced ts) (h' : Balanced us) : Balanced (ts ++ .stays :: us) :=
  h.append (stays.append h')

theorem sane_inside {ts us vs : List Turn} (h : Balanced ts) (hus : ts ++ [.closes] = us ++ vs) (hvs : vs ≠ []) :
    us.count .closes ≤ us.count .opens := by
  obtain ⟨ws, t, rfl⟩ := List.eq_nil_or_concat vs |>.resolve_left hvs
  rw [List.concat_eq_append, ← List.append_assoc] at hus
  exact h.sane us ⟨ws, (List.append_inj_left' hus rfl).symm⟩

theorem group {ts : List Turn} (h : Balanced ts) : Balanced (.opens :: (ts ++ [.closes])) where
  sane := by
    intro us hus
    rcases List.prefix_cons_iff.mp hus with rfl | ⟨us, rfl, vs, hvs⟩
    · exact Nat.le_refl _
    · rw [List.count_cons_of_ne (by decide), List.count_cons_self]
      by_cases hnil : vs = []
      · rw [hnil, List.append_nil] at hvs
        rw [hvs, List.count_append, List.count_append, h.settled]
        exact Nat.le_refl _
      · exact Nat.le_succ_of_le (h.sane_inside hvs.symm hnil)
  settled := by
    rw [List.count_cons_of_ne (by decide), List.count_cons_self, List.count_append, List.count_append, h.settled]
    rfl

end Balanced

mutual

theorem balanced_turns : ∀ e : Expr, Balanced e.turns
  | number _ | name _ | foreign _ => .stays
  | signed _ e => Balanced.stays.append (balanced_turns e)
  | binary _ l r => (balanced_turns l).link (balanced_turns r)
  | group e => (balanced_turns e).group
  | call _ [] => Balanced.stays.append Balanced.nil.group
  | call _ (e :: es) => Balanced.stays.append (balanced_turnsBehind es (balanced_turns e))

theorem balanced_turnsBehind : ∀ (es : List Expr) {ts : List Turn}, Balanced ts →
    Balanced (.opens :: (ts ++ turnsBehind es))
  | [], _, h => h.group
  | e :: es, ts, h => by
    have := balanced_turnsBehind es (h.link (balanced_turns e))
    rwa [List.append_assoc] at this

end

/-! ## Trees without groups -/

mutual

/-- A tree without its groups. -/
def ungroup : Expr → Expr
  | number x => number x
  | name n => name n
  | signed s e => signed s e.ungroup
  | binary op l r => binary op l.ungroup r.ungroup
  | group e => e.ungroup
  | call f args => call f (ungroupAll args)
  | foreign kind => foreign kind

def ungroupAll : List Expr → List Expr
  | [] => []
  | e :: es => e.ungroup :: ungroupAll es

end

def IsUnsigned (e : Expr) : Prop := ∀ x ∈ e.literals, x.isNegative = false

mutual

theorem strip_eq_ungroup : ∀ {e : Expr}, e.IsUnsigned → e.strip = e.ungroup
  | number x, h => by rw [strip, ungroup, if_neg (by rw [h x List.mem_cons_self]; decide)]
  | name _, _ => rfl
  | signed _ e, h => by rw [strip, ungroup, strip_eq_ungroup (e := e) h]
  | binary _ l r, h => by
    have hl : l.IsUnsigned := (List.forall_mem_append.mp h).1
    have hr : r.IsUnsigned := (List.forall_mem_append.mp h).2
    rw [strip, ungroup, strip_eq_ungroup hl, strip_eq_ungroup hr]
  | group e, h => by rw [strip, ungroup, strip_eq_ungroup (e := e) h]
  | call _ args, h => by rw [strip, ungroup, stripAll_eq_ungroupAll h]
  | foreign _, _ => rfl

theorem stripAll_eq_ungroupAll : ∀ {es : List Expr}, (∀ x ∈ allLiterals es, x.isNegative = false) →
    stripAll es = ungroupAll es
  | [], _ => rfl
  | e :: es, h => by
    have he : e.IsUnsigned := (List.forall_mem_append.mp h).1
    rw [stripAll, ungroupAll, strip_eq_ungroup he, stripAll_eq_ungroupAll (List.forall_mem_append.mp h).2]

end

mutual

theorem count_ungroup : ∀ e : Expr, e.ungroup.turns.count .stays = e.turns.count .stays
  | number _ | name _ | foreign _ | call _ [] => rfl
  | signed _ e => by rw [ungroup, turns, turns, List.count_cons, List.count_cons, count_ungroup e]
  | binary _ l r => by
    rw [ungroup, turns, turns, List.count_append, List.count_append, List.count_cons, List.count_cons, count_ungroup l,
      count_ungroup r]
  | group e => by
    rw [ungroup, turns, List.count_cons, List.count_append, count_ungroup e]
    rfl
  | call _ (e :: es) => by
    rw [ungroup, ungroupAll, turns, turns]
    simp only [List.count_cons, List.count_append, count_ungroup e, count_ungroupAll es]

theorem count_ungroupAll : ∀ es : List Expr, (turnsBehind (ungroupAll es)).count .stays = (turnsBehind es).count .stays
  | [] => rfl
  | e :: es => by
    rw [ungroupAll, turnsBehind, turnsBehind]
    simp only [List.count_cons, List.count_append, count_ungroup e, count_ungroupAll es]

end

/-! ## Trees that differ in their groups -/

def isGroup : Expr → Bool
  | group _ => true
  | _ => false

/-- The left operand of an operator cannot take the parenthesis that opens a group around both operands. -/
theorem turns_ne_group {t e : Expr} {rest rest' : List Turn} (ht : t.isGroup = false)
    (hs : t.ungroup = (group e).ungroup) : t.turns ++ rest ≠ (group e).turns ++ rest' := by
  intro h
  cases t with
  | group _ => cases ht
  | binary op l r =>
    have hcount : (binary op l r).turns.count .stays = e.turns.count .stays := by
      rw [← count_ungroup, hs, ungroup, count_ungroup]
    have hgroup : (group e).turns.count .stays = e.turns.count .stays := by
      rw [turns, List.count_cons, List.count_append]
      rfl
    rw [turns, List.count_append, List.count_cons_self] at hcount
    rw [turns, List.append_assoc] at h
    rcases List.append_eq_append_iff.mp h.symm with ⟨ts, hl, -⟩ | ⟨ts, hg, hrest⟩
    · -- the left operand would hold all the lexemes of the group and more
      rw [hl, List.count_append] at hcount
      omega
    · cases hl : l.turns with
      | nil =>
        rw [hl, List.nil_append] at hg
        rw [← hg] at hrest
        exact absurd (List.head_eq_of_cons_eq hrest) (by decide)
      | cons t us =>
        have hsettled := (balanced_turns l).settled
        rw [hl] at hg hsettled hcount
        obtain ⟨rfl, hinner⟩ := List.cons.inj hg
        by_cases hts : ts = []
        · rw [hg, hts, List.append_nil] at hgroup
          omega
        · have hsane := (balanced_turns e).sane_inside hinner hts
          rw [List.count_cons_of_ne (by decide), List.count_cons_self] at hsettled
          omega
  | call f args => cases args <;> exact absurd (List.head_eq_of_cons_eq h) (by decide)
  | _ => exact absurd (List.head_eq_of_cons_eq h) (by decide)

mutual

theorem eq_of_turns_append : ∀ {t u : Expr} {rest rest' : List Turn}, t.ungroup = u.ungroup →
    t.turns ++ rest = u.turns ++ rest' → t = u ∧ rest = rest'
  | group e, u, rest, rest', hs, h => by
    cases u with
    | group e' =>
      rw [ungroup, ungroup] at hs
      simp only [turns, List.cons_append, List.append_assoc, List.cons.injEq, true_and] at h
      obtain ⟨rfl, hrest⟩ := eq_of_turns_append hs h
      exact ⟨rfl, (List.cons.inj hrest).2⟩
    | _ => exact absurd h.symm (turns_ne_group rfl hs.symm)
  | number x, u, rest, rest', hs, h => by
    cases u with
    | number y =>
      cases hs
      exact ⟨rfl, (List.cons.inj h).2⟩
    | group e' => exact absurd h (turns_ne_group rfl hs)
    | _ => cases hs
  | name n, u, rest, rest', hs, h => by
    cases u with
    | name n' =>
      cases hs
      exact ⟨rfl, (List.cons.inj h).2⟩
    | group e' => exact absurd h (turns_ne_group rfl hs)
    | _ => cases hs
  | signed s e, u, rest, rest', hs, h => by
    cases u with
    | signed s' e' =>
      rw [ungroup, ungroup, signed.injEq] at hs
      obtain ⟨rfl, hs⟩ := hs
      obtain ⟨rfl, hrest⟩ := eq_of_turns_append hs (List.cons.inj h).2
      exact ⟨rfl, hrest⟩
    | group e' => exact absurd h (turns_ne_group rfl hs)
    | _ => cases hs
  | binary op l r, u, rest, rest', hs, h => by
    cases u with
    | binary op' l' r' =>
      rw [ungroup, ungroup, binary.injEq] at hs
      obtain ⟨rfl, hl, hr⟩ := hs
      rw [turns, turns, List.append_assoc, List.append_assoc] at h
      obtain ⟨rfl, hright⟩ := eq_of_turns_append hl h
      obtain ⟨rfl, hrest⟩ := eq_of_turns_append hr (List.cons.inj hright).2
      exact ⟨rfl, hrest⟩
    | group e' => exact absurd h (turns_ne_group rfl hs)
    | _ => cases hs
  | call f [], u, rest, rest', hs, h => by
    cases u with
    | call f' args' =>
      cases args' with
      | nil =>
        cases hs
        exact ⟨rfl, List.append_cancel_left h⟩
      | cons => cases hs
    | group e' => exact absurd h (turns_ne_group rfl hs)
    | _ => cases hs
  | call f (e :: es), u, rest, rest', hs, h => by
    cases u with
    | call f' args' =>
      cases args' with
      | nil => cases hs
      | cons e' es' =>
        rw [ungroup, ungroup, call.injEq, ungroupAll, ungroupAll, List.cons.injEq] at hs
        obtain ⟨rfl, he, hes⟩ := hs
        simp only [turns, List.cons_append, List.append_assoc, List.cons.injEq, true_and] at h
        obtain ⟨rfl, hmore⟩ := eq_of_turns_append he h
        obtain ⟨rfl, hrest⟩ := eq_of_turnsBehind_append hes hmore
        exact ⟨rfl, hrest⟩
    | group e' => exact absurd h (turns_ne_group rfl hs)
    | _ => cases hs
  | foreign kind, u, rest, rest', hs, h => by
    cases u with
    | foreign kind' =>
      cases hs
      exact ⟨rfl, (List.cons.inj h).2⟩
    | group e' => exact absurd h (turns_ne_group rfl hs)
    | _ => cases hs

theorem eq_of_turnsBehind_append : ∀ {ts us : List Expr} {rest rest' : List Turn}, ungroupAll ts = ungroupAll us →
    turnsBehind ts ++ rest = turnsBehind us ++ rest' → ts = us ∧ rest = rest'
  | [], [], rest, rest', _, h => ⟨rfl, (List.cons.inj h).2⟩
  | t :: ts, u :: us, rest, rest', hs, h => by
    rw [ungroupAll, ungroupAll, List.cons.injEq] at hs
    simp only [turnsBehind, List.cons_append, List.append_assoc, List.cons.injEq, true_and] at h
    obtain ⟨rfl, hmore⟩ := eq_of_turns_append hs.1 h
    obtain ⟨rfl, hrest⟩ := eq_of_turnsBehind_append hs.2 hmore
    exact ⟨rfl, hrest⟩

end

theorem eq_of_turns {t u : Expr} (ht : t.IsUnsigned) (hu : u.IsUnsigned) (hs : t.strip = u.strip)
    (h : t.turns = u.turns) : t = u := by
  rw [strip_eq_ungroup ht, strip_eq_ungroup hu] at hs
  exact (@eq_of_turns_append t u [] [] hs (by rw [h])).1

end Expr
end Calculator
