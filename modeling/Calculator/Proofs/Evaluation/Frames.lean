import Calculator.Proofs.Evaluation.Rules

/-!
# The levels of an evaluation

`Visits` lists the nodes that an evaluation without a limit comes to, each with the level of nesting at which it does.
`lt_reach_iff`: the deepest of these levels is the reach of the tree. `tooDeep_iff`: a limited evaluation fails for its
depth exactly if one of them lies beyond the limit, whatever other errors there are.
-/

namespace Calculator.Expr

/-- The evaluation of the first tree comes to the second at this level, itself being at level 1. -/
inductive Visits (env : Environment) : Expr → Expr → Nat → Prop
  | root (e : Expr) : Visits env e e 1
  | group {e node : Expr} {level : Nat} (inner : Visits env e node level) : Visits env (.group e) node (level + 1)
  | signed {s : Sign} {e node : Expr} {level : Nat} (operand : Visits env e node level) :
      Visits env (.signed s e) node (level + 1)
  /-- A left operand that is binary itself continues the chain at the level where it is. -/
  | along {op : Operator} {l r node : Expr} {level : Nat} (chained : l.isBinary = true)
      (left : Visits env l node level) :
      Visits env (.binary op l r) node level
  | leftmost {op : Operator} {l r node : Expr} {level : Nat} (unchained : l.isBinary = false)
      (left : Visits env l node level) : Visits env (.binary op l r) node (level + 1)
  | right {op : Operator} {l r node : Expr} {level : Nat} {outcome : Except EvalError Binary64} {events : Array Event}
      (left : Yields env l outcome events) (stays : ∀ e, outcome = .error e → e.escapes = false)
      (right : Visits env r node level) : Visits env (.binary op l r) node (level + 1)
  | argument {f : String} {before after : List Expr} {e node : Expr} {level : Nat} {values : List Binary64}
      {events : Array Event} (valued : YieldsAll env before (.ok values) events) (inner : Visits env e node level) :
      Visits env (.call f (before ++ e :: after)) node (level + 1)

variable {env : Environment}

/-! ## No level lies beyond the reach -/

theorem reach_le_reaches (e : Expr) (after : List Expr) : ∀ {before : List Expr} {values : List Binary64}
    {events : Array Event}, YieldsAll env before (.ok values) events →
    e.reach env ≤ reaches env (before ++ e :: after)
  | [], _, _, _ => by
    rw [List.nil_append, reaches]
    split <;> omega
  | d :: before, _, _, h => by
    cases h with
    | cons first rest =>
      have hrest := reach_le_reaches e after rest
      have hfirst : (d.meaning env).outcome = .ok _ := congrArg Evaluation.outcome (meaning_of_yields first)
      rw [List.cons_append, reaches_ok hfirst]
      omega

theorem rightReach_of_stays {l : Expr} {outcome : Except EvalError Binary64} {events : Array Event}
    (left : Yields env l outcome events) (stays : ∀ e, outcome = .error e → e.escapes = false) (r : Expr) :
    l.rightReach env r = r.reach env := by
  have hstays : (⟨outcome, events⟩ : Evaluation).escapes = false := Evaluation.escapes_eq_false_iff.mpr stays
  rw [rightReach, meaning_of_yields left, hstays, if_neg (by decide)]

theorem Visits.le_reach {e node : Expr} {level : Nat} (h : Visits env e node level) : level ≤ e.reach env := by
  induction h with
  | root e => exact e.reach_pos env
  | group _ ih => exact Nat.succ_le_succ ih
  | signed _ ih => exact Nat.succ_le_succ ih
  | along chained _ ih =>
    rw [reach_binary, chainReach, if_pos chained]
    omega
  | leftmost unchained _ ih =>
    rw [reach_binary, chainReach, unchained, if_neg (by decide)]
    omega
  | right left stays _ ih =>
    rw [reach_binary, rightReach_of_stays left stays]
    omega
  | argument valued _ ih => exact Nat.succ_le_succ (Nat.le_trans ih (reach_le_reaches _ _ valued))

/-! ## Some node lies at the reach -/

theorem exists_visits_binary (op : Operator) {l r : Expr} (hl : ∃ node, Visits env l node (l.reach env))
    (hr : ∃ node, Visits env r node (r.reach env)) :
    ∃ node, Visits env (.binary op l r) node ((binary op l r).reach env) := by
  have hpos := l.reach_pos env
  rw [reach_binary]
  by_cases hle : l.rightReach env r ≤ l.chainReach env
  · obtain ⟨node, h⟩ := hl
    rw [Nat.max_eq_left hle, chainReach]
    by_cases hc : l.isBinary = true
    · rw [if_pos hc, Nat.sub_add_cancel hpos]
      exact ⟨node, .along hc h⟩
    · rw [if_neg hc]
      exact ⟨node, .leftmost (by simpa using hc) h⟩
  · obtain ⟨node, h⟩ := hr
    have hstays : (l.meaning env).escapes = false := by
      by_contra hescapes
      rw [rightReach, if_pos (by simpa using hescapes)] at hle
      omega
    rw [Nat.max_eq_right (by omega), rightReach, hstays, if_neg (by decide)]
    exact ⟨node, .right (yields_meaning env l) (Evaluation.escapes_eq_false_iff.mp hstays) h⟩

mutual

theorem exists_visits : ∀ e : Expr, ∃ node, Visits env e node (e.reach env)
  | number x => ⟨_, .root _⟩
  | name n => ⟨_, .root _⟩
  | foreign kind => ⟨_, .root _⟩
  | group e => by
    obtain ⟨node, h⟩ := exists_visits e
    exact ⟨node, .group h⟩
  | signed s e => by
    obtain ⟨node, h⟩ := exists_visits e
    exact ⟨node, .signed h⟩
  | binary op l r => exists_visits_binary op (exists_visits l) (exists_visits r)
  | call f args => by
    by_cases hargs : args = []
    · subst hargs
      exact ⟨_, .root _⟩
    · obtain ⟨before, e, after, values, events, node, rfl, hvalued, h⟩ := exists_visits_argument hargs
      exact ⟨node, .argument hvalued h⟩

theorem exists_visits_argument : ∀ {es : List Expr}, es ≠ [] → ∃ before e after values events node,
    es = before ++ e :: after ∧ YieldsAll env before (.ok values) events ∧ Visits env e node (reaches env es)
  | [], h => absurd rfl h
  | e :: es, _ => by
    obtain ⟨node, hnode⟩ := exists_visits e
    cases ho : (e.meaning env).outcome with
    | error error =>
      rw [reaches_error ho]
      exact ⟨[], e, es, [], #[], node, rfl, .nil, hnode⟩
    | ok x =>
      rw [reaches_ok ho]
      by_cases hle : reaches env es ≤ e.reach env
      · rw [Nat.max_eq_left hle]
        exact ⟨[], e, es, [], #[], node, rfl, .nil, hnode⟩
      · have hes : es ≠ [] := by
          rintro rfl
          exact hle (Nat.zero_le _)
        obtain ⟨before, d, after, values, events, node, rfl, hvalued, h⟩ := exists_visits_argument hes
        have hfirst := yields_meaning env e
        rw [ho] at hfirst
        rw [Nat.max_eq_right (by omega)]
        exact ⟨e :: before, d, after, x :: values, _, node, rfl, .cons hfirst hvalued, h⟩

end

theorem lt_reach_iff {limit : Nat} {e : Expr} :
    limit < e.reach env ↔ ∃ node level, Visits env e node level ∧ limit < level := by
  constructor
  · intro h
    obtain ⟨node, hnode⟩ : ∃ node, Visits env e node (e.reach env) := exists_visits e
    exact ⟨node, _, hnode, h⟩
  · rintro ⟨node, level, hvisits, h⟩
    exact Nat.lt_of_lt_of_le h hvisits.le_reach

/-! ## Limited evaluations -/

theorem tooDeep_iff {limit : Nat} {e : Expr} : (e.evaluateWithin env limit).outcome = .error .tooDeep ↔
    ∃ node level, Visits env e node level ∧ limit < level := by
  rw [← lt_reach_iff]
  rcases evaluateWithin_settles env limit e with ⟨h, hle⟩ | ⟨h, hlt⟩
  · rw [h]
    constructor
    · exact fun hdeep => absurd hdeep (meaning_ne_tooDeep env e)
    · intro hlt
      omega
  · exact ⟨fun _ => hlt, fun _ => h⟩

/-- The unknown name on the left counts only where the right operand is not too deep. -/
example : let t := binary .add (name "x") (group (group (number .zero)))
    (t.evaluateWithin .standard 3).outcome = .error .tooDeep ∧
      (t.evaluateWithin .standard 4).outcome = .error (.unknownIdentifier "x") := by
  decide +kernel

theorem evaluateWithin_eq_meaning {limit : Nat} {e : Expr}
    (h : (e.evaluateWithin env limit).outcome ≠ .error .tooDeep) : e.evaluateWithin env limit = e.meaning env :=
  (evaluateWithin_meets env limit e).resolve_right fun hdeep => h hdeep.1

theorem tooDeep_antitone {limit limit' : Nat} (hle : limit ≤ limit') {e : Expr}
    (h : (e.evaluateWithin env limit').outcome = .error .tooDeep) :
    (e.evaluateWithin env limit).outcome = .error .tooDeep := by
  obtain ⟨node, level, hvisits, hlt⟩ := tooDeep_iff.mp h
  exact tooDeep_iff.mpr ⟨node, level, hvisits, Nat.lt_of_le_of_lt hle hlt⟩

end Calculator.Expr
