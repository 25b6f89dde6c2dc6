import Calculator.Proofs.Evaluation.Meaning

/-!
# The rules of evaluation

`Yields` gives a rule for every way in which the evaluation of a tree can end, each in terms of its subtrees alone.
`evaluatesTo_iff_yields`: every tree has exactly one result by these rules, and it is the result of the evaluation
that goes along chains of operators in a loop.
-/

namespace Calculator

namespace Expr

mutual

/-- The outcome of a tree and the events on the way to it. -/
inductive Yields (env : Environment) : Expr → Except EvalError Binary64 → Array Event → Prop
  | number (x : Binary64) : Yields env (.number x) (.ok x) #[]
  | constant {n : String} {x : Binary64} (known : env.constants.find? (Text.lower n) = some x) :
      Yields env (.name n) (.ok x) #[]
  | unknownName {n : String} (unknown : env.constants.find? (Text.lower n) = none) :
      Yields env (.name n) (.error (.unknownIdentifier (Text.lower n))) #[]
  | group {e : Expr} {outcome : Except EvalError Binary64} {events : Array Event}
      (inner : Yields env e outcome events) : Yields env (.group e) outcome events
  | plus {e : Expr} {x : Binary64} {events : Array Event} (operand : Yields env e (.ok x) events) :
      Yields env (.signed .plus e) (.ok x) events
  | minus {e : Expr} {x : Binary64} {events : Array Event} (operand : Yields env e (.ok x) events) :
      Yields env (.signed .minus e) (.ok (-x)) events
  | unknownSign {symbol : String} {e : Expr} {x : Binary64} {events : Array Event}
      (operand : Yields env e (.ok x) events) :
      Yields env (.signed (.other symbol) e) (.error (.unknownOperator symbol)) events
  /-- The operand counts before its sign. -/
  | operandFails {s : Sign} {e : Expr} {error : EvalError} {events : Array Event}
      (operand : Yields env e (.error error) events) : Yields env (.signed s e) (.error error) events
  | applied {op : Operator} {l r : Expr} {x y : Binary64} {before after : Array Event}
      (left : Yields env l (.ok x) before) (right : Yields env r (.ok y) after) :
      Yields env (.binary op l r) (op.apply x y) (before ++ after)
  /-- The right operand is evaluated although the left one has failed. -/
  | leftFails {op : Operator} {l r : Expr} {error : EvalError} {outcome : Except EvalError Binary64}
      {before after : Array Event} (left : Yields env l (.error error) before) (held : error.escapes = false)
      (right : Yields env r outcome after) (stays : ∀ e, outcome = .error e → e.escapes = false) :
      Yields env (.binary op l r) (.error error) (before ++ after)
  | leftEscapes {op : Operator} {l r : Expr} {error : EvalError} {before : Array Event}
      (left : Yields env l (.error error) before) (escapes : error.escapes = true) :
      Yields env (.binary op l r) (.error error) before
  /-- What escapes on the right outranks what has failed on the left. -/
  | rightEscapes {op : Operator} {l r : Expr} {error escaping : EvalError} {before after : Array Event}
      (left : Yields env l (.error error) before) (held : error.escapes = false)
      (right : Yields env r (.error escaping) after) (escapes : escaping.escapes = true) :
      Yields env (.binary op l r) (.error escaping) (before ++ after)
  | rightFails {op : Operator} {l r : Expr} {x : Binary64} {error : EvalError} {before after : Array Event}
      (left : Yields env l (.ok x) before) (right : Yields env r (.error error) after) :
      Yields env (.binary op l r) (.error error) (before ++ after)
  | argumentFails {f : String} {args : List Expr} {error : EvalError} {events : Array Event}
      (arguments : YieldsAll env args (.error error) events) : Yields env (.call f args) (.error error) events
  | unknownFunction {f : String} {args : List Expr} {values : List Binary64} {events : Array Event}
      (arguments : YieldsAll env args (.ok values) events) (unknown : env.functions.find? (Text.lower f) = none) :
      Yields env (.call f args) (.error (.unknownFunction (Text.lower f))) events
  | wrongCount {f : String} {args : List Expr} {values : List Binary64} {events : Array Event} {b : Builtin}
      (arguments : YieldsAll env args (.ok values) events) (known : env.functions.find? (Text.lower f) = some b)
      (count : (values.length : Int) ≠ b.arity) :
      Yields env (.call f args) (.error (.arityMismatch (Text.lower f) b.arity values.length)) events
  | called {f : String} {args : List Expr} {values : List Binary64} {events : Array Event} {b : Builtin} {x : Binary64}
      (arguments : YieldsAll env args (.ok values) events) (known : env.functions.find? (Text.lower f) = some b)
      (count : (values.length : Int) = b.arity) (returns : b.apply values = .ok x) :
      Yields env (.call f args) (.ok x) (events ++ #[.ran b values, .logged ⟨Text.lower f, values, x⟩])
  | callRaises {f : String} {args : List Expr} {values : List Binary64} {events : Array Event} {b : Builtin}
      {m : MathError} (arguments : YieldsAll env args (.ok values) events)
      (known : env.functions.find? (Text.lower f) = some b) (count : (values.length : Int) = b.arity)
      (raises : b.apply values = .error m) :
      Yields env (.call f args) (.error (.raised m)) (events ++ #[.ran b values])
  | foreign (kind : String) : Yields env (.foreign kind) (.error (.notEvaluable kind)) #[]

inductive YieldsAll (env : Environment) : List Expr → Except EvalError (List Binary64) → Array Event → Prop
  | nil : YieldsAll env [] (.ok []) #[]
  | firstFails {e : Expr} {es : List Expr} {error : EvalError} {events : Array Event}
      (first : Yields env e (.error error) events) : YieldsAll env (e :: es) (.error error) events
  | restFails {e : Expr} {es : List Expr} {x : Binary64} {error : EvalError} {before after : Array Event}
      (first : Yields env e (.ok x) before) (rest : YieldsAll env es (.error error) after) :
      YieldsAll env (e :: es) (.error error) (before ++ after)
  | cons {e : Expr} {es : List Expr} {x : Binary64} {values : List Binary64} {before after : Array Event}
      (first : Yields env e (.ok x) before) (rest : YieldsAll env es (.ok values) after) :
      YieldsAll env (e :: es) (.ok (x :: values)) (before ++ after)

end

/-! ## The rules derive the meaning -/

section
variable {env : Environment}

theorem yields_name (n : String) : Yields env (.name n) (env.constant n) #[] := by
  cases h : env.constants.find? (Text.lower n) with
  | none =>
    rw [Environment.constant_unknown h]
    exact .unknownName h
  | some x =>
    rw [Environment.constant_known h]
    exact .constant h

theorem yields_signed (s : Sign) {e : Expr} {outcome : Except EvalError Binary64} {events : Array Event}
    (h : Yields env e outcome events) : Yields env (.signed s e) (outcome.bind s.apply) events := by
  cases outcome with
  | error error => exact .operandFails h
  | ok x =>
    cases s with
    | plus => exact .plus h
    | minus => exact .minus h
    | other symbol => exact .unknownSign h

theorem yields_binary (op : Operator) {l r : Expr} {left right : Evaluation}
    (hl : Yields env l left.outcome left.events) (hr : Yields env r right.outcome right.events) :
    Yields env (.binary op l r) (Evaluation.join op left right).outcome (Evaluation.join op left right).events := by
  obtain ⟨x, before⟩ := left
  obtain ⟨y, after⟩ := right
  unfold Evaluation.join
  cases x with
  | error error =>
    split
    · rename_i escapes
      exact .leftEscapes hl escapes
    · rename_i h
      have held : error.escapes = false := eq_false_of_ne_true h
      cases y with
      | ok y => exact .leftFails hl held hr fun e he => nomatch he
      | error error' =>
        dsimp only [Evaluation.combine]
        cases he : error'.escapes with
        | true => exact .rightEscapes hl held hr he
        | false => exact .leftFails hl held hr fun e h => by cases h; exact he
  | ok x =>
    cases y with
    | error error => exact .rightFails hl hr
    | ok y => exact .applied hl hr

theorem yields_call (f : String) {args : List Expr} {values : List Binary64} {events : Array Event}
    (h : YieldsAll env args (.ok values) events) :
    Yields env (.call f args) (env.call f values).outcome (events ++ (env.call f values).events) := by
  cases hf : env.functions.find? (Text.lower f) with
  | none =>
    rw [Environment.call_unknown hf]
    simpa [Evaluation.failure] using Yields.unknownFunction h hf
  | some b =>
    by_cases hc : (values.length : Int) = b.arity
    · cases hb : b.apply values with
      | ok x =>
        rw [Environment.call_returns hf hc hb]
        exact .called h hf hc hb
      | error m =>
        rw [Environment.call_raises hf hc hb]
        exact .callRaises h hf hc hb
    · rw [Environment.call_wrongCount hf hc]
      simpa [Evaluation.failure] using Yields.wrongCount h hf hc

end

mutual

theorem yields_meaning (env : Environment) : ∀ e : Expr, Yields env e (e.meaning env).outcome (e.meaning env).events
  | .number x => .number x
  | .name n => yields_name n
  | .signed s e => yields_signed s (yields_meaning env e)
  | .binary op l r => yields_binary op (yields_meaning env l) (yields_meaning env r)
  | .group e => .group (yields_meaning env e)
  | .call f args => by
    have hargs := yieldsAll_meanings env args
    rw [meaning]
    split
    · rename_i error events h
      rw [h] at hargs
      exact .argumentFails hargs
    · rename_i values events h
      rw [h] at hargs
      exact yields_call f hargs
  | .foreign kind => .foreign kind

theorem yieldsAll_meanings (env : Environment) : ∀ es : List Expr,
    YieldsAll env es (meanings env es).1 (meanings env es).2
  | [] => .nil
  | e :: es => by
    have hfirst := yields_meaning env e
    have hrest := yieldsAll_meanings env es
    rw [meanings]
    revert hfirst hrest
    obtain ⟨first, before⟩ := e.meaning env
    obtain ⟨rest, after⟩ := meanings env es
    intro hfirst hrest
    cases first with
    | error error => exact .firstFails hfirst
    | ok x =>
      cases rest with
      | error error => exact .restFails hfirst hrest
      | ok values => exact .cons hfirst hrest

end

/-! ## They derive nothing else -/

theorem join_of_held {op : Operator} {error : EvalError} {before : Array Event} (held : error.escapes = false)
    (right : Evaluation) :
    Evaluation.join op ⟨.error error, before⟩ right = Evaluation.combine op ⟨.error error, before⟩ right := by
  simp [Evaluation.join, Evaluation.escapes, held]

theorem combine_of_held {op : Operator} {error : EvalError} {outcome : Except EvalError Binary64}
    {before after : Array Event} (stays : ∀ e, outcome = .error e → e.escapes = false) :
    Evaluation.combine op ⟨.error error, before⟩ ⟨outcome, after⟩ = ⟨.error error, before ++ after⟩ := by
  cases outcome with
  | ok y => rfl
  | error error' => simp [Evaluation.combine, stays error' rfl]

mutual

theorem meaning_of_yields {env : Environment} : ∀ {e : Expr} {outcome : Except EvalError Binary64}
    {events : Array Event}, Yields env e outcome events → e.meaning env = ⟨outcome, events⟩
  | .number x, _, _, h => by
    cases h
    rfl
  | .name n, _, _, h => by
    cases h with
    | constant known => rw [meaning, Environment.constant_known known]
    | unknownName unknown => rw [meaning, Environment.constant_unknown unknown]
  | .signed s e, _, _, h => by
    rw [meaning]
    cases h with
    | operandFails operand =>
      rw [meaning_of_yields operand]
      rfl
    | _ operand =>
      rw [meaning_of_yields operand]
      rfl
  | .binary op l r, _, _, h => by
    rw [meaning]
    cases h with
    | applied left right =>
      rw [meaning_of_yields left, meaning_of_yields right]
      rfl
    | leftFails left held right stays =>
      rw [meaning_of_yields left, meaning_of_yields right, join_of_held held _]
      exact combine_of_held stays
    | leftEscapes left escapes =>
      rw [meaning_of_yields left]
      exact if_pos escapes
    | rightEscapes left held right escapes =>
      rw [meaning_of_yields left, meaning_of_yields right, join_of_held held _]
      simp [Evaluation.combine, escapes]
    | rightFails left right =>
      rw [meaning_of_yields left, meaning_of_yields right]
      rfl
  | .group e, _, _, h => by
    cases h with
    | group inner => rw [meaning, meaning_of_yields inner]
  | .call f args, _, _, h => by
    rw [meaning]
    cases h with
    | argumentFails arguments => rw [meanings_of_yieldsAll arguments]
    | unknownFunction arguments unknown =>
      rw [meanings_of_yieldsAll arguments]
      simp [Environment.call_unknown unknown, Evaluation.failure]
    | wrongCount arguments known count =>
      rw [meanings_of_yieldsAll arguments]
      simp [Environment.call_wrongCount known count, Evaluation.failure]
    | called arguments known count returns =>
      rw [meanings_of_yieldsAll arguments]
      simp [Environment.call_returns known count returns]
    | callRaises arguments known count raises =>
      rw [meanings_of_yieldsAll arguments]
      simp [Environment.call_raises known count raises]
  | .foreign kind, _, _, h => by
    cases h
    rfl

theorem meanings_of_yieldsAll {env : Environment} : ∀ {es : List Expr} {outcome : Except EvalError (List Binary64)}
    {events : Array Event}, YieldsAll env es outcome events → meanings env es = (outcome, events)
  | [], _, _, h => by
    cases h
    rfl
  | e :: es, _, _, h => by
    rw [meanings]
    cases h with
    | firstFails first => simp only [meaning_of_yields first]
    | restFails first rest =>
      simp only [meaning_of_yields first, meanings_of_yieldsAll rest]
      rfl
    | cons first rest =>
      simp only [meaning_of_yields first, meanings_of_yieldsAll rest]
      rfl

end

theorem yields_iff {env : Environment} {e : Expr} {result : Evaluation} :
    Yields env e result.outcome result.events ↔ e.meaning env = result :=
  ⟨meaning_of_yields, fun h => h ▸ yields_meaning env e⟩

/-! ## Evaluation follows the rules -/

theorem eq_meaning_of_evaluatesTo {env : Environment} {e : Expr} {result : Evaluation}
    (h : e.EvaluatesTo env result) : e.meaning env = result := by
  have hr : e.evaluateWithin env e.height = result := (h e.height).resolve_right fun hd => Nat.lt_irrefl _ hd.2
  have hm : e.evaluateWithin env e.height = e.meaning env :=
    (evaluatesTo_meaning env e e.height).resolve_right fun hd => Nat.lt_irrefl _ hd.2
  rw [← hm, hr]

theorem evaluatesTo_iff_yields (env : Environment) (e : Expr) :
    (∃ result : Evaluation, result.isTooDeep = false ∧ Yields env e result.outcome result.events) ∧
      ∀ result : Evaluation, e.EvaluatesTo env result ↔ Yields env e result.outcome result.events := by
  refine ⟨⟨e.meaning env, ?_, yields_meaning env e⟩, fun result => ?_⟩
  · exact Evaluation.isTooDeep_eq_false (meaning_ne_tooDeep env e)
  · rw [yields_iff]
    constructor
    · exact eq_meaning_of_evaluatesTo
    · rintro rfl
      exact evaluatesTo_meaning env e

end Expr
end Calculator
