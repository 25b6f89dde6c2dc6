import Calculator.Evaluation.Basic
import Calculator.Proofs.Expr.Height
import Calculator.Proofs.Expr.Writable
import Calculator.Proofs.Number.Total

/-!
# The meaning of a tree

`meaning` folds a tree by plain recursion and without a limit. `evaluateWithin_settles`: evaluation, which goes
along chains of operators in a loop, gives the meaning at every limit that is not below the `reach` of the tree, and
goes too deep at every other. The height of a tree is always enough. `meaning_fails`: the errors that a meaning can be.
-/

namespace Calculator

namespace Evaluation

/-- An operator between the meanings of its operands, the right one counting only if the left one does not escape. -/
def join (op : Operator) (left right : Evaluation) : Evaluation :=
  if left.escapes then left else combine op left right

/-- Complete and equal to the meaning, or too deep for a limit that is not enough. -/
def Meets (limit enough : Nat) (x meaning : Evaluation) : Prop :=
  x = meaning ∨ x.outcome = .error .tooDeep ∧ limit < enough

/-- Equal to the meaning if the limit admits what is needed, and too deep if it does not. -/
def Settles (limit needed : Nat) (x meaning : Evaluation) : Prop :=
  x = meaning ∧ needed ≤ limit ∨ x.outcome = .error .tooDeep ∧ limit < needed

end Evaluation

namespace Expr

mutual

/-- The outcome of a tree and the events on the way to it. -/
def meaning (env : Environment) : Expr → Evaluation
  | number x => .value x
  | name n => ⟨env.constant n, #[]⟩
  | signed s e =>
    let inner := e.meaning env
    ⟨inner.outcome.bind s.apply, inner.events⟩
  | binary op l r => .join op (l.meaning env) (r.meaning env)
  | group e => e.meaning env
  | call f args =>
    match meanings env args with
    | (.error error, events) => ⟨.error error, events⟩
    | (.ok values, events) =>
      let called := env.call f values
      ⟨called.outcome, events ++ called.events⟩
  | foreign kind => .failure (.notEvaluable kind)

def meanings (env : Environment) : List Expr → Except EvalError (List Binary64) × Array Event
  | [] => (.ok [], #[])
  | e :: es =>
    let first := e.meaning env
    match first.outcome with
    | .error error => (.error error, first.events)
    | .ok x =>
      let rest := meanings env es
      (rest.1.map (x :: ·), first.events ++ rest.2)

end

def isBinary : Expr → Bool
  | binary .. => true
  | _ => false

mutual

/-- How many levels deep evaluation goes. A chain of operators takes one level, and what stands behind the first
argument that fails, or the right of an operand that escapes, takes none. -/
def reach (env : Environment) : Expr → Nat
  | number _ => 1
  | name _ => 1
  | signed _ e => e.reach env + 1
  | binary _ l r => max (if l.isBinary then l.reach env - 1 else l.reach env)
      (if (l.meaning env).escapes then 0 else r.reach env) + 1
  | group e => e.reach env + 1
  | call _ args => reaches env args + 1
  | foreign _ => 1

def reaches (env : Environment) : List Expr → Nat
  | [] => 0
  | e :: es =>
    match (e.meaning env).outcome with
    | .ok _ => max (e.reach env) (reaches env es)
    | .error _ => e.reach env

end

def chainReach (env : Environment) (e : Expr) : Nat := if e.isBinary then e.reach env - 1 else e.reach env

def rightReach (env : Environment) (l r : Expr) : Nat := if (l.meaning env).escapes then 0 else r.reach env

theorem rightReach_le_reach (env : Environment) (l r : Expr) : l.rightReach env r ≤ r.reach env := by
  unfold rightReach
  split <;> omega

theorem reach_pos (env : Environment) (e : Expr) : 0 < e.reach env := by
  cases e <;> simp [reach]

theorem reach_binary (env : Environment) (op : Operator) (l r : Expr) :
    (binary op l r).reach env = max (l.chainReach env) (l.rightReach env r) + 1 := by
  rw [reach, chainReach, rightReach]

theorem chainReach_binary (env : Environment) (op : Operator) (l r : Expr) :
    (binary op l r).chainReach env = max (l.chainReach env) (l.rightReach env r) := by
  rw [chainReach, isBinary, if_pos rfl, reach_binary, Nat.add_sub_cancel]

theorem chainReach_le_reach (env : Environment) (e : Expr) : e.chainReach env ≤ e.reach env := by
  unfold chainReach
  split <;> omega

theorem reaches_ok {env : Environment} {e : Expr} {x : Binary64} (h : (e.meaning env).outcome = .ok x)
    (es : List Expr) : reaches env (e :: es) = max (e.reach env) (reaches env es) := by
  simp only [reaches, h]

theorem reaches_error {env : Environment} {e : Expr} {error : EvalError} (h : (e.meaning env).outcome = .error error)
    (es : List Expr) : reaches env (e :: es) = e.reach env := by
  simp only [reaches, h]

mutual

theorem reach_le_height (env : Environment) : ∀ e : Expr, e.reach env ≤ e.height
  | number _ => Nat.le_refl _
  | name _ => Nat.le_refl _
  | signed _ e => Nat.succ_le_succ (reach_le_height env e)
  | binary op l r => by
    have hl := reach_le_height env l
    have hr := reach_le_height env r
    have hchain := l.chainReach_le_reach env
    have hright := l.rightReach_le_reach env r
    rw [reach_binary, height]
    omega
  | group e => Nat.succ_le_succ (reach_le_height env e)
  | call _ args => Nat.succ_le_succ (reaches_le_heights env args)
  | foreign _ => Nat.le_refl _

theorem reaches_le_heights (env : Environment) : ∀ es : List Expr, reaches env es ≤ heights es
  | [] => Nat.le_refl _
  | e :: es => by
    have hfirst := reach_le_height env e
    have hrest := reaches_le_heights env es
    rw [reaches, heights]
    split <;> omega

end

end Expr

/-! ## Names and calls -/

namespace Environment
variable {env : Environment} {name : String}

theorem constant_known {x : Binary64} (h : env.constants.find? (Text.lower name) = some x) :
    env.constant name = .ok x := by
  simp [constant, h]

theorem constant_unknown (h : env.constants.find? (Text.lower name) = none) :
    env.constant name = .error (.unknownIdentifier (Text.lower name)) := by
  simp [constant, h]

theorem call_unknown (h : env.functions.find? (Text.lower name) = none) (values : List Binary64) :
    env.call name values = .failure (.unknownFunction (Text.lower name)) := by
  simp [call, h]

variable {b : Builtin} (h : env.functions.find? (Text.lower name) = some b) {values : List Binary64}
include h

theorem call_wrongCount (hc : (values.length : Int) ≠ b.arity) :
    env.call name values = .failure (.arityMismatch (Text.lower name) b.arity values.length) := by
  simp [call, h, hc]

theorem call_counted (hc : (values.length : Int) = b.arity) :
    env.call name values = (b.run values).andThen fun result => CallRecord.log ⟨Text.lower name, values, result⟩ := by
  simp [call, h, hc]

theorem call_returns (hc : (values.length : Int) = b.arity) {x : Binary64} (hx : b.apply values = .ok x) :
    env.call name values = ⟨.ok x, #[.ran b values, .logged ⟨Text.lower name, values, x⟩]⟩ := by
  rw [call_counted h hc, Builtin.run, hx]
  rfl

theorem call_raises (hc : (values.length : Int) = b.arity) {m : MathError} (hm : b.apply values = .error m) :
    env.call name values = ⟨.error (.raised m), #[.ran b values]⟩ := by
  rw [call_counted h hc, Builtin.run, hm]
  rfl

end Environment

/-! ## How meanings fail -/

def Category.ordinary : List Category := [unknownIdentifier, unknownFunction, arityMismatch, integerDivisionByZero]

def EvalError.IsOrdinary (e : EvalError) : Prop := ∃ c ∈ Category.ordinary, e.category? = some c

/-- No failure is for depth. Where everything is `known` and nothing refused all are ordinary. -/
def Fails {α : Type} (known total : Prop) (x : Except EvalError α) : Prop :=
  ∀ e, x = .error e → e.IsOrdinary ∨ (¬known ∧ e.escapes = false) ∨ (¬total ∧ ∃ m, e = .raised m)

namespace Fails
variable {α β : Type} {known total known' total' : Prop}

theorem ok (a : α) : Fails known total (.ok a) := fun _ h => by cases h

theorem error {e : EvalError} (h : e.IsOrdinary) : Fails known total (.error e : Except EvalError α) :=
  fun _ he => by cases he; exact .inl h

theorem unknown {e : EvalError} (hk : ¬known) (h : e.escapes = false) :
    Fails known total (.error e : Except EvalError α) :=
  fun _ he => by cases he; exact .inr (.inl ⟨hk, h⟩)

theorem raised (ht : ¬total) (m : MathError) : Fails known total (.error (.raised m) : Except EvalError α) :=
  fun _ he => by cases he; exact .inr (.inr ⟨ht, m, rfl⟩)

theorem mono (hk : known' → known) (ht : total' → total) {x : Except EvalError α} (h : Fails known total x) :
    Fails known' total' x := by
  intro e he
  rcases h e he with hordinary | ⟨hunknown, hheld⟩ | ⟨hrefused, hraised⟩
  · exact .inl hordinary
  · exact .inr (.inl ⟨fun h => hunknown (hk h), hheld⟩)
  · exact .inr (.inr ⟨fun h => hrefused (ht h), hraised⟩)

theorem relay {e : EvalError} (h : Fails known total (.error e : Except EvalError α)) :
    Fails known total (.error e : Except EvalError β) :=
  fun _ he => by cases he; exact h e rfl

theorem bind {x : Except EvalError α} {f : α → Except EvalError β} (hx : Fails known total x)
    (hf : ∀ a, Fails known total (f a)) : Fails known total (x.bind f) := by
  cases x with
  | error e => exact hx.relay
  | ok a => exact hf a

theorem ne_tooDeep {x : Except EvalError α} (h : Fails known total x) : x ≠ .error .tooDeep := by
  intro hx
  rcases h .tooDeep hx with ⟨c, hc, hcategory⟩ | ⟨-, hheld⟩ | ⟨-, m, hm⟩
  · cases hcategory
    revert hc
    decide
  · cases hheld
  · cases hm

end Fails

theorem Sign.apply_fails (s : Sign) (x : Binary64) : Fails (s.isKnown = true) True (s.apply x) := by
  cases s with
  | other symbol => exact .unknown (by simp [isKnown]) rfl
  | _ => exact .ok _

theorem Operator.apply_fails (op : Operator) (x y : Binary64) : Fails (op ∈ known) True (op.apply x y) := by
  cases op with
  | mod =>
    rw [Operator.apply]
    cases x.remainder? y with
    | some r => exact .ok r
    | none => exact .error ⟨_, by decide, rfl⟩
  | div =>
    obtain ⟨z, hz⟩ := x.div_total y
    rw [Operator.apply, hz]
    exact .ok z
  | pow =>
    obtain ⟨z, hz⟩ := x.pow_total y
    rw [Operator.apply, hz]
    exact .ok z
  | other symbol => exact .unknown (by simp [known]) rfl
  | _ => exact .ok _

theorem FunctionTable.mem_of_find? {t : FunctionTable} {key : String} {b : Builtin} (h : t.find? key = some b) :
    b ∈ t.builtins :=
  List.mem_of_find?_eq_some h

namespace Environment

theorem constant_fails (env : Environment) (n : String) : Fails True True (env.constant n) := by
  cases h : env.constants.find? (Text.lower n) with
  | some x =>
    rw [constant_known h]
    exact .ok x
  | none =>
    rw [constant_unknown h]
    exact .error ⟨_, .head _, rfl⟩

theorem call_fails (env : Environment) (f : String) (values : List Binary64) :
    Fails True env.functions.IsTotal (env.call f values).outcome := by
  cases hf : env.functions.find? (Text.lower f) with
  | none =>
    rw [call_unknown hf]
    exact .error ⟨_, .tail _ (.head _), rfl⟩
  | some b =>
    by_cases hc : (values.length : Int) = b.arity
    · cases hr : b.apply values with
      | ok result =>
        rw [call_returns hf hc hr]
        exact .ok result
      | error m =>
        rw [call_raises hf hc hr]
        refine .raised (fun htotal => ?_) m
        obtain ⟨y, hy⟩ := htotal b (FunctionTable.mem_of_find? hf) values hc
        cases hr.symm.trans hy
    · rw [call_wrongCount hf hc]
      exact .error ⟨_, .tail _ (.tail _ (.head _)), rfl⟩

end Environment

theorem Evaluation.join_fails {op : Operator} {known total : Prop} (hop : known → op ∈ Operator.known)
    {left right : Evaluation} (hl : Fails known total left.outcome) (hr : Fails known total right.outcome) :
    Fails known total (join op left right).outcome := by
  unfold join
  split
  · exact hl
  · obtain ⟨x, before⟩ := left
    obtain ⟨y, after⟩ := right
    cases x with
    | error e =>
      cases y with
      | error e' =>
        dsimp only [combine]
        split
        · exact hr
        · exact hl
      | ok y => exact hl
    | ok x =>
      cases y with
      | error e => exact hr
      | ok y => exact (op.apply_fails x y).mono hop fun _ => trivial

namespace Expr

mutual

/-- A well-formed tree fails for its names, calls and remainders, and perhaps for a function that is refused. -/
theorem meaning_fails (env : Environment) : ∀ e : Expr,
    Fails (e.isWellFormed = true) env.functions.IsTotal (e.meaning env).outcome
  | number x => .ok x
  | name n => (env.constant_fails n).mono (fun _ => trivial) fun _ => trivial
  | signed s e => by
    rw [meaning, isWellFormed, Bool.and_eq_true]
    refine Fails.bind ((meaning_fails env e).mono And.right id) fun x => ?_
    exact (s.apply_fails x).mono And.left fun _ => trivial
  | binary op l r => by
    rw [meaning, isWellFormed, Bool.and_eq_true, Bool.and_eq_true, decide_eq_true_eq]
    refine Evaluation.join_fails (fun h => h.1.1) ?_ ?_
    · exact (meaning_fails env l).mono (fun h => h.1.2) id
    · exact (meaning_fails env r).mono And.right id
  | group e => by
    rw [meaning, isWellFormed]
    exact meaning_fails env e
  | call f args => by
    rw [meaning, isWellFormed, Bool.and_eq_true]
    have hargs : Fails (isName f = true ∧ allWellFormed args = true) env.functions.IsTotal (meanings env args).1 :=
      (meanings_fails env args).mono And.right id
    split
    · rename_i error events h
      rw [h] at hargs
      exact hargs.relay
    · exact (env.call_fails f _).mono (fun _ => trivial) id
  | foreign kind => .unknown (by simp [isWellFormed]) rfl

theorem meanings_fails (env : Environment) : ∀ es : List Expr,
    Fails (allWellFormed es = true) env.functions.IsTotal (meanings env es).1
  | [] => .ok []
  | e :: es => by
    rw [allWellFormed, Bool.and_eq_true]
    have hfirst : Fails (e.isWellFormed = true ∧ allWellFormed es = true) env.functions.IsTotal
        (e.meaning env).outcome :=
      (meaning_fails env e).mono And.left id
    have hrest : Fails (e.isWellFormed = true ∧ allWellFormed es = true) env.functions.IsTotal (meanings env es).1 :=
      (meanings_fails env es).mono And.right id
    rw [meanings]
    revert hfirst hrest
    obtain ⟨first, before⟩ := e.meaning env
    obtain ⟨rest, after⟩ := meanings env es
    intro hfirst hrest
    cases first with
    | error error => exact hfirst.relay
    | ok x =>
      cases rest with
      | error error => exact hrest
      | ok values => exact .ok _

end

theorem meaning_ne_tooDeep (env : Environment) (e : Expr) : (e.meaning env).outcome ≠ .error .tooDeep :=
  (meaning_fails env e).ne_tooDeep

end Expr

/-! ## Chains -/

namespace Evaluation

namespace Settles
variable {limit needed needed' : Nat} {x y z : Evaluation}

theorem succ (h : Settles limit needed x y) : Settles (limit + 1) (needed + 1) x y :=
  h.imp (fun h => ⟨h.1, Nat.succ_le_succ h.2⟩) fun h => ⟨h.1, Nat.succ_lt_succ h.2⟩

theorem trans (h : Settles limit needed x y) (h' : Settles limit needed' y z) :
    Settles limit (max needed needed') x z := by
  rcases h with ⟨rfl, hle⟩ | ⟨hdeep, hlt⟩
  · rcases h' with ⟨he, hle'⟩ | ⟨hdeep, hlt⟩
    · exact .inl ⟨he, by omega⟩
    · exact .inr ⟨hdeep, by omega⟩
  · exact .inr ⟨hdeep, by omega⟩

theorem meets {enough : Nat} (h : Settles limit needed x y) (hle : needed ≤ enough) : Meets limit enough x y :=
  h.imp (fun h => h.1) fun h => ⟨h.1, Nat.lt_of_lt_of_le h.2 hle⟩

end Settles

theorem isTooDeep_eq_false {x : Evaluation} (h : x.outcome ≠ .error .tooDeep) : x.isTooDeep = false := by
  unfold isTooDeep
  split
  · rename_i h'
    exact absurd h' h
  · rfl

theorem escapes_eq_false_iff {x : Evaluation} :
    x.escapes = false ↔ ∀ e, x.outcome = .error e → e.escapes = false := by
  obtain ⟨outcome, events⟩ := x
  cases outcome with
  | ok x => exact ⟨fun _ _ he => (nomatch he), fun _ => rfl⟩
  | error error => exact ⟨fun h e he => by cases he; exact h, fun h => h error rfl⟩

theorem chain_of_escapes {evaluate : Expr → Evaluation} {left : Evaluation} (h : left.escapes = true)
    (links : List (Operator × Expr)) : chain evaluate left links = left := by
  cases links with
  | nil => rfl
  | cons link rest => rw [chain, if_pos h]

theorem escapes_of_tooDeep {x : Evaluation} (h : x.outcome = .error .tooDeep) : x.escapes = true := by
  rw [escapes, h]
  rfl

/-- What goes too deep on the right escapes the errors of the left. -/
theorem combine_tooDeep (op : Operator) (left : Evaluation) {right : Evaluation} (h : right.outcome = .error .tooDeep) :
    (combine op left right).outcome = .error .tooDeep := by
  unfold combine
  rw [h]
  cases left.outcome <;> rfl

section
variable {env : Environment} {limit : Nat} {evaluate : Expr → Evaluation}
  (hev : ∀ e : Expr, Settles limit (e.reach env) (evaluate e) (e.meaning env))
include hev

theorem chain_link (op : Operator) (l r : Expr) (links : List (Operator × Expr)) :
    Settles limit (l.rightReach env r) (chain evaluate (l.meaning env) ((op, r) :: links))
      (chain evaluate ((Expr.binary op l r).meaning env) links) := by
  rw [chain, Expr.rightReach, Expr.meaning, join]
  split
  · rename_i hescapes
    exact .inl ⟨(chain_of_escapes hescapes links).symm, Nat.zero_le _⟩
  · rcases hev r with ⟨h, hle⟩ | ⟨h, hlt⟩
    · exact .inl ⟨by rw [h], hle⟩
    · have hdeep := combine_tooDeep op (l.meaning env) h
      exact .inr ⟨by rw [chain_of_escapes (escapes_of_tooDeep hdeep), hdeep], hlt⟩

theorem chain_leftmost (e : Expr) (links : List (Operator × Expr)) :
    Settles limit (e.reach env) (chain evaluate (evaluate e) links) (chain evaluate (e.meaning env) links) := by
  rcases hev e with ⟨h, hle⟩ | ⟨h, hlt⟩
  · exact .inl ⟨by rw [h], hle⟩
  · exact .inr ⟨by rw [chain_of_escapes (escapes_of_tooDeep h), h], hlt⟩

/-- A chain taken apart into its leftmost operand and its links is evaluated as a whole. -/
theorem chain_spine : ∀ (e : Expr) (links : List (Operator × Expr)),
    Settles limit (e.chainReach env) (chain evaluate (evaluate (e.spine links).1) (e.spine links).2)
      (chain evaluate (e.meaning env) links)
  | .binary op l r, links => by
    rw [Expr.spine, Expr.chainReach_binary]
    exact (chain_spine l ((op, r) :: links)).trans (chain_link hev op l r links)
  | .number x, links => chain_leftmost hev (.number x) links
  | .name n, links => chain_leftmost hev (.name n) links
  | .signed s e, links => chain_leftmost hev (.signed s e) links
  | .group e, links => chain_leftmost hev (.group e) links
  | .call f args, links => chain_leftmost hev (.call f args) links
  | .foreign kind, links => chain_leftmost hev (.foreign kind) links

/-- The arguments from some place on, `values` and `events` being what those before have given. -/
theorem arguments_meanings : ∀ (es : List Expr) (values : List Binary64) (events : Array Event),
    arguments evaluate values events es =
          ((Expr.meanings env es).1.map (values.reverse ++ ·), events ++ (Expr.meanings env es).2) ∧
        Expr.reaches env es ≤ limit ∨
      (arguments evaluate values events es).1 = .error .tooDeep ∧ limit < Expr.reaches env es
  | [], values, events => .inl ⟨by simp [arguments, Expr.meanings, Except.map], Nat.zero_le _⟩
  | e :: es, values, events => by
    rw [arguments, Expr.meanings]
    rcases hev e with ⟨h, hle⟩ | ⟨h, hlt⟩
    · simp only [h]
      cases ho : (e.meaning env).outcome with
      | error error => exact .inl ⟨rfl, by rw [Expr.reaches_error ho]; exact hle⟩
      | ok x =>
        rw [Expr.reaches_ok ho]
        refine (arguments_meanings es (x :: values) (events ++ (e.meaning env).events)).imp (fun h => ⟨?_, by omega⟩)
          fun h => ⟨h.1, by omega⟩
        simp only [h.1]
        cases (Expr.meanings env es).1 <;> simp [Except.map, Array.append_assoc]
    · refine .inr ⟨by simp only [h], Nat.lt_of_lt_of_le hlt ?_⟩
      rw [Expr.reaches]
      split <;> omega

end

end Evaluation

/-! ## Evaluation gives the meaning -/

namespace Expr

theorem evaluateWithin_settles (env : Environment) : ∀ (limit : Nat) (e : Expr),
    Evaluation.Settles limit (e.reach env) (e.evaluateWithin env limit) (e.meaning env)
  | 0, e => .inr ⟨rfl, e.reach_pos env⟩
  | limit + 1, e => by
    have hev := evaluateWithin_settles env limit
    cases e with
    | number x => exact .inl ⟨rfl, Nat.succ_le_succ (Nat.zero_le _)⟩
    | name n => exact .inl ⟨rfl, Nat.succ_le_succ (Nat.zero_le _)⟩
    | foreign kind => exact .inl ⟨rfl, Nat.succ_le_succ (Nat.zero_le _)⟩
    | group e =>
      rw [evaluateWithin, meaning, reach]
      exact (hev e).succ
    | signed s e =>
      rw [evaluateWithin, meaning, reach]
      rcases hev e with ⟨h, hle⟩ | ⟨h, hlt⟩
      · exact .inl ⟨by simp only [h], Nat.succ_le_succ hle⟩
      · exact .inr ⟨by simp only [h]; rfl, Nat.succ_lt_succ hlt⟩
    | binary op l r =>
      rw [evaluateWithin, reach_binary]
      exact ((Evaluation.chain_spine hev l [(op, r)]).trans (Evaluation.chain_link hev op l r [])).succ
    | call f args =>
      rw [evaluateWithin, meaning, reach]
      rcases Evaluation.arguments_meanings hev args [] #[] with ⟨h, hle⟩ | ⟨h, hlt⟩
      · refine .inl ⟨?_, Nat.succ_le_succ hle⟩
        simp only [h]
        obtain ⟨outcome, events⟩ := meanings env args
        cases outcome <;> simp [Except.map]
      · refine .inr ⟨?_, Nat.succ_lt_succ hlt⟩
        revert h
        obtain ⟨outcome, events⟩ := Evaluation.arguments (evaluateWithin env limit) [] #[] args
        intro h
        cases h
        rfl

theorem evaluateWithin_meets (env : Environment) (limit : Nat) (e : Expr) :
    Evaluation.Meets limit e.height (e.evaluateWithin env limit) (e.meaning env) :=
  (evaluateWithin_settles env limit e).meets (e.reach_le_height env)

/-- Evaluation of a tree has a result wherever it is not too deep for the limit. -/
def EvaluatesTo (env : Environment) (e : Expr) (result : Evaluation) : Prop :=
  ∀ limit, Evaluation.Meets limit e.height (e.evaluateWithin env limit) result

theorem evaluatesTo_meaning (env : Environment) (e : Expr) : e.EvaluatesTo env (e.meaning env) :=
  fun limit => evaluateWithin_meets env limit e

end Expr

end Calculator
