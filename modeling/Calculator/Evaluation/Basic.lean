import Calculator.Evaluation.Environment
import Calculator.Evaluation.Error
import Calculator.Expr.Basic

/-!
# Evaluation

An evaluation ends in a value or an error, and functions are run and log lines written on the way. Both operands
of a binary operator are evaluated, the left first, and an error of the left one counts before one of the right;
the arguments of a call are evaluated in order up to the first that fails. An error that escapes ends the evaluation
at once. Nesting is limited, a chain of operators leaning to the left counting as one level however long it is.
-/

namespace Calculator

structure CallRecord where
  /-- The name in lower case. -/
  name : String
  arguments : List Binary64
  result : Binary64
deriving DecidableEq, Inhabited

/-- What happens in an evaluation, apart from its outcome: an implementation is run, or a line is logged. -/
inductive Event where
  | ran (builtin : Builtin) (arguments : List Binary64)
  | logged (record : CallRecord)

def Event.record? : Event → Option CallRecord
  | ran .. => none
  | logged record => some record

structure Evaluation where
  outcome : Except EvalError Binary64
  events : Array Event

namespace Evaluation

def calls (e : Evaluation) : Array CallRecord := e.events.filterMap Event.record?

def value (x : Binary64) : Evaluation := ⟨.ok x, #[]⟩

def failure (e : EvalError) : Evaluation := ⟨.error e, #[]⟩

def isTooDeep (e : Evaluation) : Bool :=
  match e.outcome with
  | .error .tooDeep => true
  | _ => false

def escapes (e : Evaluation) : Bool :=
  match e.outcome with
  | .error error => error.escapes
  | .ok _ => false

def andThen (first : Evaluation) (next : Binary64 → Evaluation) : Evaluation :=
  match first.outcome with
  | .error _ => first
  | .ok x => { next x with events := first.events ++ (next x).events }

end Evaluation

/-! ## What the parts of an expression do with values -/

def Sign.apply : Sign → Binary64 → Except EvalError Binary64
  | plus, x => .ok x
  | minus, x => .ok (-x)
  | other symbol, _ => .error (.unknownOperator symbol)

def Operator.apply : Operator → Binary64 → Binary64 → Except EvalError Binary64
  | add, x, y => .ok (x + y)
  | sub, x, y => .ok (x - y)
  | mul, x, y => .ok (x * y)
  | div, x, y => (x.div y).mapError .raised
  | mod, x, y =>
    match x.remainder? y with
    | some r => .ok r
    | none => .error .integerDivisionByZero
  | bitAnd, x, y => .ok (x.bitAnd y)
  | bitOr, x, y => .ok (x.bitOr y)
  | pow, x, y => (x.pow y).mapError .raised
  | other symbol, _, _ => .error (.unknownOperator symbol)

def Builtin.run (b : Builtin) (arguments : List Binary64) : Evaluation :=
  ⟨(b.apply arguments).mapError .raised, #[.ran b arguments]⟩

def CallRecord.log (r : CallRecord) : Evaluation := ⟨.ok r.result, #[.logged r]⟩

namespace Environment

def constant (env : Environment) (name : String) : Except EvalError Binary64 :=
  let key := Text.lower name
  match env.constants.find? key with
  | some x => .ok x
  | none => .error (.unknownIdentifier key)

/-- A call with its arguments evaluated: the function must be known and take that many. -/
def call (env : Environment) (name : String) (arguments : List Binary64) : Evaluation :=
  let key := Text.lower name
  match env.functions.find? key with
  | none => .failure (.unknownFunction key)
  | some b =>
    if (arguments.length : Int) ≠ b.arity then .failure (.arityMismatch key b.arity arguments.length)
    else (b.run arguments).andThen fun result => CallRecord.log ⟨key, arguments, result⟩

end Environment

namespace Evaluation

/-- An operator between two evaluations, of which the left one does not escape. -/
def combine (op : Operator) (left right : Evaluation) : Evaluation where
  outcome :=
    match left.outcome, right.outcome with
    | .ok x, .ok y => op.apply x y
    | .ok _, .error e => .error e
    | .error e, .ok _ => .error e
    | .error e, .error e' => .error (if e'.escapes then e' else e)
  events := left.events ++ right.events

/-- Goes along a chain of operators with their right operands, `left` being evaluated already. -/
def chain (evaluate : Expr → Evaluation) (left : Evaluation) : List (Operator × Expr) → Evaluation
  | [] => left
  | (op, right) :: rest =>
    if left.escapes then left else chain evaluate (combine op left (evaluate right)) rest

/-- The values of arguments in order, up to the first that has none. `values` holds those before, the
latest first. -/
def arguments (evaluate : Expr → Evaluation) (values : List Binary64) (events : Array Event) :
    List Expr → Except EvalError (List Binary64) × Array Event
  | [] => (.ok values.reverse, events)
  | e :: es =>
    let first := evaluate e
    let events := events ++ first.events
    match first.outcome with
    | .error error => (.error error, events)
    | .ok x => arguments evaluate (x :: values) events es

end Evaluation

namespace Expr

/-- The leftmost operand of a chain of binary operators, and the operators with their right operands
from there on, those in `links` coming last. -/
def spine : Expr → List (Operator × Expr) → Expr × List (Operator × Expr)
  | binary op left right, links => left.spine ((op, right) :: links)
  | leftmost, links => (leftmost, links)

def evaluateWithin (env : Environment) : Nat → Expr → Evaluation
  | 0, _ => .failure .tooDeep
  | limit + 1, e =>
    let evaluate := evaluateWithin env limit
    match e with
    | number x => .value x
    | name n => ⟨env.constant n, #[]⟩
    | group inner => evaluate inner
    | signed s operand =>
      let inner := evaluate operand
      { inner with outcome := inner.outcome.bind s.apply }
    | binary op left right =>
      let (leftmost, links) := left.spine [(op, right)]
      Evaluation.chain evaluate (evaluate leftmost) links
    | call f args =>
      match Evaluation.arguments evaluate [] #[] args with
      | (.error error, events) => ⟨.error error, events⟩
      | (.ok values, events) =>
        let called := env.call f values
        { called with events := events ++ called.events }
    | foreign kind => .failure (.notEvaluable kind)

end Expr
end Calculator
