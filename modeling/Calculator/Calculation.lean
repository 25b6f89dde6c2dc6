import Calculator.Evaluation.Basic
import Calculator.Expr.Description
import Calculator.Expr.Parser

/-!
# Calculations

From text to value in the standard environment. A calculation leaves a log: the tree that was read,
every call, and how it ended; a text that cannot be read leaves none.
-/

namespace Calculator

/-- How many levels of nesting the stack has room for in each task. -/
structure Limits where
  reading : Nat
  evaluation : Nat
  description : Nat
  dump : Nat
deriving DecidableEq, Inhabited, Repr

inductive LogEntry where
  | parsed (source : String) (tree : Expr)
  | called (record : CallRecord)
  | calculated (source : String) (value : Binary64)
  | failed (source : String) (error : Diagnostic)

def CallRecord.text (r : CallRecord) : String :=
  "call " ++ r.name ++ Text.listing (r.arguments.map Binary64.text) ++ " -> " ++ r.result.text

/-- The line of the log: which part of the program speaks, and what it says. -/
def LogEntry.text (limits : Limits) : LogEntry → Except WriteError String
  | parsed source tree => do
    let description ← tree.describeWithin limits.description
    return "calc.parse: parsed " ++ Text.quoted source ++ " -> " ++ description
  | called record => .ok ("calc.eval: " ++ record.text)
  | calculated source value => .ok ("calc: calculate " ++ Text.quoted source ++ " = " ++ value.text)
  | failed source error =>
    .ok ("calc: calculate " ++ Text.quoted source ++ " failed: " ++ error.kind ++ ": " ++ error.text)

inductive CalculationError where
  | parse (error : ParseError)
  | evaluation (error : EvalError)
deriving DecidableEq, Inhabited, Repr

def CalculationError.diagnostic? : CalculationError → Option Diagnostic
  | parse e => e.diagnostic?
  | evaluation e => e.diagnostic?

structure Calculation where
  outcome : Except CalculationError Binary64
  log : List LogEntry

def calculate (limits : Limits) (source : String) : Calculation :=
  match Expr.parseWithin limits.reading source with
  | .error e => ⟨.error (.parse e), []⟩
  | .ok tree =>
    let evaluation := tree.evaluateWithin .standard limits.evaluation
    let begun := .parsed source tree :: evaluation.calls.toList.map .called
    match evaluation.outcome with
    | .ok x => ⟨.ok x, begun ++ [.calculated source x]⟩
    | .error e => ⟨.error (.evaluation e), begun ++ e.diagnostic?.toList.map (.failed source)⟩

end Calculator
