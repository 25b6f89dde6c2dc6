import Calculator.Binary64.Machine
import Calculator.Diagnostic

/-!
# Evaluation errors

Why a tree has no value. An error that `escapes` ends the evaluation wherever it occurs; every other one is held
back until both operands of the operators around it have been evaluated.
-/

namespace Calculator

/-- Names are in lower case. -/
inductive EvalError where
  | unknownIdentifier (name : String)
  | unknownFunction (name : String)
  | arityMismatch (name : String) (expected got : Int)
  | unknownOperator (symbol : String)
  | integerDivisionByZero
  | notEvaluable (kind : String)
  | tooDeep
  /-- A function or an operator was refused its operation. -/
  | raised (error : MathError)
deriving DecidableEq, Inhabited, Repr

namespace EvalError

def escapes : EvalError → Bool
  | tooDeep | raised _ => true
  | _ => false

/-- No category is foreseen for operations that are refused. -/
def category? : EvalError → Option Category
  | unknownIdentifier _ => some .unknownIdentifier
  | unknownFunction _ => some .unknownFunction
  | arityMismatch .. => some .arityMismatch
  | unknownOperator _ => some .unknownOperator
  | integerDivisionByZero => some .integerDivisionByZero
  | notEvaluable _ => some .evaluation
  | tooDeep => some .evaluation
  | raised _ => none

def message : EvalError → String
  | unknownIdentifier name => "unknown identifier '" ++ name ++ "'"
  | unknownFunction name => "unknown function '" ++ name ++ "'"
  | arityMismatch name expected got =>
    name ++ " expects " ++ toString expected ++ (if expected = 1 then " argument" else " arguments") ++
      ", got " ++ toString got
  | unknownOperator symbol => "unknown operator '" ++ symbol ++ "'"
  | integerDivisionByZero => "integer modulo by zero"
  | notEvaluable kind => "cannot evaluate " ++ kind
  | tooDeep => "expression nested too deeply"
  | raised error => error.message

def diagnostic? (e : EvalError) : Option Diagnostic := e.category?.map (⟨·, e.message, none⟩)

end EvalError
end Calculator
