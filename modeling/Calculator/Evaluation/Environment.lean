import Calculator.Binary64.Total
import Calculator.Decimal.Basic
import Calculator.FunctionTable

/-!
# Environments

What the names of an expression stand for: functions and constants, and the standard set of both.
-/

namespace Calculator

/-- Constants by name; the last row of a name counts. Expressions look names up in lower case, so a name
with a capital is out of reach. -/
structure ConstantTable where
  rows : List (String × Binary64)

def ConstantTable.find? (t : ConstantTable) (name : String) : Option Binary64 :=
  (t.rows.reverse.find? (·.1 == name)).map (·.2)

structure Environment where
  functions : FunctionTable
  constants : ConstantTable

namespace Builtin

def unary (name : String) (f : Binary64 → Except MathError Binary64) : Builtin where
  name
  arity := 1
  apply
    | [x] => f x
    | _ => .ok .nan

def binary (name : String) (f : Binary64 → Binary64 → Except MathError Binary64) : Builtin where
  name
  arity := 2
  apply
    | [x, y] => f x y
    | _ => .ok .nan

open Binary64 in
def standard : List Builtin :=
  [unary "sqrt" sqrt,
   unary "floor" (rounded Machine.floor),
   unary "ceil" (rounded Machine.ceil),
   unary "abs" fun x => .ok x.abs,
   binary "log" log,
   unary "ln" ln,
   unary "sin" (periodic Machine.sin),
   unary "cos" (periodic Machine.cos),
   unary "tan" (periodic Machine.tan),
   unary "arcsin" (onUnit Machine.asin),
   unary "arccos" (onUnit Machine.acos),
   unary "arctan" Machine.atan,
   binary "max" fun x y => .ok (x.max y),
   binary "min" fun x y => .ok (x.min y)]

end Builtin

def FunctionTable.standard : FunctionTable := ⟨Builtin.standard, by decide +kernel⟩

def ConstantTable.standard : ConstantTable where
  rows :=
    [("pi", Decimal.toBinary64 ⟨314159265358979323846264338327950288, -35⟩),
     ("e", Decimal.toBinary64 ⟨271828182845904523536028747135266249, -35⟩),
     ("phi", Decimal.toBinary64 ⟨161803398874989484820458683436563811, -35⟩)]

def Environment.standard : Environment := ⟨.standard, .standard⟩

end Calculator
