import Calculator.Binary64.Order

/-!
# Machine arithmetic

Values are the machine's: operands are handed over by their encodings and the answer is taken back the same
way. Sums, differences and products always have one. Quotients, powers and the mathematical functions are
refused outside their domain, powers also out of range, and whole numbers are made of finite ones alone.
-/

namespace Calculator

inductive MathError where
  | domain
  | range
  | zeroDivision
  | wholeOfNaN
  | wholeOfInfinity
deriving DecidableEq, Inhabited, Repr

def MathError.message : MathError → String
  | domain => "math domain error"
  | range => "math range error"
  | zeroDivision => "float division by zero"
  | wholeOfNaN => "cannot convert float NaN to integer"
  | wholeOfInfinity => "cannot convert float infinity to integer"

namespace Binary64

def toFloat (x : Binary64) : Float := Float.ofBits x.toBits

def ofFloat (x : Float) : Binary64 := ofBits x.toBits

def lift₁ (f : Float → Float) (x : Binary64) : Binary64 := ofFloat (f x.toFloat)

def lift₂ (f : Float → Float → Float) (x y : Binary64) : Binary64 := ofFloat (f x.toFloat y.toFloat)

def add : Binary64 → Binary64 → Binary64 := lift₂ (· + ·)
def sub : Binary64 → Binary64 → Binary64 := lift₂ (· - ·)
def mul : Binary64 → Binary64 → Binary64 := lift₂ (· * ·)

instance : Add Binary64 := ⟨add⟩
instance : Sub Binary64 := ⟨sub⟩
instance : Mul Binary64 := ⟨mul⟩

end Binary64

namespace Machine
open Binary64

def div (x y : Binary64) : Except MathError Binary64 :=
  if y.isZero then .error .zeroDivision else .ok (lift₂ (· / ·) x y)

/-- A function that is refused outside its domain, NaN lying in every domain. -/
def onDomain (domain : Binary64 → Bool) (f : Float → Float) (x : Binary64) : Except MathError Binary64 :=
  if x.isNaN || domain x then .ok (lift₁ f x) else .error .domain

def sqrt : Binary64 → Except MathError Binary64 := onDomain zero.le Float.sqrt
def log : Binary64 → Except MathError Binary64 := onDomain zero.lt Float.log
def sin : Binary64 → Except MathError Binary64 := onDomain isFinite Float.sin
def cos : Binary64 → Except MathError Binary64 := onDomain isFinite Float.cos
def tan : Binary64 → Except MathError Binary64 := onDomain isFinite Float.tan
def asin : Binary64 → Except MathError Binary64 := onDomain isUnit Float.asin
def acos : Binary64 → Except MathError Binary64 := onDomain isUnit Float.acos
def atan : Binary64 → Except MathError Binary64 := onDomain (fun _ => true) Float.atan

/-- Finite numbers without a finite power are refused: a zero has no negative powers, a negative number none of
a broken exponent, and all others are out of range. -/
def pow (x y : Binary64) : Except MathError Binary64 :=
  let power := lift₂ Float.pow x y
  if power.isFinite || !(x.isFinite && y.isFinite) then .ok power
  else if power.isNaN || x.isZero then .error .domain
  else .error .range

def whole (rounding : Int → Int → Int) : Binary64 → Except MathError Int
  | nan => .error .wholeOfNaN
  | infinite _ => .error .wholeOfInfinity
  | finite negative ordinal =>
    .ok (rounding (if negative then -(units ordinal : Int) else units ordinal) unitsPerOne)

def floor : Binary64 → Except MathError Int := whole Int.fdiv
def ceil : Binary64 → Except MathError Int := whole fun a b => -(-a).fdiv b
def truncate : Binary64 → Except MathError Int := whole Int.tdiv

end Machine
end Calculator
