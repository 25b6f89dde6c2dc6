import Calculator.Decimal.Numeral

/-!
# Written results

The two ways a double is shown. `Binary64.text` writes its shortest decimal: with a point, and with an
exponent only when the first digit stands for less than `10 ^ (-4)` or at least `10 ^ 16`.
`Binary64.fixed` writes a given number of places, the exact value rounded half to even.
-/

namespace Calculator

namespace Decimal

/-- One digit, the others after a point if there are any, and a signed exponent of two digits or more. -/
def scientific (d : Decimal) : String :=
  let exponent := d.pointPlace - 1
  let digits := Nat.toDigits 10 exponent.natAbs
  let mantissa := match d.significantDigits with
    | first :: second :: rest => first :: '.' :: second :: rest
    | short => short
  String.ofList (mantissa ++ 'e' :: (if exponent < 0 then '-' else '+') ::
    (List.replicate (2 - digits.length) '0' ++ digits))

/-- A decimal is written positionally when its leading digit stands at `10 ^ (-4)` or above and below
`10 ^ 16`. -/
def isPlain (d : Decimal) : Bool :=
  let exponent := d.pointPlace - 1
  decide (-4 ≤ exponent) && decide (exponent < 16)

def text (d : Decimal) : String :=
  if d.isPlain then (Numeral.ofDecimal d).pointed.text else d.scientific

end Decimal

def exponentValue : List Char → Int
  | '-' :: digits => -(Nat.ofDigitChars 10 digits 0 : Int)
  | _ :: digits => Nat.ofDigitChars 10 digits 0
  | [] => 0

def Numeral.ofScientific (text : List Char) : Numeral :=
  let mantissa := text.takeWhile (· != 'e')
  let exponent := exponentValue ((text.dropWhile (· != 'e')).drop 1)
  let whole := mantissa.takeWhile (· != '.')
  let fraction := (mantissa.dropWhile (· != '.')).drop 1
  ofDigits (whole ++ fraction) (whole.length + exponent)

/-- A text without the `.0` at its end, if there is one. -/
def cutPointZero (text : String) : String :=
  match text.toList.reverse with
  | '0' :: '.' :: rest => String.ofList rest.reverse
  | _ => text

namespace Binary64

def signText (negative : Bool) : String := if negative then "-" else ""

def text : Binary64 → String
  | nan => "nan"
  | infinite negative => signText negative ++ "inf"
  | finite negative ordinal => signText negative ++ (Decimal.shortest ordinal).text

/-- A magnitude with `places` digits after the point. A magnitude has at most 1074 of them; the rest
are zeros. -/
def fixedNumeral (places : Nat) (ordinal : Nat) : Numeral :=
  let exact := Nat.min places 1074
  let digits := Nat.toDigits 10 (roundDiv (units ordinal * 10 ^ exact) unitsPerOne)
  let padded := List.replicate (exact + 1 - digits.length) '0' ++ digits
  let cut := padded.length - exact
  ⟨padded.take cut, if places = 0 then none
    else some (padded.drop cut ++ List.replicate (places - exact) '0')⟩

def fixed (places : Nat) : Binary64 → String
  | nan => "nan"
  | infinite negative => signText negative ++ "inf"
  | finite negative ordinal => signText negative ++ (fixedNumeral places ordinal).text

end Binary64
end Calculator
