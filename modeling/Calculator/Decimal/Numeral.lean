import Calculator.Decimal.Shortest

/-!
# Numerals

A number as it is spelled without sign and exponent: digits, and after an optional point more digits.
`ofDecimal` is the plain positional spelling of a decimal.
-/

namespace Calculator

def maxInteger : Nat := 2 ^ 63 - 1

structure Numeral where
  whole : List Char
  /-- The digits after the point; none when there is no point. -/
  fraction : Option (List Char)
deriving DecidableEq, Inhabited, Repr

namespace Numeral

def chars (n : Numeral) : List Char :=
  match n.fraction with
  | none => n.whole
  | some digits => n.whole ++ '.' :: digits

def text (n : Numeral) : String := String.ofList n.chars

def toDecimal (n : Numeral) : Decimal :=
  let after := n.fraction.getD []
  ⟨Nat.ofDigitChars 10 (n.whole ++ after) 0, -(after.length : Int)⟩

def value (n : Numeral) : Binary64 := n.toDecimal.toBinary64

/-- Digits with a point behind the first `place` of them, zeros being added where they do not reach. A whole
number is spelled without a point. -/
def ofDigits (digits : List Char) (place : Int) : Numeral :=
  if place ≤ 0 then ⟨['0'], some (List.replicate (-place).toNat '0' ++ digits)⟩
  else if digits.length ≤ place.toNat then
    ⟨digits ++ List.replicate (place.toNat - digits.length) '0', none⟩
  else ⟨digits.take place.toNat, some (digits.drop place.toNat)⟩

def ofDecimal (d : Decimal) : Numeral := ofDigits d.significantDigits d.pointPlace

def pointed (n : Numeral) : Numeral := ⟨n.whole, some (n.fraction.getD ['0'])⟩

end Numeral
end Calculator
