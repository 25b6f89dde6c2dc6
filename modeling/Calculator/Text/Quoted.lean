import Calculator.Text.Printable

/-!
# Quoted text

A text between quotes on one line of printable characters. Apostrophes serve as quotes unless the text
holds one and holds no double quote. A quote or backslash inside is escaped with a backslash, tab, newline
and carriage return have escapes of their own, and other unprintable characters are given by their number.
-/

namespace Calculator.Text

def hex (width n : Nat) : List Char :=
  let digits := Nat.toDigits 16 n
  List.replicate (width - digits.length) '0' ++ digits

def quoteFor (s : List Char) : Char :=
  if s.contains '\'' && !s.contains '"' then '"' else '\''

def escape (quote c : Char) : List Char :=
  if c = quote ∨ c = '\\' then ['\\', c]
  else if c = '\t' then ['\\', 't']
  else if c = '\n' then ['\\', 'n']
  else if c = '\r' then ['\\', 'r']
  else if isPrintable c then [c]
  else if c.toNat < 0x100 then '\\' :: 'x' :: hex 2 c.toNat
  else if c.toNat < 0x10000 then '\\' :: 'u' :: hex 4 c.toNat
  else '\\' :: 'U' :: hex 8 c.toNat

def quotedChars (s : List Char) : List Char :=
  let quote := quoteFor s
  quote :: (s.flatMap (escape quote) ++ [quote])

def quoted (s : String) : String := String.ofList (quotedChars s.toList)

end Calculator.Text
