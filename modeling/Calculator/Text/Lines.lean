import Calculator.Text.Blank

/-!
# Lines

A line ends at a newline, at a carriage return, or at both in this order; what follows the last end is
a line too unless it is empty.
-/

namespace Calculator.Text

/-- Goes on splitting a text. `ended` holds the lines before, the latest first, and `begun` the
characters of the line that has begun, reversed. -/
def linesFrom (ended : List (List Char)) (begun : List Char) : List Char → List (List Char)
  | [] => (if begun.isEmpty then ended else begun.reverse :: ended).reverse
  | '\r' :: '\n' :: rest => linesFrom (begun.reverse :: ended) [] rest
  | c :: rest =>
    if c = '\n' ∨ c = '\r' then linesFrom (begun.reverse :: ended) [] rest
    else linesFrom ended (c :: begun) rest

def lines (s : List Char) : List (List Char) := linesFrom [] [] s

def strippedLines (s : List Char) : List (List Char) :=
  ((lines s).map strip).filter (!·.isEmpty)

end Calculator.Text
