/-!
# Listings

Items in parentheses with commas between them. A single item keeps a comma behind it, which tells the
listing from a parenthesis around the item.
-/

namespace Calculator.Text

def listing : List String → String
  | [] => "()"
  | [item] => "(" ++ item ++ ",)"
  | items => "(" ++ String.intercalate ", " items ++ ")"

end Calculator.Text
