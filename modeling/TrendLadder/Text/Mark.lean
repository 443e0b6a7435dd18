/-!
# Byte order mark

A text may open with a byte order mark, which is no part of what it says.
-/

namespace TrendLadder

/-- The text without a byte order mark in front. -/
def skipMark : List Char → List Char
  | c :: rest => if c.toNat = 0xFEFF then rest else c :: rest
  | [] => []

end TrendLadder
