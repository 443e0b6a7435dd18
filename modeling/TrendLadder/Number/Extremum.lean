/-!
# Greater and smaller doubles

The greater and the smaller of two doubles where a NaN gives way to a number. Of two equal
operands, such as the two zeros, the first is taken.
-/

namespace TrendLadder

/-- The greater operand; a NaN gives way to the other one. -/
def maxNum (a b : Float) : Float :=
  if a.isNaN then b else if a < b then b else a

/-- The smaller operand; a NaN gives way to the other one. -/
def minNum (a b : Float) : Float :=
  if a.isNaN then b else if b < a then b else a

end TrendLadder
