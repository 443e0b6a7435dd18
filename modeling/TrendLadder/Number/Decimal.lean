/-!
# Decimal numbers

A decimal number is a sign, a natural significand and a power of ten. `Decimal.toFloat` reads it
as the nearest double, `Decimal.trim` drops the trailing zeros of the significand.
-/

namespace TrendLadder

/-- The number `± significand * 10 ^ exponent`. -/
structure Decimal where
  negative : Bool
  significand : Nat
  exponent : Int
deriving DecidableEq, Repr

namespace Decimal

/-- The double nearest to the decimal number; a negative zero keeps its sign. -/
def toFloat (d : Decimal) : Float :=
  let magnitude := Float.ofScientific d.significand (d.exponent < 0) d.exponent.natAbs
  if d.negative then -magnitude else magnitude

/-- Moves the trailing zeros of a significand into its exponent, at most `fuel` of them. -/
def trimSignificand : Nat → Nat → Int → Nat × Int
  | 0, m, e => (m, e)
  | fuel + 1, m, e =>
    if m ≠ 0 ∧ m % 10 = 0 then trimSignificand fuel (m / 10) (e + 1) else (m, e)

/-- The same number with the shortest significand. -/
def trim (d : Decimal) : Decimal :=
  let (m, e) := trimSignificand (Nat.toDigits 10 d.significand).length d.significand d.exponent
  { d with significand := m, exponent := e }

def digits (d : Decimal) : List Char := Nat.toDigits 10 d.significand

/-- The place of the decimal point, counted from the first digit. -/
def point (d : Decimal) : Int := d.digits.length + d.exponent

end Decimal

end TrendLadder
