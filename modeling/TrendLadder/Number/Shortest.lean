import TrendLadder.Number.Decimal

/-!
# Shortest decimals

`Float.shortest` gives the decimal number with the fewest digits that reads back as a given
double, and of those the one nearest to it. The two neighbours of the double on the grid of `n`
digits are tried for `n = 1, 2, …, 17`; reading back is part of the test, so
`Decimal.toFloat (shortest tie x) = x` needs no argument about the width of a rounding interval.
-/

namespace TrendLadder

open Float.Model.UnpackedFloat (Sign)

/-- How a value halfway between two decimals is rounded. -/
inductive Tie where
  | toEven
  | up
deriving DecidableEq, Repr

namespace Tie

/-- Whether the upper neighbour of `lower` is taken at a tie. -/
def roundsUp (tie : Tie) (lower : Nat) : Bool :=
  match tie with
  | .toEven => lower % 2 = 1
  | .up => true

end Tie

/-- The nonzero magnitude `numerator / denominator`. -/
structure Ratio where
  numerator : Nat
  denominator : Nat
deriving Repr

namespace Ratio

/-- The magnitude `mantissa * 2 ^ exponent`. -/
def ofBinary (mantissa : Nat) (exponent : Int) : Ratio :=
  if 0 ≤ exponent then ⟨mantissa * Nat.pow 2 exponent.toNat, 1⟩
  else ⟨mantissa, Nat.pow 2 exponent.natAbs⟩

/-- The place `k` of the decimal point: `10 ^ (k - 1) ≤ r < 10 ^ k`. -/
def point (r : Ratio) : Int :=
  if r.denominator ≤ r.numerator then
    (Nat.toDigits 10 (r.numerator / r.denominator)).length
  else
    1 - (Nat.toDigits 10 ((r.denominator - 1) / r.numerator)).length

/-- The magnitude in units of `10 ^ unit`. -/
def scale (r : Ratio) (unit : Int) : Ratio :=
  if 0 ≤ unit then { r with denominator := r.denominator * Nat.pow 10 unit.toNat }
  else { r with numerator := r.numerator * Nat.pow 10 unit.natAbs }

/-- The quotient rounded to the nearest natural number. -/
def round (r : Ratio) (tie : Tie) : Nat :=
  let lower := r.numerator / r.denominator
  let rest := r.numerator % r.denominator
  match compare (2 * rest) r.denominator with
  | .lt => lower
  | .gt => lower + 1
  | .eq => if tie.roundsUp lower then lower + 1 else lower

end Ratio

namespace Decimal

/-- The exact decimal expansion of `± mantissa * 2 ^ exponent`. -/
def ofBinary (negative : Bool) (mantissa : Nat) (exponent : Int) : Decimal :=
  if 0 ≤ exponent then ⟨negative, mantissa * Nat.pow 2 exponent.toNat, 0⟩
  else ⟨negative, mantissa * Nat.pow 5 exponent.natAbs, exponent⟩

/-- The candidate on the grid of `10 ^ unit` that reads back as `x`, the nearer of two. -/
def onGrid (tie : Tie) (x : Float) (negative : Bool) (r : Ratio) (unit : Int) : Option Decimal :=
  let scaled := r.scale unit
  let near := scaled.round tie
  let lower := scaled.numerator / scaled.denominator
  let far := if near = lower then lower + 1 else lower
  let candidates := [near, far].map fun m => (Decimal.mk negative m unit).trim
  candidates.find? fun d => d.toFloat = x

/-- The first hit on the grids of `n + 1 - fuel, …, n` digits. -/
def firstHit (tie : Tie) (x : Float) (negative : Bool) (r : Ratio) (n : Nat) :
    Nat → Option Decimal
  | 0 => none
  | fuel + 1 =>
    match onGrid tie x negative r (r.point - (n - fuel : Nat)) with
    | some d => some d
    | none => firstHit tie x negative r n fuel

/-- The most digits that a double needs. -/
def maxDigits : Nat := 17

/-- The shortest decimal that reads back as the finite double `± mantissa * 2 ^ exponent`. -/
def shortestOfBinary (tie : Tie) (x : Float) (negative : Bool) (mantissa : Nat) (exponent : Int) :
    Decimal :=
  (firstHit tie x negative (.ofBinary mantissa exponent) maxDigits maxDigits).getD
    (ofBinary negative mantissa exponent).trim

end Decimal

/-- A double as text needs it: a number with its decimal digits, or one of the special values. -/
inductive Reading where
  | nan
  | infinity (negative : Bool)
  | decimal (d : Decimal)
deriving DecidableEq, Repr

/-- Whether the sign is a minus. -/
def isMinus : Sign → Bool
  | .negative => true
  | .positive => false

/-- The shortest decimal of a double, with `tie` deciding between two that are equally near. -/
def Reading.shortest (tie : Tie) (x : Float) : Reading :=
  match x.toModel.unpack with
  | .notANumber => .nan
  | .infinity s => .infinity (isMinus s)
  | .zero s => .decimal ⟨isMinus s, 0, 0⟩
  | .finite s m e _ => .decimal (.shortestOfBinary tie x (isMinus s) m e)

end TrendLadder
