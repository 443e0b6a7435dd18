import TrendLadder.Number.Shortest

/-!
# Written doubles

A `Layout` says how the digits of a double become text: which numbers are written positionally,
whether a whole number keeps a point, how an exponent is signed, and the names of the special
values. `Layout.write` applies one to a double, `fixed` writes a number of places.
-/

namespace TrendLadder

/-- The decisions of one text form of doubles. -/
structure Layout where
  /-- Points below this place are written with an exponent; `none` for no limit. -/
  lowest : Option Int
  /-- Points above this place are written with an exponent; `none` for no limit. -/
  highest : Option Int
  /-- What follows a whole number that is written positionally. -/
  wholeEnd : List Char
  /-- What precedes the digits of a positive exponent. -/
  positiveExponent : List Char
  tie : Tie
  nan : List Char
  infinity : List Char

namespace Layout

/-- The digits with a point after `point` of them, padded with zeros on either side. -/
def positional (wholeEnd digits : List Char) (point : Int) : List Char :=
  if point ≤ 0 then
    '0' :: '.' :: (List.replicate point.natAbs '0' ++ digits)
  else if digits.length ≤ point.toNat then
    digits ++ List.replicate (point.toNat - digits.length) '0' ++ wholeEnd
  else
    digits.take point.toNat ++ '.' :: digits.drop point.toNat

/-- One digit, a point before the others if there are any, and the exponent. -/
def scientific (positiveExponent digits : List Char) (point : Int) : List Char :=
  let mantissa := match digits with
    | [] => []
    | [d] => [d]
    | d :: rest => d :: '.' :: rest
  let e := point - 1
  let sign := if e < 0 then ['-'] else positiveExponent
  mantissa ++ 'e' :: (sign ++ Nat.toDigits 10 e.natAbs)

/-- Whether numbers with this place of the point are written positionally. -/
def isPositional (layout : Layout) (point : Int) : Bool :=
  layout.lowest.all (· ≤ point) && layout.highest.all (point ≤ ·)

/-- The text of a nonnegative decimal number with a trimmed significand. -/
def writeDecimal (layout : Layout) (d : Decimal) : List Char :=
  if d.significand = 0 then '0' :: layout.wholeEnd
  else if layout.isPositional d.point then positional layout.wholeEnd d.digits d.point
  else scientific layout.positiveExponent d.digits d.point

/-- A minus sign for the negative. -/
def sign (negative : Bool) : List Char := if negative then ['-'] else []

/-- The text of a double. -/
def write (layout : Layout) (x : Float) : List Char :=
  match Reading.shortest layout.tie x with
  | .nan => layout.nan
  | .infinity negative => sign negative ++ layout.infinity
  | .decimal d => sign d.negative ++ layout.writeDecimal d

/-- Messages write the digits alone and never an exponent. -/
def message : Layout where
  lowest := none
  highest := none
  wholeEnd := []
  positiveExponent := []
  tie := .up
  nan := ['N', 'a', 'N']
  infinity := ['i', 'n', 'f']

/-- Listings keep the point of whole numbers and give very large and small ones an exponent. -/
def listing : Layout :=
  { message with lowest := some (-3), highest := some 16, wholeEnd := ['.', '0'] }

/-- Canonical documents keep the point of whole numbers, sign every exponent and break ties to
even. They have no special values. -/
def canonical : Layout where
  lowest := some (-4)
  highest := some 16
  wholeEnd := ['.', '0']
  positiveExponent := ['+']
  tie := .toEven
  nan := ['n', 'u', 'l', 'l']
  infinity := ['n', 'u', 'l', 'l']

/-- Configuration files keep the point of whole numbers and never use an exponent. -/
def configuration : Layout :=
  { message with wholeEnd := ['.', '0'], nan := ['n', 'a', 'n'] }

end Layout

/-- The magnitude with `places` digits after the point, the exact value rounded to the nearest
such number and a tie to the even one. -/
def fixedMagnitude (places : Nat) (mantissa : Nat) (exponent : Int) : List Char :=
  let units := ((Ratio.ofBinary mantissa exponent).scale (-places)).round .toEven
  let digits := Nat.toDigits 10 units
  let padded := List.replicate (places + 1 - digits.length) '0' ++ digits
  let whole := padded.length - places
  padded.take whole ++ (if places = 0 then [] else '.' :: padded.drop whole)

/-- The text of a double with `places` digits after the point. -/
def fixed (places : Nat) (x : Float) : List Char :=
  match x.toModel.unpack with
  | .notANumber => Layout.message.nan
  | .infinity s => Layout.sign (isMinus s) ++ Layout.message.infinity
  | .zero s => Layout.sign (isMinus s) ++ fixedMagnitude places 0 0
  | .finite s m e _ => Layout.sign (isMinus s) ++ fixedMagnitude places m e

namespace Number

/-- A double as messages write it. -/
def text (x : Float) : String := String.ofList (Layout.message.write x)

/-- A double as listings write it. -/
def listed (x : Float) : String := String.ofList (Layout.listing.write x)

/-- A double with a fixed number of places. -/
def rounded (places : Nat) (x : Float) : String := String.ofList (fixed places x)

end Number

end TrendLadder
