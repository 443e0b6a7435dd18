import TrendLadder.Number.Decimal
import TrendLadder.Text.Digits

/-!
# Number literals

A decimal literal is a run of digits, perhaps with a point inside or at either end, and perhaps an
exponent. `Decimal.ofParts` gives the number that the runs spell; `Literal.float?` and
`Literal.nat?` read the plain number fields of tables and arguments.
-/

namespace TrendLadder

/-- The number spelled by the digits before and after a point and by an exponent. -/
def Decimal.ofParts (negative : Bool) (whole fraction : List Char) (exponent : Int) : Decimal :=
  ⟨negative, natOfRun (whole ++ fraction), exponent - fraction.length⟩

namespace Literal

/-- A sign at the front of a text, `true` for a minus. -/
def sign : List Char → Bool × List Char
  | '-' :: rest => (true, rest)
  | '+' :: rest => (false, rest)
  | rest => (false, rest)

/-- The exponent after its mark: an optional sign and at least one digit, up to the end. -/
def exponent? (s : List Char) : Option Int :=
  let (negative, body) := sign s
  let (digits, rest) := takeDigits body
  if digits = [] ∨ rest ≠ [] then none
  else some (if negative then -(natOfRun digits : Int) else natOfRun digits)

/-- A decimal literal without its sign: digits on at least one side of an optional point. -/
def decimal? (negative : Bool) (s : List Char) : Option Decimal :=
  let (whole, afterWhole) := takeDigits s
  let (fraction, afterFraction) := match afterWhole with
    | '.' :: rest => takeDigits rest
    | rest => ([], rest)
  if whole = [] ∧ fraction = [] then none
  else match afterFraction with
    | [] => some (.ofParts negative whole fraction 0)
    | c :: rest =>
      if c = 'e' ∨ c = 'E' then (exponent? rest).map (.ofParts negative whole fraction)
      else none

/-- The names of the special values, in any case. -/
def special? (s : List Char) : Option Float :=
  let name := String.ofList (s.map Char.toLower)
  if name = "nan" then some (0.0 / 0.0)
  else if name = "inf" ∨ name = "infinity" then some (1.0 / 0.0)
  else none

/-- A double: an optional sign before a decimal literal or the name of a special value. -/
def float? (s : String) : Option Float :=
  let (negative, body) := sign s.toList
  match special? body with
  | some x => some (if negative then -x else x)
  | none => (decimal? negative body).map Decimal.toFloat

/-- A natural number below `2 ^ width`: an optional plus sign and decimal digits, or hexadecimal
digits after `0x`. -/
def nat? (width : Nat) (s : String) : Option Nat :=
  let (base, body) := match s.toList with
    | '0' :: 'x' :: rest => (16, rest)
    | cs => (10, cs)
  let digits := match body with
    | '+' :: rest => rest
    | cs => cs
  (natOfDigits? base digits).filter (· < Nat.pow 2 width)

end Literal

end TrendLadder
