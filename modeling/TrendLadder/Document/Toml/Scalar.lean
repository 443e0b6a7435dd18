import TrendLadder.Document.Value
import TrendLadder.Time.Date
import TrendLadder.Text.Scan

/-!
# Scalars of TOML

The values that a TOML document writes as one bare token: constants, integers, floats, dates and
times. `scalar?` classifies a whole token.
-/

namespace TrendLadder

namespace Toml

open Scan

/-- The characters of a bare token. -/
def isTokenChar (c : Char) : Bool :=
  c.isAlphanum || c = '+' || c = '-' || c = '_' || c = '.' || c = ':'

/-- The token without its underscores, each of which has to stand between two digits of the
base. -/
def stripUnderscores (base : Nat) : Bool → List Char → Option (List Char)
  | _, [] => some []
  | afterDigit, '_' :: c :: rest =>
    if afterDigit && isDigitOf base c then (stripUnderscores base true rest).map (c :: ·) else none
  | _, c :: rest => (stripUnderscores base (isDigitOf base c) rest).map (c :: ·)

/-- The integers of the format. -/
def inRange (n : Int) : Bool := -Int.pow 2 63 ≤ n && n < Int.pow 2 63

/-- An integer of the format. -/
def int? (n : Int) : Option Value := if inRange n then some (.int n) else none

/-- An integer with the mark of its base. -/
def basedInteger? (base : Nat) (digits : List Char) : Option Value := do
  int? (← natOfDigits? base (← stripUnderscores base false digits))

/-- Whether a run of digits has no leading zero. -/
def isPlain (digits : List Char) : Bool :=
  digits ≠ [] && (digits.head? ≠ some '0' || digits.length = 1)

/-- A decimal integer or a float: digits without a leading zero, then a fraction or an exponent
for a float. A float beyond the largest double is refused. -/
def number? (token : List Char) : Option Value := do
  let (negative, body) := Literal.sign (← stripUnderscores 10 false token)
  let (whole, rest) := takeDigits body
  if !isPlain whole then none
  match rest with
  | [] => int? (if negative then -(natOfRun whole : Int) else natOfRun whole)
  | c :: more =>
    let (fraction, afterFraction) := if c = '.' then takeDigits more else ([], rest)
    if c = '.' ∧ fraction = [] then none
    let exponent ← match afterFraction with
      | [] => some 0
      | e :: digits => if e = 'e' ∨ e = 'E' then Literal.exponent? digits else none
    let x := (Decimal.ofParts negative whole fraction exponent).toFloat
    if x = 1.0 / 0.0 then none else some (.real x)

/-- The infinity or the NaN, with an optional sign. -/
def special? (token : List Char) : Option Value :=
  let (negative, body) := Literal.sign token
  let signed (x : Float) : Value := .real (if negative then -x else x)
  if body = ['i', 'n', 'f'] then some (signed (1.0 / 0.0))
  else if body = ['n', 'a', 'n'] then some (signed (0.0 / 0.0))
  else none

/-! ## Dates and times -/

/-- A number of exactly `count` digits and at most `most`. -/
def scanBounded (count most : Nat) : Scan Nat := do
  let n := natOfRun (← exactly count)
  guarded (n ≤ most)
  return n

/-- A date that exists. -/
def scanDate : Scan Unit := do
  let year ← scanBounded 4 9999
  expect '-'
  let month ← scanBounded 2 12
  expect '-'
  let day ← scanBounded 2 31
  guarded (Date.mk year month day).isValid

/-- A time of day. -/
def scanTime : Scan Unit := do
  let _ ← scanBounded 2 23
  expect ':'
  let _ ← scanBounded 2 59
  expect ':'
  let _ ← scanBounded 2 60
  if ← accept '.' then
    let ds ← span Char.isDigit
    guarded (ds ≠ [])

/-- An offset from universal time. -/
def scanOffset : Scan Unit := do
  let mark ← one fun c => c = 'Z' || c = 'z' || c = '+' || c = '-'
  if mark = '+' ∨ mark = '-' then
    let _ ← scanBounded 2 23
    expect ':'
    let _ ← scanBounded 2 59

/-- A date, a time of day, or both with an optional offset. -/
def scanMoment : Scan Unit := do
  let s ← get
  match scanTime s with
  | some ((), rest) => set rest
  | none =>
    scanDate
    if (← get) ≠ [] then
      let _ ← one fun c => c = 'T' || c = 't' || c = ' '
      scanTime
      if (← get) ≠ [] then scanOffset
  atEnd

/-- The name under which a moment stands in its record. -/
def momentName : String := "moment"

/-- A moment is a record of its text, so that it fits no scalar type. -/
def moment? (token : List Char) : Option Value :=
  (scanMoment token).map fun _ => .record [(momentName, .text (String.ofList token))]

/-- Whether a token is a date, which a blank and a time of day may follow. -/
def isDate (token : List Char) : Bool := ((do scanDate; atEnd : Scan Unit) token).isSome

/-- The value of a bare token. -/
def scalar? (token : List Char) : Option Value :=
  match token with
  | ['t', 'r', 'u', 'e'] => some (.bool true)
  | ['f', 'a', 'l', 's', 'e'] => some (.bool false)
  | '0' :: 'x' :: digits => basedInteger? 16 digits
  | '0' :: 'o' :: digits => basedInteger? 8 digits
  | '0' :: 'b' :: digits => basedInteger? 2 digits
  | _ => (special? token).or ((number? token).or (moment? token))

end Toml

end TrendLadder
