import TrendLadder.Document.Value
import TrendLadder.Number.Literal

/-!
# Reading JSON

`Json.read` reads a text that is one JSON value, blanks around it allowed. Values that are well
formed and cannot be named, such as a number beyond the doubles, are read as
`Value.unreadable`; a record with a name of that kind is unreadable as a whole.
-/

namespace TrendLadder

namespace Json

/-- The blanks between tokens. -/
def isSpace (c : Char) : Bool := c = ' ' || c = '\n' || c = '\t' || c = '\r'

/-- The text without leading blanks. -/
def skipSpace (s : List Char) : List Char := s.dropWhile isSpace

/-! ## Texts -/

/-- The value of four hexadecimal digits. -/
def hex4? : List Char → Option (Nat × List Char)
  | a :: b :: c :: d :: rest => (natOfDigits? 16 [a, b, c, d]).map fun n => (n, rest)
  | _ => none

/-- Whether a code unit opens a surrogate pair. -/
def isHigh (n : Nat) : Bool := 0xD800 ≤ n && n < 0xDC00

/-- Whether a code unit closes a surrogate pair. -/
def isLow (n : Nat) : Bool := 0xDC00 ≤ n && n < 0xE000

/-- The character of a surrogate pair. -/
def ofPair (high low : Nat) : Char :=
  Char.ofNat (0x10000 + (high - 0xD800) * 0x400 + (low - 0xDC00))

/-- The character that a letter stands for after a backslash. -/
def escapes : List (Char × Char) :=
  [('"', '"'), ('\\', '\\'), ('/', '/'), ('b', '\x08'), ('f', '\x0c'), ('n', '\n'), ('r', '\r'),
    ('t', '\t')]

/-- The character after the mark of a code unit, `none` for half a surrogate pair, and the rest.
A high half takes the escape after it along if that is a low one. -/
def unit? (s : List Char) : Option (Option Char × List Char) := do
  let (n, rest) ← hex4? s
  if isHigh n then
    match rest with
    | '\\' :: 'u' :: more =>
      let (m, rest) ← hex4? more
      return (if isLow m then some (ofPair n m) else none, rest)
    | _ => return (none, rest)
  else return (if isLow n then none else some (Char.ofNat n), rest)

/-- The body of a text up to its closing quote, after the characters `seen` in reverse order. The
characters are `none` as soon as one of them is half a surrogate pair. -/
def textBody : Nat → Option (List Char) → List Char → Option (Option (List Char) × List Char)
  | 0, _, _ => none
  | _, _, [] => none
  | fuel + 1, seen, c :: rest =>
    if c = '"' then some (seen.map List.reverse, rest)
    else if c = '\\' then
      match rest with
      | 'u' :: more =>
        match unit? more with
        | some (first, more) => textBody fuel (seen.bind fun cs => first.map (· :: cs)) more
        | none => none
      | e :: more =>
        match escapes.lookup e with
        | some first => textBody fuel (seen.map (first :: ·)) more
        | none => none
      | [] => none
    else if c.toNat < 0x20 then none
    else textBody fuel (seen.map (c :: ·)) rest

/-! ## Numbers -/

/-- An exponent part, zero where there is none. -/
def exponentPart (s : List Char) : Option (Bool × Int × List Char) :=
  match s with
  | c :: rest =>
    if c = 'e' ∨ c = 'E' then
      let (negative, body) := Literal.sign rest
      let (digits, rest) := takeDigits body
      if digits = [] then none
      else
        let n : Int := natOfRun digits
        some (true, if negative then -n else n, rest)
    else some (false, 0, s)
  | [] => some (false, 0, [])

/-- A fraction part: the digits after a point, none where there is no point. -/
def fractionPart (s : List Char) : Option (Bool × List Char × List Char) :=
  match s with
  | '.' :: rest =>
    let (digits, rest) := takeDigits rest
    if digits = [] then none else some (true, digits, rest)
  | _ => some (false, [], s)

/-- The integers that are kept as such; the negative zero is not one of them. -/
def isExact (negative : Bool) (n : Nat) : Bool :=
  if negative then n ≠ 0 && n ≤ Nat.pow 2 63 else n < Nat.pow 2 64

/-- The value of a decimal literal. -/
def ofDecimal (d : Decimal) : Value :=
  let x := d.toFloat
  if x.isFinite then .real x else .unreadable

/-- A number: an optional minus, digits without a leading zero, a fraction and an exponent. -/
def number? (s : List Char) : Option (Value × List Char) := do
  let (negative, body) := match s with
    | '-' :: rest => (true, rest)
    | _ => (false, s)
  let (whole, rest) := takeDigits body
  if whole = [] ∨ (whole.head? = some '0' ∧ whole.length ≠ 1) then none
  let (hasPoint, fraction, rest) ← fractionPart rest
  let (hasExponent, exponent, rest) ← exponentPart rest
  let n := natOfRun whole
  if !hasPoint && !hasExponent && isExact negative n then
    return (.int (if negative then -(n : Int) else n), rest)
  else
    return (ofDecimal (.ofParts negative whole fraction exponent), rest)

/-! ## Values -/

/-- The constants of the format. -/
def word? (s : List Char) : Option (Value × List Char) :=
  if s.take 4 = ['n', 'u', 'l', 'l'] then some (.null, s.drop 4)
  else if s.take 4 = ['t', 'r', 'u', 'e'] then some (.bool true, s.drop 4)
  else if s.take 5 = ['f', 'a', 'l', 's', 'e'] then some (.bool false, s.drop 5)
  else none

/-- Containers within containers that can still be read. -/
def maxDepth : Nat := 127

/-- A container that is too deep is unreadable. -/
def bounded (depth : Nat) (v : Value) : Value := if depth = 0 then .unreadable else v

/-- A record, unreadable if one of its names is. -/
def recordOf (fields : Option (List (String × Value))) : Value :=
  match fields with
  | some fields => .record fields
  | none => .unreadable

mutual

/-- One value and the text after it. The fuel bounds the number of characters read, `depth` the
containers that may still be opened. -/
def value? : Nat → Nat → List Char → Option (Value × List Char)
  | 0, _, _ => none
  | fuel + 1, depth, s =>
    match skipSpace s with
    | '"' :: rest => do
      let (body, rest) ← textBody fuel (some []) rest
      return (match body with
        | some cs => .text (String.ofList cs)
        | none => .unreadable, rest)
    | '[' :: rest =>
      match skipSpace rest with
      | ']' :: rest => some (bounded depth (.list true []), rest)
      | rest => do
        let (items, rest) ← items? fuel (depth - 1) rest
        return (bounded depth (.list true items), rest)
    | '{' :: rest =>
      match skipSpace rest with
      | '}' :: rest => some (bounded depth (.record []), rest)
      | rest => do
        let (fields, rest) ← fields? fuel (depth - 1) rest
        return (bounded depth (recordOf fields), rest)
    | c :: rest => if c = '-' ∨ c.isDigit then number? (c :: rest) else word? (c :: rest)
    | [] => none

/-- The items of a sequence up to its closing bracket. -/
def items? : Nat → Nat → List Char → Option (List Value × List Char)
  | 0, _, _ => none
  | fuel + 1, depth, s => do
    let (v, rest) ← value? fuel depth s
    match skipSpace rest with
    | ',' :: rest =>
      let (vs, rest) ← items? fuel depth rest
      return (v :: vs, rest)
    | ']' :: rest => return ([v], rest)
    | _ => none

/-- The fields of a record up to its closing brace, `none` as soon as a name is unreadable. -/
def fields? : Nat → Nat → List Char → Option (Option (List (String × Value)) × List Char)
  | 0, _, _ => none
  | fuel + 1, depth, s =>
    match skipSpace s with
    | '"' :: rest => do
      let (name, rest) ← textBody fuel (some []) rest
      match skipSpace rest with
      | ':' :: rest =>
        let (v, rest) ← value? fuel depth rest
        let field := name.map fun cs => (String.ofList cs, v)
        match skipSpace rest with
        | ',' :: rest =>
          let (fields, rest) ← fields? fuel depth rest
          return (do return (← field) :: (← fields), rest)
        | '}' :: rest => return (field.map ([·]), rest)
        | _ => none
      | _ => none
    | _ => none

end

/-- The value that a text spells. -/
def read (s : String) : Option Value := do
  let cs := s.toList
  let (v, rest) ← value? (2 * cs.length + 2) maxDepth cs
  if skipSpace rest = [] then return v else none

end Json

end TrendLadder
