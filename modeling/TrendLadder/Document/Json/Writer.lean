import TrendLadder.Document.Value
import TrendLadder.Number.Layout

/-!
# Writing JSON

`Json.write` gives the canonical text of a value: no blanks, fields in order, doubles as
`Layout.canonical` says and null for what is not a number.
-/

namespace TrendLadder

namespace Json

/-- A digit of base sixteen. -/
def hexDigit (n : Nat) : Char := Nat.digitChar n

/-- A character inside a text: quotes, backslashes and control characters are escaped. -/
def writeChar (c : Char) : List Char :=
  if c = '"' then ['\\', '"']
  else if c = '\\' then ['\\', '\\']
  else if c = '\x08' then ['\\', 'b']
  else if c = '\x0c' then ['\\', 'f']
  else if c = '\n' then ['\\', 'n']
  else if c = '\r' then ['\\', 'r']
  else if c = '\t' then ['\\', 't']
  else if c.toNat < 0x20 then
    ['\\', 'u', '0', '0', hexDigit (c.toNat / 16), hexDigit (c.toNat % 16)]
  else [c]

/-- A text in quotes. -/
def writeText (s : String) : List Char := '"' :: (s.toList.flatMap writeChar ++ ['"'])

/-- An integer. -/
def writeInt (n : Int) : List Char := Layout.sign (n < 0) ++ Nat.toDigits 10 n.natAbs

mutual

/-- The text of a value. -/
def writeValue : Value → List Char
  | .null | .unreadable => ['n', 'u', 'l', 'l']
  | .bool true => ['t', 'r', 'u', 'e']
  | .bool false => ['f', 'a', 'l', 's', 'e']
  | .int n => writeInt n
  | .real x => if x.isFinite then Layout.canonical.write x else ['n', 'u', 'l', 'l']
  | .text s => writeText s
  | .list _ items => '[' :: (writeItems items ++ [']'])
  | .record fields => '\x7b' :: (writeFields fields ++ ['\x7d'])

/-- Items with commas between them. -/
def writeItems : List Value → List Char
  | [] => []
  | [v] => writeValue v
  | v :: vs => writeValue v ++ ',' :: writeItems vs

/-- Fields with commas between them. -/
def writeFields : List (String × Value) → List Char
  | [] => []
  | [(name, v)] => writeText name ++ ':' :: writeValue v
  | (name, v) :: fs => writeText name ++ ':' :: (writeValue v ++ ',' :: writeFields fs)

end

/-- The canonical text of a value. -/
def write (v : Value) : String := String.ofList (writeValue v)

end Json

end TrendLadder
