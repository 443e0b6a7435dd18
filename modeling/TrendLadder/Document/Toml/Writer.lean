import TrendLadder.Document.Json.Writer
import TrendLadder.Document.Toml.Lexis
import TrendLadder.Document.Toml.Scalar

/-!
# Writing TOML

`Toml.write` gives the text of a record: a block of `key = value` lines for the record itself and
one for each table inside it, under a header with the dotted name of the table. Nulls are left
out, and so is the header of a table that holds only tables.
-/

namespace TrendLadder

namespace Toml

/-- A name that needs no quotes. -/
def isBareKey (name : String) : Bool := name ≠ "" && name.toList.all isBareChar

/-- A key, quoted where it is not bare. -/
def writeKey (name : String) : List Char :=
  if isBareKey name then name.toList else Json.writeText name

/-- A value that stands in an array. -/
def writeItem : Value → Option (List Char)
  | .bool true => some ['t', 'r', 'u', 'e']
  | .bool false => some ['f', 'a', 'l', 's', 'e']
  | .int n => if inRange n then some (Json.writeInt n) else none
  | .real x => some (Layout.configuration.write x)
  | .text s => some (Json.writeText s)
  | _ => none

/-- A line inside an array. -/
def writeItemLine (item : List Char) : List Char :=
  ' ' :: ' ' :: ' ' :: ' ' :: (item ++ [',', '\n'])

/-- An array: on one line with less than two items, else with a line for each. -/
def writeArray (items : List (List Char)) : List Char :=
  match items with
  | [] => ['[', ']']
  | [item] => '[' :: (item ++ [']'])
  | items => '[' :: '\n' :: (items.flatMap writeItemLine ++ [']'])

/-- A value after an equals sign. -/
def writeLineValue : Value → Option (List Char)
  | .list _ items => (items.mapM writeItem).map writeArray
  | v => writeItem v

/-- The lines of a record: one for each field that is neither a table nor null. -/
def writeLines : List (String × Value) → Option (List Char)
  | [] => some []
  | (name, v) :: rest =>
    match v with
    | .record _ | .null => writeLines rest
    | v => do
      let value ← writeLineValue v
      return writeKey name ++ ' ' :: '=' :: ' ' :: (value ++ '\n' :: (← writeLines rest))

/-- A header with the dotted name of a table. -/
def writeHeader (path : List String) : List Char :=
  '[' :: ((path.map writeKey).intersperse ['.']).flatten ++ [']', '\n']

mutual

/-- The blocks of a table and of the tables inside it. -/
def blocks (path : List String) : Value → Option (List (List Char))
  | .record fields => do
    let lines ← writeLines fields
    let own :=
      if path = [] then (if lines = [] then [] else [lines])
      else if lines = [] ∧ fields ≠ [] then []
      else [writeHeader path ++ lines]
    return own ++ (← fieldBlocks path fields)
  | _ => some []

/-- The blocks of the tables among the fields of a record. -/
def fieldBlocks (path : List String) : List (String × Value) → Option (List (List Char))
  | [] => some []
  | (name, v) :: rest => do
    return (← blocks (path ++ [name]) v) ++ (← fieldBlocks path rest)

end

/-- The text of a record, if all its values have a written form. -/
def write (v : Value) : Option String :=
  (blocks [] v).map fun bs => String.ofList (bs.intersperse ['\n']).flatten

end Toml

end TrendLadder
