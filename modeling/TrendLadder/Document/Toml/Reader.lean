import TrendLadder.Document.Toml.Lexis
import TrendLadder.Document.Toml.Scalar
import TrendLadder.Document.Toml.Table
import TrendLadder.Text.Mark

/-!
# Reading TOML

`Toml.read` reads a TOML document as one record. Lines are collected into sections, which
`Section.build` puts together.
-/

namespace TrendLadder

namespace Toml

/-- Containers may be nested to less than this depth. -/
def maxDepth : Nat := 80

/-- The path and the name of a key. -/
def splitKey? (names : List String) : Option (List String × String) :=
  if names.length < maxParts then names.getLast?.map fun name => (names.dropLast, name) else none

/-- A bare token and the rest. A date takes a time of day along that follows it after a blank. -/
def token (s : List Char) : List Char × List Char :=
  let word := s.takeWhile isTokenChar
  let rest := s.dropWhile isTokenChar
  match rest with
  | ' ' :: c :: more =>
    if c.isDigit && isDate word then
      (word ++ ' ' :: (c :: more).takeWhile isTokenChar, (c :: more).dropWhile isTokenChar)
    else (word, rest)
  | _ => (word, rest)

mutual

/-- A value and the rest. -/
def value? : Nat → Nat → List Char → Option (Value × List Char)
  | 0, _, _ => none
  | fuel + 1, depth, s =>
    match s with
    | '[' :: rest => do
      if maxDepth ≤ depth + 1 then none
      let (items, rest) ← items? fuel (depth + 1) rest
      return (.list false items, rest)
    | '\x7b' :: rest => do
      if maxDepth ≤ depth + 1 then none
      match skipBlank rest with
      | '\x7d' :: rest => return (.record [], rest)
      | rest =>
        let (assignments, rest) ← pairs? fuel (depth + 1) rest
        return (← Assignment.toRecord assignments, rest)
    | c :: _ =>
      if c = '"' ∨ c = '\'' then do
        let (body, rest) ← text? fuel s
        return (.text (String.ofList body), rest)
      else do
        let (word, rest) := token s
        return (← scalar? word, rest)
    | [] => none

/-- The items of an array up to its closing bracket. -/
def items? : Nat → Nat → List Char → Option (List Value × List Char)
  | 0, _, _ => none
  | fuel + 1, depth, s =>
    match skipLines fuel s with
    | ']' :: rest => some ([], rest)
    | s => do
      let (v, rest) ← value? fuel depth s
      match skipLines fuel rest with
      | ',' :: rest =>
        let (vs, rest) ← items? fuel depth rest
        return (v :: vs, rest)
      | ']' :: rest => return ([v], rest)
      | _ => none

/-- The assignments of an inline table up to its closing brace. -/
def pairs? : Nat → Nat → List Char → Option (List Assignment × List Char)
  | 0, _, _ => none
  | fuel + 1, depth, s => do
    let (a, rest) ← assignment? fuel depth s
    match skipBlank rest with
    | ',' :: rest =>
      let (as, rest) ← pairs? fuel depth rest
      return (a :: as, rest)
    | '\x7d' :: rest => return ([a], rest)
    | _ => none

/-- A key, an equals sign and a value. -/
def assignment? : Nat → Nat → List Char → Option (Assignment × List Char)
  | 0, _, _ => none
  | fuel + 1, depth, s => do
    let (names, rest) ← key? fuel s
    let (path, name) ← splitKey? names
    match skipBlank rest with
    | '=' :: rest =>
      let (v, rest) ← value? fuel depth (skipBlank rest)
      return (⟨path, name, v⟩, rest)
    | _ => none

end

/-- The header of a section and the rest after its line. -/
def header? (fuel : Nat) (s : List Char) : Option (Header × List Char) := do
  match s with
  | '[' :: '[' :: rest =>
    let (names, rest) ← key? fuel rest
    let (path, name) ← splitKey? names
    match skipBlank rest with
    | ']' :: ']' :: rest => return (.item path name, ← lineEnd? rest)
    | _ => none
  | '[' :: rest =>
    let (names, rest) ← key? fuel rest
    let (path, name) ← splitKey? names
    match skipBlank rest with
    | ']' :: rest => return (.table path name, ← lineEnd? rest)
    | _ => none
  | _ => none

/-- The assignments and blank lines up to the next header, and the rest from there. -/
def body? : Nat → List Char → Option (List Assignment × List Char)
  | 0, _ => none
  | fuel + 1, s =>
    match skipLines fuel s with
    | [] => some ([], [])
    | '[' :: rest => some ([], '[' :: rest)
    | s => do
      let (a, rest) ← assignment? fuel 0 s
      let (as, rest) ← body? fuel (← lineEnd? rest)
      return (a :: as, rest)

/-- The sections from the next header on. -/
def sections? : Nat → List Char → Option (List Section)
  | 0, _ => none
  | _, [] => some []
  | fuel + 1, s => do
    let (header, rest) ← header? fuel s
    let (body, rest) ← body? fuel rest
    return ⟨header, body⟩ :: (← sections? fuel rest)

/-- The record that a document spells. -/
def read (s : String) : Option Value := do
  let cs := skipMark s.toList
  let fuel := 4 * cs.length + 4
  let (body, rest) ← body? fuel cs
  Section.build (⟨.root, body⟩ :: (← sections? fuel rest))

end Toml

end TrendLadder
