import TrendLadder.Text.Mark

/-!
# Comma-separated values

A table with a header. Fields are parted by commas and records by line breaks; blank lines are no
records. A field may stand in double quotes, where a comma, a line break and a doubled quote are
text. Records are never malformed: what follows a closing quote belongs to the field, and the end
of the text closes what is open.
-/

namespace TrendLadder.Csv

/-- Where in a record the reader stands. -/
inductive Place where
  | recordStart
  | fieldStart
  | bare
  | quoted
  /-- After a quote inside a quoted field, which closes the field or is the first of two. -/
  | afterQuote
deriving DecidableEq, Repr

/-- A record in progress, everything in reverse. -/
structure Cursor where
  place : Place
  field : List Char
  fields : List String
deriving DecidableEq, Repr

namespace Cursor

/-- Before a record. -/
def start : Cursor := ⟨.recordStart, [], []⟩

/-- Adds a character to the field. -/
def add (s : Cursor) (place : Place) (c : Char) : Cursor :=
  { s with place := place, field := c :: s.field }

/-- Ends the field. -/
def endField (s : Cursor) : Cursor :=
  ⟨.fieldStart, [], String.ofList s.field.reverse :: s.fields⟩

/-- The record that ends here. -/
def record (s : Cursor) : List String := s.endField.fields.reverse

/-- Whether a character breaks a line. -/
def isBreak (c : Char) : Bool := c = '\n' || c = '\r'

/-- Takes a character outside of quotes, with the record that it ends. -/
def bare (s : Cursor) (c : Char) : Option (List String) × Cursor :=
  if isBreak c then (some s.record, start)
  else if c = ',' then (none, s.endField)
  else (none, s.add .bare c)

/-- Takes the first character of a field. -/
def first (s : Cursor) (c : Char) : Option (List String) × Cursor :=
  if c = '"' then (none, { s with place := .quoted }) else s.bare c

/-- Takes one character, with the record that it ends. -/
def step (s : Cursor) (c : Char) : Option (List String) × Cursor :=
  match s.place with
  | .recordStart => if isBreak c then (none, s) else s.first c
  | .fieldStart => s.first c
  | .bare => s.bare c
  | .quoted => (none, if c = '"' then { s with place := .afterQuote } else s.add .quoted c)
  | .afterQuote => if c = '"' then (none, s.add .quoted c) else s.bare c

/-- The record that the end of the text closes. -/
def close (s : Cursor) : List (List String) :=
  if s.place = .recordStart then [] else [s.record]

end Cursor

/-- The records of a text. -/
def records (s : Cursor) : List Char → List (List String)
  | [] => s.close
  | c :: cs => (s.step c).1.toList ++ records (s.step c).2 cs

/-- One record of a table with the name of each field. -/
abbrev Row := List (String × String)

/-- The rows of a table; those with another number of fields than the header are left out. -/
def rows (content : String) : List Row :=
  match records .start (skipMark content.toList) with
  | [] => []
  | header :: body => (body.filter (·.length = header.length)).map header.zip

/-- The field of a row whose name occurs once. -/
def Row.field? {α : Type} (row : Row) (name : String) (read : String → Option α) : Option α :=
  match row.filter (·.1 = name) with
  | [(_, content)] => read content
  | _ => none

end TrendLadder.Csv
