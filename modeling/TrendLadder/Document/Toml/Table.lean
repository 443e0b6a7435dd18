import TrendLadder.Document.Value

/-!
# Tables of TOML

A document is a list of sections: a header and the assignments under it. `Section.build` grows
the tree of a document section by section. A table may be named once by a header; tables made by
dotted keys belong to the section that made them.
-/

namespace TrendLadder

namespace Toml

/-- How a table came to be. -/
inductive Origin where
  /-- Named by a header, or the whole document. -/
  | header
  /-- On the way to a table that a header named. -/
  | implied
  /-- On the way to a value with a dotted key. -/
  | dotted
deriving DecidableEq, Repr

/-- A part of a document that is still open for more. -/
inductive Node where
  | leaf (v : Value)
  | table (origin : Origin) (fields : List (String × Node))
  /-- Tables under one repeated header. -/
  | tables (items : List (List (String × Node)))

mutual

/-- The finished value of a node. -/
def Node.toValue : Node → Value
  | .leaf v => v
  | .table _ fields => .record (fieldsToValue fields)
  | .tables items => .list false (tablesToValue items)

/-- The finished fields of a table. -/
def fieldsToValue : List (String × Node) → List (String × Value)
  | [] => []
  | (name, node) :: rest => (name, node.toValue) :: fieldsToValue rest

/-- The finished tables under one repeated header. -/
def tablesToValue : List (List (String × Node)) → List Value
  | [] => []
  | fields :: rest => .record (fieldsToValue fields) :: tablesToValue rest

end

/-- The fields with one value replaced, or added at the end. -/
def setField (name : String) (node : Node) : List (String × Node) → List (String × Node)
  | [] => [(name, node)]
  | (n, v) :: rest => if n = name then (n, node) :: rest else (n, v) :: setField name node rest

/-- Edits the table at a path. Missing tables are made on the way; `dotted` paths do not enter
tables that a header named. -/
def editAt (dotted : Bool) (edit : Origin → List (String × Node) → Option (List (String × Node))) :
    List String → Origin → List (String × Node) → Option (List (String × Node))
  | [], origin, fields => edit origin fields
  | name :: path, _, fields =>
    match fields.lookup name with
    | none => do
      let origin := if dotted then Origin.dotted else .implied
      let sub ← editAt dotted edit path origin []
      return setField name (.table origin sub) fields
    | some (.leaf _) => none
    | some (.table origin sub) =>
      if dotted ∧ origin = .header then none
      else do
        let sub ← editAt dotted edit path origin sub
        return setField name (.table origin sub) fields
    | some (.tables items) => do
      let last ← items.getLast?
      let last ← editAt dotted edit path .header last
      return setField name (.tables (items.dropLast ++ [last])) fields

/-- A value with the dotted key it is assigned to. -/
structure Assignment where
  path : List String
  name : String
  value : Value

namespace Assignment

/-- Adds the value to a table. Its name has to be new there, and a dotted key may add only to
tables that dotted keys made. -/
def addTo (a : Assignment) (fields : List (String × Node)) : Option (List (String × Node)) :=
  editAt true (fun origin fields =>
    if (origin = .dotted) = (a.path = []) then none
    else if (fields.lookup a.name).isSome then none
    else some (fields ++ [(a.name, .leaf a.value)])) a.path .header fields

/-- Adds the values to a table, one after the other. -/
def addAll (fields : List (String × Node)) (as : List Assignment) :
    Option (List (String × Node)) :=
  as.foldlM (fun fields (a : Assignment) => a.addTo fields) fields

/-- The record of an inline table. -/
def toRecord (as : List Assignment) : Option Value :=
  (addAll [] as).map fun fields => .record (fieldsToValue fields)

end Assignment

/-- The header of a section. -/
inductive Header where
  | root
  | table (path : List String) (name : String)
  | item (path : List String) (name : String)

/-- A header and the assignments under it. -/
structure Section where
  header : Header
  body : List Assignment

namespace Section

/-- Adds a section to the tree of a document. -/
def addTo (s : Section) (fields : List (String × Node)) : Option (List (String × Node)) :=
  match s.header with
  | .root => Assignment.addAll fields s.body
  | .table path name =>
    editAt false (fun _ fields => do
      let base ← match fields.lookup name with
        | none => some []
        | some (.table .implied sub) => some sub
        | some _ => none
      return setField name (.table .header (← Assignment.addAll base s.body)) fields)
      path .header fields
  | .item path name =>
    editAt false (fun _ fields => do
      let items ← match fields.lookup name with
        | none => some []
        | some (.tables items) => some items
        | some _ => none
      return setField name (.tables (items ++ [← Assignment.addAll [] s.body])) fields)
      path .header fields

/-- The value of a document. -/
def build (sections : List Section) : Option Value :=
  (sections.foldlM (fun fields (s : Section) => s.addTo fields) []).map fun fields =>
    .record (fieldsToValue fields)

end Section

end Toml

end TrendLadder
