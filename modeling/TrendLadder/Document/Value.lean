import TrendLadder.Number.Literal

/-!
# Document values

The tree that a document spells, whatever its format, and the steps that read a typed value out of
one. Reading fails with `none`: the readers say whether a document fits a type, not where it
fails to.
-/

namespace TrendLadder

variable {α : Type}

/-- A value of a document. -/
inductive Value where
  | null
  | bool (b : Bool)
  | int (n : Int)
  | real (x : Float)
  | text (s : String)
  /-- A sequence. A `whole` one may not be longer than its reader asks for. -/
  | list (whole : Bool) (items : List Value)
  /-- Named values in the order of the document, repeated names included. -/
  | record (fields : List (String × Value))
  /-- A value that is well formed and yet names nothing: a number beyond the doubles, a text with
  half of a surrogate pair, a tree that is too deep. It may stand only where nothing reads it. -/
  | unreadable

namespace Value

/-! ## Scalars -/

def bool? : Value → Option Bool
  | .bool b => some b
  | _ => none

/-- A double; an integer stands for the nearest one. -/
def float? : Value → Option Float
  | .real x => some x
  | .int n => some (Decimal.toFloat ⟨n < 0, n.natAbs, 0⟩)
  | _ => none

/-- A natural number below `2 ^ width`. -/
def nat? (width : Nat) : Value → Option Nat
  | .int n => if 0 ≤ n ∧ n.toNat < Nat.pow 2 width then some n.toNat else none
  | _ => none

def text? : Value → Option String
  | .text s => some s
  | _ => none

/-- A value that may be null. -/
def nullable (read : Value → Option α) : Value → Option (Option α)
  | .null => some none
  | v => (read v).map some

/-- A sequence of values of one type. -/
def list? (read : Value → Option α) : Value → Option (List α)
  | .list _ items => items.mapM read
  | _ => none

/-- A name that stands alone or before a null. -/
def name? : Value → Option String
  | .text s => some s
  | .record [(s, .null)] => some s
  | _ => none

/-- One of a list of named constants. -/
def oneOf (names : List (String × α)) (v : Value) : Option α :=
  v.name?.bind fun s => names.lookup s

/-- A value that may be null, written. -/
def ofOption (write : α → Value) : Option α → Value
  | none => .null
  | some a => write a

def ofNat (n : Nat) : Value := .int n

mutual

/-- Whether every part of the tree names something. -/
def isReadable : Value → Bool
  | .unreadable => false
  | .list _ items => allReadable items
  | .record fields => fieldsReadable fields
  | _ => true

def allReadable : List Value → Bool
  | [] => true
  | v :: vs => v.isReadable && allReadable vs

def fieldsReadable : List (String × Value) → Bool
  | [] => true
  | (_, v) :: fs => v.isReadable && fieldsReadable fs

end

end Value

/-! ## Structures -/

/-- The known fields found in a document. In a record a nullable field may be left out; in a
sequence, where fields stand by position, it may not. -/
structure Fields where
  found : List (String × Value)
  named : Bool

namespace Value

/-- The fields of a structure: a record without a repeated known name, other names being ignored,
or a sequence of the fields in order. -/
def fields? (names : List String) : Value → Option Fields
  | .record fields =>
    let known := fields.filter fun f => names.contains f.1
    if (known.map Prod.fst).Nodup then some ⟨known, true⟩ else none
  | .list whole items =>
    if whole ∧ names.length < items.length then none else some ⟨names.zip items, false⟩
  | _ => none

end Value

namespace Fields

/-- The value of a field. -/
def get? (f : Fields) (name : String) : Option Value := f.found.lookup name

/-- A field that has to be there. -/
def required (f : Fields) (name : String) (read : Value → Option α) : Option α :=
  (f.get? name).bind read

/-- A field with a value to take where it is left out. -/
def orElse (f : Fields) (name : String) (read : Value → Option α) (absent : α) : Option α :=
  match f.get? name with
  | some v => read v
  | none => some absent

/-- A field that may be null, or left out of a record. -/
def optional (f : Fields) (name : String) (read : Value → Option α) : Option (Option α) :=
  match f.get? name with
  | some v => v.nullable read
  | none => if f.named then some none else none

end Fields

/-- A value made of two fields. -/
def Value.pair? {α β γ : Type} (first : String) (readFirst : Value → Option α) (second : String)
    (readSecond : Value → Option β) (make : α → β → γ) (v : Value) : Option γ := do
  let f ← v.fields? [first, second]
  return make (← f.required first readFirst) (← f.required second readSecond)

/-! ## Tagged unions -/

namespace Value

/-- A value with a tag among its fields. A record holds the tag once and anywhere, a sequence
first; every part of the value has to be readable. The result is the tag and the value without
it. -/
def tagged? (tag : String) (v : Value) : Option (String × Value) :=
  if v.isReadable then
    match v with
    | .record fields =>
      match fields.filter fun f => f.1 = tag with
      | [(_, .text name)] => some (name, .record (fields.filter fun f => f.1 ≠ tag))
      | _ => none
    | .list _ (.text name :: items) => some (name, .list true items)
    | _ => none
  else none

/-- A tagged value of one of the kinds that have a reader. -/
def kinds? {α : Type} (tag : String) (readers : List (String × (Value → Option α))) (v : Value) :
    Option α := do
  let (name, body) ← v.tagged? tag
  (← readers.lookup name) body

/-- A tag beside a content: two fields of a record, which may lack the content and in which other
names are ignored, or a sequence of the two. -/
def beside? (tag content : String) : Value → Option (String × Option Value)
  | .list _ [name, body] => name.name?.map (·, some body)
  | .list _ _ => none
  | v => do
    let f ← v.fields? [tag, content]
    return (← f.required tag name?, f.get? content)

/-- A record with a tag in front. -/
def ofTagged (tag name : String) (fields : List (String × Value)) : Value :=
  .record ((tag, .text name) :: fields)

end Value

end TrendLadder
