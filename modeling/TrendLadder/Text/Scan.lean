/-!
# Scanning

A `Scan` reads the front of a text and leaves the rest, or fails. The steps here read one
character, a number of bounded length, and a run of characters of a class.
-/

namespace TrendLadder

/-- A step that reads the front of a text. -/
abbrev Scan (α : Type) := StateT (List Char) Option α

namespace Scan

/-- Reads one given character. -/
def expect (c : Char) : Scan Unit
  | d :: rest => if d = c then some ((), rest) else none
  | [] => none

/-- Reads one character of a class. -/
def one (p : Char → Bool) : Scan Char
  | d :: rest => if p d then some (d, rest) else none
  | [] => none

/-- Reads the given character if it is next, and tells whether it was. -/
def accept (c : Char) : Scan Bool
  | d :: rest => if d = c then some (true, rest) else some (false, d :: rest)
  | [] => some (false, [])

/-- Reads the longest run of characters of a class. -/
def span (p : Char → Bool) : Scan (List Char) := fun s => some (s.takeWhile p, s.dropWhile p)

/-- Reads at least one and at most `most` decimal digits. -/
def digits (most : Nat) : Scan (List Char) := fun s =>
  let ds := (s.take most).takeWhile Char.isDigit
  if ds = [] then none else some (ds, s.drop ds.length)

/-- Reads exactly `count` decimal digits. -/
def exactly (count : Nat) : Scan (List Char) := fun s =>
  let ds := s.take count
  if ds.length = count ∧ ds.all Char.isDigit then some (ds, s.drop count) else none

/-- Succeeds on a condition. -/
def guarded (b : Bool) : Scan Unit := fun s => if b then some ((), s) else none

/-- Succeeds at the end of the text. -/
def atEnd : Scan Unit
  | [] => some ((), [])
  | _ :: _ => none

end Scan

end TrendLadder
