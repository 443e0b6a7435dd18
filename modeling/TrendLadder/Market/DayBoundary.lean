import TrendLadder.Time.Timestamp

/-!
# Day boundaries

A `DayBoundary` watches timestamps and flags each one whose calendar date is later than every date
before it. The first date is a start and no boundary.
-/

namespace TrendLadder

/-- The latest calendar date seen, as its day number. -/
structure DayBoundary where
  latest : Option Int
deriving DecidableEq, Repr

namespace DayBoundary

/-- No date seen. -/
def start : DayBoundary := ⟨none⟩

/-- Sees one timestamp and tells whether it starts a new day. -/
def observe (b : DayBoundary) (t : Timestamp) : Bool × DayBoundary :=
  match b.latest with
  | none => (false, ⟨some t.day⟩)
  | some latest => if latest < t.day then (true, ⟨some t.day⟩) else (false, b)

/-- The flags of a feed of timestamps. -/
def flags (b : DayBoundary) : List Timestamp → List Bool
  | [] => []
  | t :: ts => (b.observe t).1 :: (b.observe t).2.flags ts

end DayBoundary

end TrendLadder
