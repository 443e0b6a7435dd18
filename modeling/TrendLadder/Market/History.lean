import TrendLadder.Market.Candle
import TrendLadder.Recent

/-!
# Candle history

The latest candles in the order of time. A candle that is not newer than the latest one is
refused.
-/

namespace TrendLadder

/-- The latest candles, in the order of time. -/
structure History where
  recent : Recent Candle
deriving DecidableEq

namespace History

/-- The capacity where none is given. -/
def defaultCapacity : Nat := 100

/-- A history without candles; it has room for at least one. -/
def empty (capacity : Nat) : History := ⟨.empty (max capacity 1)⟩

/-- Whether a history can be set up: its buffer has the capacity as given. -/
def fits (capacity : Nat) : Bool := bufferFits Candle.bytes capacity

def candles (h : History) : List Candle := h.recent.items

/-- Whether a candle is newer than the latest one. -/
def accepts (h : History) (c : Candle) : Bool :=
  h.recent.latest.all fun latest => latest.timestamp < c.timestamp

/-- Adds a candle; `none` if it is refused. -/
def push? (h : History) (c : Candle) : Option History :=
  if h.accepts c then some ⟨h.recent.push c⟩ else none

/-- Adds a candle unless it is refused. -/
def push (h : History) (c : Candle) : History := (h.push? c).getD h

def clear (h : History) : History := ⟨h.recent.clear⟩

theorem push_of_accepts {h : History} {c : Candle} (accepted : h.accepts c = true) :
    h.push c = ⟨h.recent.push c⟩ := by
  rw [push, push?, if_pos accepted, Option.getD_some]

theorem push_of_refused {h : History} {c : Candle} (refused : h.accepts c = false) :
    h.push c = h := by
  rw [push, push?, if_neg (by rw [refused]; exact Bool.false_ne_true), Option.getD_none]

end History

end TrendLadder
