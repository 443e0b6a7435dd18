/-!
# Recent items

A `Recent` list keeps the latest items up to a capacity and drops the oldest one to make room.
`items_push` says what it holds in terms of the whole feed: the last `capacity` items of it.

The room for all items is set up with the list. A buffer of more than `mostBytes` cannot be set up,
and the program stops where it tries to (`bufferFits`).
-/

namespace TrendLadder

variable {α : Type}

def lastItems (n : Nat) (l : List α) : List α := l.drop (l.length - n)

/-- The size of the largest buffer, in bytes; memory of that size is taken to be there. -/
def mostBytes : Nat := Nat.pow 2 63 - 1

/-- Whether a buffer for `capacity` items of a size can be set up. -/
def bufferFits (itemBytes capacity : Nat) : Bool := itemBytes * capacity ≤ mostBytes

/-- The latest items, oldest first. -/
structure Recent (α : Type) where
  capacity : Nat
  items : List α
deriving DecidableEq, Repr

namespace Recent

/-- Nothing kept yet. -/
def empty (capacity : Nat) : Recent α := ⟨capacity, []⟩

/-- Keeps one more item. At the capacity the oldest item goes; a list of capacity zero is past its
capacity from the first item on and only grows. -/
def push (r : Recent α) (a : α) : Recent α :=
  { r with items := (if r.items.length = r.capacity then r.items.tail else r.items) ++ [a] }

def clear (r : Recent α) : Recent α := { r with items := [] }

def latest (r : Recent α) : Option α := r.items.getLast?

def previous (r : Recent α) : Option α := r.items.dropLast.getLast?

def size (r : Recent α) : Nat := r.items.length

@[simp] theorem capacity_push (r : Recent α) (a : α) : (r.push a).capacity = r.capacity := rfl

@[simp] theorem latest_push (r : Recent α) (a : α) : (r.push a).latest = some a := by
  simp [push, latest]

/-- Within its capacity, pushing keeps the last `capacity` items of the extended list. -/
theorem items_push {r : Recent α} (pos : 0 < r.capacity) (le : r.size ≤ r.capacity) (a : α) :
    (r.push a).items = lastItems r.capacity (r.items ++ [a]) := by
  unfold push lastItems size at *
  split
  · next h =>
    rw [List.length_append, List.length_singleton, h, Nat.add_sub_cancel_left,
      List.drop_append_of_le_length (by omega), List.drop_one]
  · rw [List.length_append, List.length_singleton, Nat.sub_eq_zero_of_le (by omega),
      List.drop_zero]

end Recent

end TrendLadder
