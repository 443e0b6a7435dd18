import TrendLadder.Recent

/-!
# Recent items and their feed

What a `Recent` list holds of everything that was pushed to it. A list of a positive capacity holds
the last items of its feed (`Holds`), and its latest two are the last two of the feed.
-/

namespace TrendLadder

variable {α : Type}

/-! ## The last items of a list -/

theorem length_lastItems (n : Nat) (l : List α) : (lastItems n l).length = min n l.length := by
  rw [lastItems, List.length_drop]
  omega

theorem take_append_lastItems (n : Nat) (l : List α) :
    l.take (l.length - n) ++ lastItems n l = l := by
  rw [lastItems, List.take_append_drop]

theorem lastItems_of_length_le {n : Nat} {l : List α} (h : l.length ≤ n) : lastItems n l = l := by
  rw [lastItems, Nat.sub_eq_zero_of_le h, List.drop_zero]

/-- What stands before `n` items does not matter to the last `n`. -/
theorem lastItems_append_of_le {n : Nat} {t : List α} (h : n ≤ t.length) (l : List α) :
    lastItems n (l ++ t) = lastItems n t := by
  have hd : (l ++ t).length - n = l.length + (t.length - n) := by
    rw [List.length_append]
    omega
  rw [lastItems, lastItems, hd, List.drop_append, List.drop_eq_nil_of_le (Nat.le_add_right _ _),
    List.nil_append, Nat.add_sub_cancel_left]

/-- What falls out early would fall out later. -/
theorem lastItems_append_lastItems (n : Nat) (l t : List α) :
    lastItems n (lastItems n l ++ t) = lastItems n (l ++ t) := by
  by_cases h : l.length ≤ n
  · rw [lastItems_of_length_le h]
  · have hl : l.take (l.length - n) ++ (lastItems n l ++ t) = l ++ t := by
      rw [← List.append_assoc, take_append_lastItems]
    rw [← hl]
    refine (lastItems_append_of_le ?_ _).symm
    rw [List.length_append, length_lastItems]
    omega

namespace Recent

/-- The list holds the last items of a feed. -/
def Holds (r : Recent α) (feed : List α) : Prop := r.items = lastItems r.capacity feed

theorem holds_empty (capacity : Nat) : (empty capacity : Recent α).Holds [] := by
  show [] = List.drop _ []
  rw [List.drop_nil]

theorem Holds.size_le {r : Recent α} {feed : List α} (h : r.Holds feed) :
    r.size ≤ r.capacity := by
  rw [size, h, length_lastItems]
  exact Nat.min_le_left _ _

theorem Holds.push {r : Recent α} {feed : List α} (h : r.Holds feed) (pos : 0 < r.capacity)
    (a : α) : (r.push a).Holds (feed ++ [a]) := by
  show (r.push a).items = lastItems r.capacity (feed ++ [a])
  rw [items_push pos h.size_le, h, lastItems_append_lastItems]

theorem latest_eq_getElem? (r : Recent α) : r.latest = r.items.reverse[0]? := by
  rw [latest, List.getLast?_eq_head?_reverse, List.head?_eq_getElem?]

theorem previous_eq_getElem? (r : Recent α) : r.previous = r.items.reverse[1]? := by
  rw [previous, List.getLast?_eq_head?_reverse, List.head?_eq_getElem?, ← List.tail_reverse,
    List.getElem?_tail]

/-- With room for two items, the item that was the latest is the one before the latest. -/
theorem previous_push {r : Recent α} (room : 2 ≤ r.capacity) (a : α) :
    (r.push a).previous = r.latest := by
  unfold push previous latest
  dsimp only
  rw [List.dropLast_concat]
  split
  · next full =>
    rw [List.getLast?_tail, if_neg (by omega)]
  · rfl

end Recent

end TrendLadder
