import TrendLadder.Indicator.Crossover
import TrendLadder.Proofs.Indicator.Average
import TrendLadder.Proofs.Number.Order

/-!
# The bounded crossover detector against the whole feed

The detector keeps a bounded buffer of prices and two bounded series of averages. The main
statement, `crossover_eq_unbounded`, says that after any prices and resets it tells what the
averages of all prices since the last reset tell: `Overtakes` and `IsReading` speak of the whole
list. The invariant is `CrossoverDetector.Follows`.
-/

namespace TrendLadder

/-! ## The feed -/

/-- What can be asked of a detector. -/
inductive CrossoverCall where
  | closing (price : Float)
  | reset
deriving DecidableEq

/-- The prices since the last reset, after one more call. -/
def feedAfter (closings : List Float) : CrossoverCall → List Float
  | .closing price => closings ++ [price]
  | .reset => []

/-- The prices since the last reset. -/
def sinceReset (calls : List CrossoverCall) : List Float := calls.foldl feedAfter []

namespace CrossoverSettings

/-- The closing prices needed before a cross can be seen. -/
def warmup (s : CrossoverSettings) : Nat := max s.fast.window s.slow.window + 1

end CrossoverSettings

/-- With the last of the prices, one average moves from strictly below another to strictly above
it. -/
def Overtakes (a b : AverageSettings) (closings : List Float) : Prop :=
  ∃ x0 y0 x1 y1,
    average closings.dropLast a = .ok x0 ∧ average closings.dropLast b = .ok y0 ∧
    average closings a = .ok x1 ∧ average closings b = .ok y1 ∧
    x0 < y0 ∧ y1 < x1

theorem overtakes_iff {a b : AverageSettings} {closings : List Float}
    {x0 y0 x1 y1 : Float} (hx0 : average closings.dropLast a = .ok x0)
    (hy0 : average closings.dropLast b = .ok y0)
    (hx1 : average closings a = .ok x1) (hy1 : average closings b = .ok y1) :
    Overtakes a b closings ↔ x0 < y0 ∧ y1 < x1 := by
  constructor
  · rintro ⟨u0, v0, u1, v1, hu0, hv0, hu1, hv1, h0, h1⟩
    rw [hx0, Except.ok.injEq] at hu0
    rw [hy0, Except.ok.injEq] at hv0
    rw [hx1, Except.ok.injEq] at hu1
    rw [hy1, Except.ok.injEq] at hv1
    subst hu0 hv0 hu1 hv1
    exact ⟨h0, h1⟩
  · exact fun h => ⟨_, _, _, _, hx0, hy0, hx1, hy1, h.1, h.2⟩

/-- What the averages of all prices make of the last one. -/
structure IsCross (s : CrossoverSettings) (closings : List Float) (cross : Option Cross) :
    Prop where
  bullish : cross = some .bullish ↔ Overtakes s.fast s.slow closings
  bearish : cross = some .bearish ↔ Overtakes s.slow s.fast closings

/-- A reading shows an average of all prices from the first full window on. -/
structure Shows (s : AverageSettings) (closings : List Float) (value : Option Float) : Prop where
  full : s.window ≤ closings.length → ∃ x, average closings s = .ok x ∧ value = some x
  short : closings.length < s.window → value = none

/-- What the averages of all prices tell after the last one. -/
structure IsReading (s : CrossoverSettings) (closings : List Float) (r : CrossoverReading) :
    Prop where
  fast : Shows s.fast closings r.fast
  slow : Shows s.slow closings r.slow
  bullish : r.cross = some .bullish ↔ s.warmup ≤ closings.length ∧ Overtakes s.fast s.slow closings
  bearish : r.cross = some .bearish ↔ s.warmup ≤ closings.length ∧ Overtakes s.slow s.fast closings

theorem shows_average {s : AverageSettings} (period : 1 ≤ s.period) (closings : List Float) :
    Shows s closings (average closings s).toOption where
  full h := ⟨_, average_of_long period h, by rw [average_of_long period h]; rfl⟩
  short h := by rw [average_of_short h]; rfl

/-! ## Crosses -/

theorem crossOf_eq_bullish {a0 b0 a1 b1 : Float} :
    crossOf a0 b0 a1 b1 = some .bullish ↔ a0 < b0 ∧ b1 < a1 := by
  unfold crossOf
  split
  · next h => exact iff_of_true rfl h
  · next h =>
    split
    · exact iff_of_false nofun h
    · exact iff_of_false nofun h

/-- The cross that is looked for first does not hide the other one. -/
theorem crossOf_eq_bearish {a0 b0 a1 b1 : Float} :
    crossOf a0 b0 a1 b1 = some .bearish ↔ b0 < a0 ∧ a1 < b1 := by
  unfold crossOf
  split
  · next h => exact iff_of_false nofun fun h2 => float_lt_asymm h.1 h2.1
  · split
    · next h => exact iff_of_true rfl h
    · next h => exact iff_of_false nofun h

namespace CrossoverDetector

/-- The detector after one call. -/
def call (d : CrossoverDetector) : CrossoverCall → CrossoverDetector
  | .closing price => (d.update price).2
  | .reset => d.reset

/-- The detector after calls. -/
def run (d : CrossoverDetector) (calls : List CrossoverCall) : CrossoverDetector :=
  calls.foldl call d

/-- The buffer holds the last prices of a feed, and the two series follow it. -/
structure Follows (d : CrossoverDetector) (s : CrossoverSettings) (capacity : Nat)
    (closings : List Float) : Prop where
  capacity_eq : d.closings.capacity = capacity
  holds : d.closings.Holds closings
  fast : d.fast.Follows s.fast closings
  slow : d.slow.Follows s.slow closings

section Run

variable {s : CrossoverSettings} {capacity : Nat} {d : CrossoverDetector} {closings : List Float}
  (fastPeriod : 1 ≤ s.fast.period) (slowPeriod : 1 ≤ s.slow.period)
  (room : max 2 (max s.fast.window s.slow.window) ≤ capacity)

include fastPeriod slowPeriod

theorem follows_new : (CrossoverDetector.new s capacity).Follows s capacity [] where
  capacity_eq := rfl
  holds := Recent.holds_empty capacity
  fast := AverageSeries.follows_empty fastPeriod capacity
  slow := AverageSeries.follows_empty slowPeriod capacity

theorem Follows.reset (h : d.Follows s capacity closings) : d.reset.Follows s capacity [] where
  capacity_eq := h.capacity_eq
  holds := Recent.holds_empty d.closings.capacity
  fast := h.fast.clear fastPeriod
  slow := h.slow.clear slowPeriod

include room

theorem Follows.update (h : d.Follows s capacity closings) (price : Float) :
    (d.update price).1.fast = (average (closings ++ [price]) s.fast).toOption ∧
      (d.update price).1.slow = (average (closings ++ [price]) s.slow).toOption ∧
      (d.update price).2.Follows s capacity (closings ++ [price]) := by
  have pos : 0 < d.closings.capacity := by
    rw [h.capacity_eq]
    omega
  have holds := h.holds.push pos price
  have seen : (d.closings.push price).items = lastItems capacity (closings ++ [price]) := by
    rw [← h.capacity_eq]
    exact holds
  have enough {a : AverageSettings} (period : 1 ≤ a.period) (window : a.window ≤ capacity) :
      average (d.closings.push price).items a = average (closings ++ [price]) a := by
    rw [seen, average_lastItems period window]
  have fast := h.fast.update fastPeriod (enough fastPeriod (by omega))
  have slow := h.slow.update slowPeriod (enough slowPeriod (by omega))
  refine ⟨congrArg Except.toOption fast.1, congrArg Except.toOption slow.1, ?_⟩
  exact ⟨h.capacity_eq, holds, fast.2, slow.2⟩

theorem Follows.run (h : d.Follows s capacity closings) (calls : List CrossoverCall) :
    (d.run calls).Follows s capacity (calls.foldl feedAfter closings) := by
  induction calls generalizing d closings with
  | nil => exact h
  | cons c cs ih =>
    cases c with
    | closing price => exact ih (h.update fastPeriod slowPeriod room price).2.2
    | reset => exact ih (h.reset fastPeriod slowPeriod)

/-! ## What the detector tells -/

omit slowPeriod in
/-- During the warm-up one of the series has no second value yet, and the buffer still holds all
prices. -/
theorem Follows.crossover_of_short (h : d.Follows s capacity closings)
    (short : closings.length < s.warmup) :
    d.crossover = .error ⟨s.warmup, closings.length⟩ := by
  have hw : d.warmup = s.warmup := by
    rw [warmup, h.fast.settings_eq, h.slow.settings_eq, CrossoverSettings.warmup]
  unfold CrossoverSettings.warmup at short
  have hn : d.closings.size = closings.length := by
    rw [Recent.size, h.holds, length_lastItems, h.capacity_eq]
    omega
  have missing : d.fast.previous = none ∨ d.slow.previous = none := by
    rw [h.fast.previous_eq, h.slow.previous_eq]
    by_cases hf : closings.dropLast.length < s.fast.window
    · exact Or.inl (by rw [average_of_short hf]; rfl)
    · have pos : 0 < s.fast.window := Nat.add_pos_left fastPeriod _
      rw [List.length_dropLast] at hf
      have hs : closings.dropLast.length < s.slow.window := by
        rw [List.length_dropLast]
        omega
      exact Or.inr (by rw [average_of_short hs]; rfl)
  unfold CrossoverDetector.crossover
  split
  · next hf hs _ _ =>
    rcases missing with h0 | h0
    · rw [h0] at hf
      cases hf
    · rw [h0] at hs
      cases hs
  · rw [hw, hn]

omit room in
/-- After the warm-up all four averages are there, over all prices. -/
theorem Follows.crossover_of_long (h : d.Follows s capacity closings)
    (long : s.warmup ≤ closings.length) :
    ∃ cross, d.crossover = .ok cross ∧ IsCross s closings cross := by
  unfold CrossoverSettings.warmup at long
  have before : closings.dropLast.length = closings.length - 1 := List.length_dropLast
  have value {a : AverageSettings} (period : 1 ≤ a.period) (window : a.window < closings.length) :
      average closings.dropLast a =
          .ok (windowMean a.method a.period (a.select closings.dropLast)) ∧
        average closings a = .ok (windowMean a.method a.period (a.select closings)) :=
    ⟨average_of_long period (by omega), average_of_long period (by omega)⟩
  obtain ⟨fast0, fast1⟩ := value fastPeriod (by omega)
  obtain ⟨slow0, slow1⟩ := value slowPeriod (by omega)
  unfold CrossoverDetector.crossover
  rw [h.fast.previous_eq, h.slow.previous_eq, h.fast.latest_eq, h.slow.latest_eq, fast0, slow0,
    fast1, slow1]
  refine ⟨_, rfl, ?_, ?_⟩
  · rw [crossOf_eq_bullish, overtakes_iff fast0 slow0 fast1 slow1]
  · rw [crossOf_eq_bearish, overtakes_iff slow0 fast0 slow1 fast1]

theorem Follows.isReading_update (h : d.Follows s capacity closings) (price : Float) :
    IsReading s (closings ++ [price]) (d.update price).1 := by
  obtain ⟨fast, slow, next⟩ := h.update fastPeriod slowPeriod room price
  have cross : (d.update price).1.cross = (d.update price).2.crossover.toOption.join := rfl
  have hfast : Shows s.fast (closings ++ [price]) (d.update price).1.fast :=
    fast ▸ shows_average fastPeriod _
  have hslow : Shows s.slow (closings ++ [price]) (d.update price).1.slow :=
    slow ▸ shows_average slowPeriod _
  by_cases long : s.warmup ≤ (closings ++ [price]).length
  · obtain ⟨c, hc, bullish, bearish⟩ := next.crossover_of_long fastPeriod slowPeriod long
    rw [hc] at cross
    refine ⟨hfast, hslow, ?_, ?_⟩
    · rw [cross]
      exact bullish.trans (and_iff_right long).symm
    · rw [cross]
      exact bearish.trans (and_iff_right long).symm
  · have hc := next.crossover_of_short fastPeriod room (Nat.lt_of_not_le long)
    rw [hc] at cross
    refine ⟨hfast, hslow, ?_, ?_⟩
    · rw [cross]
      exact iff_of_false nofun fun h2 => long h2.1
    · rw [cross]
      exact iff_of_false nofun fun h2 => long h2.1

end Run

end CrossoverDetector

/-! ## The detector and the whole feed -/

/-- **The bounded detector tells what all prices tell.** After any prices and resets the cross is
unknown exactly during the warm-up, for want of prices, and it and the next reading are those of
all prices since the last reset, as soon as the buffers have room for the windows. -/
theorem crossover_eq_unbounded {s : CrossoverSettings} {capacity : Nat}
    (fastPeriod : 1 ≤ s.fast.period) (slowPeriod : 1 ≤ s.slow.period)
    (room : max 2 (max s.fast.window s.slow.window) ≤ capacity) (calls : List CrossoverCall) :
    let d := (CrossoverDetector.new s capacity).run calls
    let closings := sinceReset calls
    (closings.length < s.warmup → d.crossover = .error ⟨s.warmup, closings.length⟩) ∧
      (s.warmup ≤ closings.length →
        ∃ cross, d.crossover = .ok cross ∧ IsCross s closings cross) ∧
      ∀ price, IsReading s (closings ++ [price]) (d.update price).1 := by
  intro d closings
  have follows : d.Follows s capacity closings :=
    (CrossoverDetector.follows_new fastPeriod slowPeriod).run fastPeriod slowPeriod room calls
  exact ⟨follows.crossover_of_short fastPeriod room,
    follows.crossover_of_long fastPeriod slowPeriod,
    follows.isReading_update fastPeriod slowPeriod room⟩

/-- Averages whose longer window is three prices. -/
def tightCrossover : CrossoverSettings := ⟨⟨1, 0, .simple⟩, ⟨2, 1, .exponential⟩⟩

/-- A falling market that is forgotten, and another one. -/
def tightCalls : List CrossoverCall :=
  [.closing 9.0, .closing 8.0, .reset, .closing 7.0, .closing 6.0, .closing 5.0, .closing 4.0]

theorem crossover_eq_unbounded_tight :
    (1 ≤ tightCrossover.fast.period ∧ 1 ≤ tightCrossover.slow.period ∧
      max 2 (max tightCrossover.fast.window tightCrossover.slow.window) ≤ 3) ∧
    IsReading tightCrossover (sinceReset tightCalls ++ [8.0])
      (((CrossoverDetector.new tightCrossover 3).run tightCalls).update 8.0).1 ∧
    (((CrossoverDetector.new tightCrossover 3).run tightCalls).update 8.0).1.cross =
      some .bullish :=
  ⟨by decide,
    (crossover_eq_unbounded (by decide) (by decide) (by decide) tightCalls).2.2 8.0,
    by decide +kernel⟩

end TrendLadder
