import TrendLadder.Proofs.Indicator.Trend
import TrendLadder.Proofs.Number.Range

/-!
# Rising markets

In a rising market every candle lies above the one before it. `rising_run` says that the trend of
such a market, which its first candle starts upwards, is never reversed, and that it is continuous
from the fourth candle on, if the acceleration stays below one and no range of prices overflows. The
candles are fewer than the counter of the trend, a number of 32 bits, can count.

The invariant is `TrendDetector.IsRisen`: the extreme point is the high of the latest candle, and
the level lies between the first low and that high. The next level is a part of the way to the high
(`float_approach_le`), so the next candle, which lies above the high, does not reach it. Without the
two conditions the level can pass the extreme point or be no number (`rising_reversed`).
-/

namespace TrendLadder

/-! ## A market that rises -/

/-- Each candle lies above the one before it. -/
def IsRising (candles : List Candle) : Prop := candles.IsChain fun a b => a.high < b.low

namespace TrendDetector

variable {s : TrendSettings} {d : TrendDetector} {low : Float} {k : Nat} {c : Candle}

/-- A detector of a market that rose from a low for a number of candles after the first one, up to a
latest candle. -/
structure IsRisen (s : TrendSettings) (d : TrendDetector) (low : Float) (k : Nat) (c : Candle) :
    Prop where
  settings_eq : d.settings = s
  seen : d.seen ≠ 0
  direction : d.state.direction = .up
  extremePoint : d.state.extremePoint = c.high
  acceleration : d.state.acceleration = s.accelerationAfter k
  count : d.state.count = k
  isContinuous : d.state.isContinuous = true ↔ 3 ≤ k
  above : low ≤ d.state.level
  below : d.state.level ≤ c.high

theorem isRisen_first (s : TrendSettings) (sane : c.isSane = true) (bullish : c.isBullish = true) :
    IsRisen s ((start s).next c) c.low 0 c := by
  have next : (start s).next c = ⟨s, ⟨c.low, c.high, s.step, .up, false, 0⟩, 1, false⟩ := by
    rw [TrendDetector.next, if_pos (show (start s).seen = 0 from rfl), TrendState.seed,
      if_pos bullish]
    rfl
  rw [next]
  constructor
  case settings_eq | direction | extremePoint | acceleration | count => rfl
  case seen => exact Nat.one_ne_zero
  case isContinuous => exact iff_of_false Bool.false_ne_true (Nat.not_succ_le_zero 2)
  case above => exact float_le_refl (not_isNaN_of_isFinite (Candle.isFinite_low sane))
  case below => exact Candle.low_le_high sane

namespace IsRisen

theorem nextLevel_bounds (h : IsRisen s d low k c) (valid : s.faults = [])
    (finite : low.isFinite = true) (sane : c.isSane = true) (part : s.accelerationAfter k < 1.0)
    (room : (c.high - low).isFinite = true) :
    d.state.level ≤ d.state.nextLevel ∧ d.state.nextLevel ≤ c.high := by
  have high := Candle.isFinite_high sane
  have level : d.state.level.isFinite = true := isFinite_of_le_of_le finite high h.above h.below
  have between : rational d.state.level ∈ Set.uIcc (rational c.high) (rational low) :=
    Set.mem_uIcc_of_ge (rational_le_of_le finite level h.above)
      (rational_le_of_le level high h.below)
  have distance : (c.high - d.state.level).isFinite = true := by
    rw [← isFinite_sub_comm] at room ⊢
    exact isFinite_sub_of_mem_uIcc high level finite between room
  have nonneg := float_lt_asymm (TrendSettings.accelerationAfter_pos valid k)
  rw [TrendState.nextLevel, h.extremePoint, h.acceleration]
  exact ⟨float_le_approach level high h.below distance nonneg part,
    float_approach_le level high h.below distance nonneg part⟩

theorem next (h : IsRisen s d low k c) (valid : s.faults = []) (finite : low.isFinite = true)
    (sane : c.isSane = true) (part : s.accelerationAfter k < 1.0)
    (room : (c.high - low).isFinite = true) {c2 : Candle} (sane2 : c2.isSane = true)
    (rises : c.high < c2.low) :
    IsRisen s (d.next c2) low (k + 1) c2 ∧ (d.next c2).reversed = false := by
  obtain ⟨forward, short⟩ := h.nextLevel_bounds valid finite sane part room
  have moves : d.state.direction = Direction.buy.trend := h.direction
  have held : ¬Direction.sell.Beyond d.state.nextLevel (Direction.sell.leading c2) :=
    float_lt_asymm (float_lt_of_le_of_lt short rises)
  have higher : Direction.buy.Beyond d.state.extremePoint (Direction.buy.leading c2) := by
    rw [h.extremePoint]
    exact float_lt_of_lt_of_le rises (Candle.low_le_high sane2)
  have same := next_of_held h.settings_eq h.seen moves held
  rw [TrendState.carriedOn, if_pos higher] at same
  rw [same]
  refine ⟨?_, rfl⟩
  constructor
  case settings_eq => rfl
  case seen => exact Nat.succ_ne_zero _
  case direction => exact h.direction
  case extremePoint => rfl
  case acceleration =>
    rw [TrendSettings.accelerationAfter_succ, ← h.acceleration]
    rfl
  case count => exact congrArg (· + 1) h.count
  case isContinuous =>
    rw [← h.count]
    exact decide_eq_true_iff
  case above => exact float_le_trans h.above forward
  case below =>
    exact float_le_trans short (float_le_of_lt (float_lt_of_lt_of_le rises
      (Candle.low_le_high sane2)))

end IsRisen

/-- What the detector says of a candle of a rising market: nothing reverses the trend, which is
continuous once three candles have come after the first. -/
structure TellsRise (i : Nat) (r : TrendReading) : Prop where
  direction : r.direction = .up
  reversed : r.reversed = false
  isContinuous : r.isContinuous = true ↔ 3 ≤ i

theorem IsRisen.tells (h : IsRisen s d low k c) (reversed : d.reversed = false) :
    TellsRise k d.reading where
  direction := h.direction
  reversed := reversed
  isContinuous := h.isContinuous

/-- What a detector knows and has told after the candles of a rising market. -/
structure HasRisen (s : TrendSettings) (told : List TrendEntry × TrendDetector) (first : Candle)
    (rest : List Candle) : Prop where
  candles : told.1.map TrendEntry.candle = first :: rest
  risen : ∀ c ∈ (first :: rest).getLast?, IsRisen s told.2 first.low rest.length c
  tells : ∀ i x, told.1[i]? = some x → TellsRise i x.reading ∧ x.state.count = i

theorem HasRisen.length_eq {told : List TrendEntry × TrendDetector} {first : Candle}
    {rest : List Candle} (h : HasRisen s told first rest) : told.1.length = rest.length + 1 := by
  rw [← List.length_map, h.candles, List.length_cons]

section Run

variable {first : Candle} {rest : List Candle}

theorem hasRisen_first (s : TrendSettings) (sane : first.isSane = true)
    (bullish : first.isBullish = true) :
    HasRisen s ((start s).run [.candle first]) first [] := by
  have risen := isRisen_first s sane bullish
  have reversed : ((start s).next first).reversed = false := rfl
  constructor
  case candles => rfl
  case risen =>
    intro c last
    cases last
    exact risen
  case tells =>
    intro i x hx
    cases i with
    | zero =>
      cases hx
      exact ⟨risen.tells reversed, risen.count⟩
    | succ i => cases hx

theorem HasRisen.take {told : List TrendEntry × TrendDetector} (h : HasRisen s told first rest)
    (valid : s.faults = []) (sane : ∀ c ∈ first :: rest, c.isSane = true)
    (part : s.accelerationAfter rest.length < 1.0)
    (room : ∀ c ∈ first :: rest, (c.high - first.low).isFinite = true) (sane2 : c.isSane = true)
    (rises : ∀ last ∈ (first :: rest).getLast?, last.high < c.low) :
    HasRisen s (TrendDetector.take told (.candle c)) first (rest ++ [c]) := by
  obtain ⟨last, ends⟩ := Option.isSome_iff_exists.mp
    (List.getLast?_isSome.mpr (List.cons_ne_nil first rest))
  have member := List.mem_of_getLast? ends
  obtain ⟨risen, reversed⟩ := (h.risen last ends).next valid
    (Candle.isFinite_low (sane first List.mem_cons_self)) (sane last member) part
    (room last member) sane2 (rises last ends)
  have length : told.1.length = rest.length + 1 := h.length_eq
  constructor
  case candles =>
    show (told.1 ++ [_]).map TrendEntry.candle = _
    rw [List.map_append, h.candles]
    rfl
  case risen =>
    intro c2 ends2
    rw [← List.cons_append, List.getLast?_concat, Option.mem_some_iff] at ends2
    rw [← ends2, List.length_append]
    exact risen
  case tells =>
    intro i x hx
    have hx : (told.1 ++ [_])[i]? = some x := hx
    rw [List.getElem?_append] at hx
    split at hx
    · exact h.tells i x hx
    · next beyond =>
      obtain ⟨index, here⟩ := List.getElem?_eq_some_iff.mp hx
      have latest : i = rest.length + 1 := by
        rw [List.length_singleton] at index
        omega
      rw [List.getElem_singleton] at here
      rw [latest, ← here]
      exact ⟨risen.tells reversed, risen.count⟩

/-- **A rising market never reverses the trend.** Over sane candles of which the first one rises and
each other one lies above the candle before it, a detector for valid settings tells of every candle
an upward trend that is not reversed, continuous from the fourth candle on. It is assumed that the
acceleration stays below one, as it does under a maximum below one, that the distance from the first
low to each high is finite, and that there are no more candles than the counter, which then never
overflows, can count. -/
theorem rising_run {d0 : TrendDetector} (built : new s = .ok d0)
    (sane : ∀ c ∈ first :: rest, c.isSane = true) (bullish : first.isBullish = true)
    (rising : IsRising (first :: rest)) (parts : ∀ k < rest.length, s.accelerationAfter k < 1.0)
    (room : ∀ c ∈ first :: rest, (c.high - first.low).isFinite = true)
    (few : rest.length < 2 ^ 32) :
    (d0.run ((first :: rest).map .candle)).1.map TrendEntry.candle = first :: rest ∧
    ∀ i x, (d0.run ((first :: rest).map .candle)).1[i]? = some x →
      TellsRise i x.reading ∧ x.state.count < 2 ^ 32 := by
  obtain ⟨valid, rfl⟩ := new_eq_ok.mp built
  have risen : HasRisen s ((start s).run ((first :: rest).map .candle)) first rest := by
    clear built few
    induction rest using List.reverseRecOn with
    | nil => exact hasRisen_first s (sane first List.mem_cons_self) bullish
    | append_singleton rest c ih =>
      rw [← List.cons_append] at sane rising room
      obtain ⟨rising, -, above⟩ := List.isChain_append.mp rising
      have earlier : ∀ c2 ∈ first :: rest, c2 ∈ first :: rest ++ [c] :=
        fun _ => List.mem_append_left _
      rw [List.length_append] at parts
      have risen := ih (fun c2 hc => sane c2 (earlier c2 hc)) rising
        (fun k less => parts k (Nat.lt_succ_of_lt less)) fun c2 hc => room c2 (earlier c2 hc)
      rw [← List.cons_append, List.map_append, List.map_singleton, run_concat]
      refine risen.take valid (fun c2 hc => sane c2 (earlier c2 hc)) (parts _ (Nat.lt_succ_self _))
        (fun c2 hc => room c2 (earlier c2 hc)) (sane c ?_) fun last ends => above last ends c rfl
      exact List.mem_append_right _ (List.mem_singleton_self c)
  refine ⟨risen.candles, fun i x here => ?_⟩
  obtain ⟨tells, count⟩ := risen.tells i x here
  have index : i < rest.length + 1 := by
    rw [← risen.length_eq]
    exact (List.getElem?_eq_some_iff.mp here).1
  exact ⟨tells, by omega⟩

end Run

/-- Five candles that rise, the first one upwards. -/
def risingCandles : List Candle :=
  [⟨⟨0, 0⟩, 100.0, 110.0, 99.0, 109.0, 500, 10⟩, ⟨⟨3600, 0⟩, 111.0, 114.0, 110.5, 113.0, 500, 10⟩,
    ⟨⟨7200, 0⟩, 115.0, 118.0, 114.5, 117.0, 500, 10⟩,
    ⟨⟨10800, 0⟩, 119.0, 122.0, 118.5, 121.0, 500, 10⟩,
    ⟨⟨14400, 0⟩, 123.0, 126.0, 122.5, 125.0, 500, 10⟩]

instance (candles : List Candle) : Decidable (IsRising candles) :=
  inferInstanceAs (Decidable (candles.IsChain fun a b => a.high < b.low))

/-- Under a maximum of 0.2 each of the five candles continues the rise. -/
theorem rising_run_risen :
    new ⟨0.02, 0.2⟩ = .ok (start ⟨0.02, 0.2⟩) ∧ (∀ c ∈ risingCandles, c.isSane = true) ∧
    IsRising risingCandles ∧
    ∀ i x, ((start ⟨0.02, 0.2⟩).run (risingCandles.map .candle)).1[i]? = some x →
      TellsRise i x.reading ∧ x.state.count < 2 ^ 32 := by
  have valid : TrendSettings.faults ⟨0.02, 0.2⟩ = [] := by decide +kernel
  have built : new ⟨0.02, 0.2⟩ = .ok (start ⟨0.02, 0.2⟩) := new_eq_ok.mpr ⟨valid, rfl⟩
  have sane : ∀ c ∈ risingCandles, c.isSane = true := by decide +kernel
  have rising : IsRising risingCandles := by decide +kernel
  have parts (k : Nat) : TrendSettings.accelerationAfter ⟨0.02, 0.2⟩ k < 1.0 :=
    TrendSettings.accelerationAfter_lt_one valid (by decide +kernel) k
  exact ⟨built, sane, rising, (rising_run built sane (by decide +kernel) rising
    (fun k _ => parts k) (by decide +kernel) (by decide)).2⟩

/-- A candle that rises, and one above it. -/
def steepCandles : List Candle :=
  [⟨⟨0, 0⟩, 100.0, 110.0, 99.0, 109.0, 500, 10⟩, ⟨⟨3600, 0⟩, 111.0, 114.0, 110.5, 113.0, 500, 10⟩]

/-- The same of prices whose distance overflows. -/
def hugeCandles : List Candle :=
  [⟨⟨0, 0⟩, -1.7e308, 1.0e308, -1.7e308, 0.9e308, 500, 10⟩,
    ⟨⟨3600, 0⟩, 1.2e308, 1.6e308, 1.1e308, 1.5e308, 500, 10⟩]

/-- Valid settings whose acceleration is two put the level beyond the extreme point, and a distance
that is not finite puts it there under any settings: the second candle, above the first one,
reverses the trend. -/
theorem rising_reversed :
    (new ⟨2.0, 2.0⟩ = .ok (start ⟨2.0, 2.0⟩) ∧ (∀ c ∈ steepCandles, c.isSane = true) ∧
      (∀ c ∈ steepCandles.head?, c.isBullish = true) ∧ IsRising steepCandles ∧
      ((start ⟨2.0, 2.0⟩).run (steepCandles.map .candle)).1.map TrendEntry.reading =
        [⟨99.0, .up, false, false⟩, ⟨110.0, .down, true, false⟩]) ∧
    (new ⟨0.02, 0.2⟩ = .ok (start ⟨0.02, 0.2⟩) ∧ (∀ c ∈ hugeCandles, c.isSane = true) ∧
      (∀ c ∈ hugeCandles.head?, c.isBullish = true) ∧ IsRising hugeCandles ∧
      ((start ⟨0.02, 0.2⟩).run (hugeCandles.map .candle)).1.map TrendEntry.reading =
        [⟨-1.7e308, .up, false, false⟩, ⟨1.0e308, .down, true, false⟩]) := by
  refine ⟨⟨new_eq_ok.mpr ⟨?_, rfl⟩, ?_, ?_, ?_, ?_⟩, new_eq_ok.mpr ⟨?_, rfl⟩, ?_, ?_, ?_, ?_⟩ <;>
    decide +kernel

end TrendDetector

end TrendLadder
