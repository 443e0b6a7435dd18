import TrendLadder.Signal.Compose

/-!
# When readings agree

Each direction of a trade has a trend, a cross and a side of the trend's level that speak for it.
The readings agree on a direction exactly if all of them do (`agreedDirection_eq_some`), and a
golden candle has the direction of its trend (`agrees_validate`), so that asking for one in the
direction of the trade is asking for a valid verdict.
-/

namespace TrendLadder

namespace Direction

/-- The trend that speaks for a trade. -/
def trend : Direction → TrendDirection
  | .buy => .up
  | .sell => .down

/-- The other direction. -/
def opposite : Direction → Direction
  | .buy => .sell
  | .sell => .buy

/-- The cross that speaks for a trade. -/
def cross : Direction → Cross
  | .buy => .bullish
  | .sell => .bearish

/-- The closing price lies beyond a level, on the side of a trade. -/
def Beyond (d : Direction) (level closing : Float) : Prop :=
  match d with
  | .buy => level < closing
  | .sell => closing < level

@[simp] theorem trend_inj {d d2 : Direction} : d.trend = d2.trend ↔ d = d2 := by
  cases d <;> cases d2 <;> simp [trend]

@[simp] theorem beyond_opposite {d : Direction} {x y : Float} :
    d.opposite.Beyond x y ↔ d.Beyond y x := by
  cases d <;> exact Iff.rfl

end Direction

namespace SignalType

theorem ofDirection_inj {d d2 : Direction} : ofDirection d = ofDirection d2 ↔ d = d2 := by
  cases d <;> cases d2 <;> simp [ofDirection]

theorem ofDirection_ne_none {d : Direction} : ofDirection d ≠ .none := by
  cases d <;> simp [ofDirection]

end SignalType

/-! ## Agreement -/

theorem agreedDirection_eq_some {c : Candle} {trend : TrendReading} {cross : Option Cross}
    {d : Direction} :
    agreedDirection c trend cross = some d ↔ trend.direction = d.trend ∧
      trend.isContinuous = false ∧ d.Beyond trend.value c.closing ∧ cross = some d.cross := by
  obtain ⟨value, direction, reversed, isContinuous⟩ := trend
  unfold agreedDirection
  cases isContinuous with
  | true => simp
  | false =>
    cases direction <;> rcases cross with _ | _ | _ <;> cases d <;>
      simp [Direction.trend, Direction.cross, Direction.Beyond]

/-! ## Golden candles -/

@[simp] theorem flawIf_eq_nil {fails : Bool} {e : Flaw} : flawIf fails e = [] ↔ fails = false := by
  cases fails <;> simp [flawIf]

theorem Candle.follows_iff {c : Candle} {trend : TrendDirection} :
    c.follows trend = true ↔ ∃ d, c.polarity = some d ∧ trend = Direction.trend d := by
  unfold follows
  rcases c.polarity with _ | _ | _ <;> cases trend <;> simp [Direction.trend]

theorem PatternSettings.follows_of_flaws {s : PatternSettings} {c : Candle}
    {previous : Option Candle} {trend : TrendDirection} (h : s.flaws c previous trend = []) :
    c.follows trend = true := by
  unfold flaws at h
  simp only [List.append_eq_nil_iff, flawIf_eq_nil, Bool.not_eq_false'] at h
  exact h.1.2

/-- A golden candle has the direction of its trend, so it agrees with a trade of that direction. -/
theorem agrees_validate (v : PatternValidator) (c : Candle) (previous : Option Candle)
    (d : Direction) :
    (v.validate c previous d.trend).agrees d = (v.validate c previous d.trend).isValid := by
  unfold PatternValidator.validate
  split
  · next direction polar flawless =>
    obtain ⟨d2, polar2, same⟩ :=
      Candle.follows_iff.mp (PatternSettings.follows_of_flaws flawless)
    have directions : direction = d := by
      rw [polar, Option.some.injEq] at polar2
      rw [polar2]
      exact (Direction.trend_inj.mp same).symm
    simp [Verdict.agrees, Verdict.isValid, Verdict.golden?, directions]
  · simp [Verdict.agrees, Verdict.isValid, Verdict.golden?]

/-! ## Composition -/

section Compose

variable {s : SignalSettings} {pricing : PricingSettings} {c : Candle} {trend : TrendReading}
  {cross : Option Cross} {pattern : Verdict} {sizing : Sizing}

/-- The signal of a trade. -/
def tradeSignal (s : SignalSettings) (pricing : PricingSettings) (c : Candle) (pattern : Verdict)
    (sizing : Sizing) (d : Direction) : Signal :=
  let levels := priceLevels d c.closing sizing.point pricing sizing.rewardRatio
  ⟨.ofDirection d, levels.entry, levels.stopLoss, levels.takeProfit, sizing.lots,
    s.weights.confidence (pattern.agrees d), c.timestamp⟩

theorem compose_of_ok :
    compose s pricing c ⟨.ok trend, .ok cross, pattern⟩ sizing =
      .ok ((s.direction? c trend cross pattern).elim (.none c.timestamp)
        (tradeSignal s pricing c pattern sizing)) := by
  unfold compose
  dsimp only [bind, Except.bind]
  cases s.direction? c trend cross pattern <;> rfl

theorem compose_of_missing {r : Readings}
    (h : (∃ e, r.trend = .error e) ∨ ∃ e, r.crossover = .error e) :
    ∃ e, compose s pricing c r sizing = .error e := by
  obtain ⟨readTrend, readCross, pattern⟩ := r
  rcases h with ⟨e, rfl⟩ | ⟨e, rfl⟩
  · exact ⟨e, rfl⟩
  · cases readTrend with
    | error e2 => exact ⟨e2, rfl⟩
    | ok trend => exact ⟨e, rfl⟩

end Compose

end TrendLadder
