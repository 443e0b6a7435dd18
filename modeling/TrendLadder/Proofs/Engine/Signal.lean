import TrendLadder.Proofs.Engine.Indicators
import TrendLadder.Proofs.Signal.Compose

/-!
# Signals and the readings that justify them

`Evaluation.Justifies` says when the readings that an evaluation reports ask for a trade.
`signal_justified` says that at every reached state the signal of a tick is the trade that the
reported readings ask for, sized by the ladder after the closes of the tick, and no signal at all
where they ask for none: the signal is composed of readings taken from the state of the indicators,
and those are the reported ones whenever a cross is reported.
-/

namespace TrendLadder

/-- The readings that an evaluation reports ask for a trade in a direction. -/
structure Evaluation.Justifies (x : Evaluation) (s : SignalSettings) (c : Candle) (d : Direction) :
    Prop where
  direction : x.trend.direction = d.trend
  fresh : x.trend.isContinuous = false
  beyond : d.Beyond x.trend.value c.closing
  crossed : x.crossover.cross = some d.cross
  golden : s.requireGoldenCandle = true → x.pattern.isValid = true

/-- The direction of a signal is the one that its readings ask for, where a verdict agrees with the
direction of its trend exactly if it is valid. -/
theorem SignalSettings.direction?_eq_some {s : SignalSettings} {c : Candle} {x : Evaluation}
    {d : Direction}
    (agrees : x.trend.direction = d.trend → x.pattern.agrees d = x.pattern.isValid) :
    s.direction? c x.trend x.crossover.cross x.pattern = some d ↔ x.Justifies s c d := by
  rw [direction?, Option.filter_eq_some_iff, agreedDirection_eq_some, Bool.or_eq_true,
    Bool.not_eq_true']
  constructor
  · rintro ⟨⟨direction, fresh, beyond, crossed⟩, golden⟩
    refine ⟨direction, fresh, beyond, crossed, fun required => ?_⟩
    rw [← agrees direction]
    exact golden.resolve_left (by simp [required])
  · rintro ⟨direction, fresh, beyond, crossed, golden⟩
    refine ⟨⟨direction, fresh, beyond, crossed⟩, ?_⟩
    rw [agrees direction]
    cases required : s.requireGoldenCandle with
    | false => exact .inl rfl
    | true => exact .inr (golden required)

/-- The signal that a report tells is the one that the reported readings ask for, where `l` is the
ladder after the closes of the tick. -/
structure TickReport.Justified (r : TickReport) (s : Settings) (t : Tick) (x : Evaluation)
    (l : Ladder) : Prop where
  type_iff : ∀ d, r.signal.type = .ofDirection d ↔ x.Justifies s.signal t.candle d
  idle : r.signal.type = .none → r.signal = ⟨.none, 0.0, 0.0, 0.0, 0.0, 0.0, t.candle.timestamp⟩
  levels : ∀ d, r.signal.type = .ofDirection d →
    ⟨r.signal.price, r.signal.stopLoss, r.signal.takeProfit⟩ =
      priceLevels d t.candle.closing t.quote.point s.pricing l.rewardRatio
  lots : r.signal.isActionable = true → r.signal.lots = l.lotSize
  confidence : r.signal.isActionable = true → r.signal.confidence =
    minNum (if x.pattern.isValid then
      s.signal.weights.trend + s.signal.weights.crossover + s.signal.weights.pattern
    else s.signal.weights.trend + s.signal.weights.crossover) 1.0
  evaluable : r.signal.isActionable = true → r.notEvaluable? = none

namespace TickReport

variable {r : TickReport} {s : Settings} {t : Tick} {x : Evaluation} {l : Ladder}

theorem justified_of_trade {d : Direction} (justifies : x.Justifies s.signal t.candle d)
    (agrees : x.pattern.agrees d = x.pattern.isValid)
    (trade : r.signal = tradeSignal s.signal s.pricing t.candle x.pattern
      ⟨l.lotSize, l.rewardRatio, t.quote.point⟩ d)
    (evaluable : r.notEvaluable? = none) : r.Justified s t x l := by
  have type (d2 : Direction) : r.signal.type = .ofDirection d2 ↔ d = d2 := by
    rw [trade]
    exact SignalType.ofDirection_inj
  constructor
  case type_iff =>
    intro d2
    rw [type]
    constructor
    · rintro rfl
      exact justifies
    · intro other
      exact Direction.trend_inj.mp (justifies.direction.symm.trans other.direction)
  case idle =>
    intro none
    rw [trade] at none
    exact absurd none SignalType.ofDirection_ne_none
  case levels =>
    intro d2 h
    rw [(type d2).mp h] at trade
    rw [trade]
    rfl
  case lots =>
    intro
    rw [trade]
    rfl
  case confidence =>
    intro
    rw [trade, ← agrees]
    rfl
  case evaluable => exact fun _ => evaluable

theorem justified_of_none (unjustified : ∀ d, ¬x.Justifies s.signal t.candle d)
    (none : r.signal = .none t.candle.timestamp) : r.Justified s t x l := by
  have idle : ¬r.signal.isActionable = true := by
    rw [none]
    exact Bool.false_ne_true
  have type (d : Direction) : ¬r.signal.type = .ofDirection d := by
    rw [none]
    exact SignalType.ofDirection_ne_none.symm
  constructor
  case type_iff => exact fun d => iff_of_false (type d) (unjustified d)
  case idle => exact fun _ => none
  case levels => exact fun d h => absurd h (type d)
  case lots => exact fun h => absurd h idle
  case confidence => exact fun h => absurd h idle
  case evaluable => exact fun h => absurd h idle

end TickReport

namespace Engine

variable {s : Settings} {e : Engine}

theorem agrees_evaluate (e : Engine) (t : Tick) {d : Direction}
    (h : (e.evaluate t).1.trend.direction = d.trend) :
    (e.evaluate t).1.pattern.agrees d = (e.evaluate t).1.pattern.isValid := by
  have judged : (e.evaluate t).1.pattern = (e.settled t).pattern.validate t.candle
    (e.indicators.observe t.candle).1.previous (e.evaluate t).1.trend.direction := rfl
  rw [judged, h]
  exact agrees_validate _ _ _ d

/-- What an evaluation composes: the trade that its readings ask for, or no signal. -/
theorem composed_cases (valid : s.faults = []) (observes : Observes s e) (t : Tick) :
    (∃ d, (e.evaluate t).1.Justifies s.signal t.candle d ∧
      (e.evaluate t).1.composed = .ok (tradeSignal s.signal s.pricing t.candle
        (e.evaluate t).1.pattern ((e.settled t).sizing t.quote) d)) ∨
    (∀ d, ¬(e.evaluate t).1.Justifies s.signal t.candle d) ∧
      e.signalOn t = .none t.candle.timestamp := by
  obtain ⟨rfl, candles, follows⟩ := observes
  have composed : (e.evaluate t).1.composed =
      TrendLadder.compose e.settings.signal e.settings.pricing t.candle
        ((e.indicators.observe t.candle).2.readings (e.evaluate t).1.pattern)
        ((e.settled t).sizing t.quote) := rfl
  rcases follows.readings_observe valid t.candle (e.evaluate t).1.pattern with
    readings | ⟨uncrossed, missing⟩
  · have direction {d : Direction} := SignalSettings.direction?_eq_some
      (s := e.settings.signal) (c := t.candle) (e.agrees_evaluate t (d := d))
    have told : (e.indicators.observe t.candle).1.trend = (e.evaluate t).1.trend ∧
      (e.indicators.observe t.candle).1.crossover = (e.evaluate t).1.crossover := ⟨rfl, rfl⟩
    rw [readings, compose_of_ok, told.1, told.2] at composed
    cases asked : e.settings.signal.direction? t.candle (e.evaluate t).1.trend
        (e.evaluate t).1.crossover.cross (e.evaluate t).1.pattern with
    | none =>
      right
      refine ⟨fun d justifies => ?_, ?_⟩
      · rw [direction.mpr justifies] at asked
        cases asked
      · rw [signalOn, composed, asked]
        rfl
    | some d =>
      left
      rw [composed, asked]
      exact ⟨d, direction.mp asked, rfl⟩
  · obtain ⟨e1, failed⟩ := compose_of_missing missing
    right
    refine ⟨fun d justifies => ?_, ?_⟩
    · cases uncrossed.symm.trans justifies.crossed
    · rw [signalOn, composed, failed]
      rfl

theorem justified_evaluate (valid : s.faults = []) (observes : Observes s e) {t : Tick}
    {r : TickReport} (result : r.result = .ok (e.evaluate t).1)
    (timestamp : r.timestamp = t.candle.timestamp) :
    r.Justified s t (e.evaluate t).1 (e.settled t).book.ladder := by
  have signal : r.signal = e.signalOn t := by
    rw [TickReport.signal, TickReport.evaluation?, result, timestamp]
    rfl
  have missing : r.notEvaluable? = failure? (e.evaluate t).1.composed := by
    rw [TickReport.notEvaluable?, TickReport.evaluation?, result]
    rfl
  rcases composed_cases valid observes t with ⟨d, justifies, composed⟩ | ⟨unjustified, none⟩
  · refine TickReport.justified_of_trade justifies (e.agrees_evaluate t justifies.direction) ?_ ?_
    · rw [signal, signalOn, composed]
      rfl
    · rw [missing, composed]
      rfl
  · exact TickReport.justified_of_none unjustified (signal.trans none)

/-- **Signals are what the reported readings justify.** At every reached state the signal of a tick
that is not rejected is the trade that the readings of its report ask for, at the lots and the
reward ratio of the ladder after the closes of the tick, which it leaves as it is. -/
theorem signal_justified (h : Reached s e) (t : Tick) (commands : List Command)
    (accepted : (e.tick t commands).1.rejection? = none) :
    ∃ x, (e.tick t commands).1.evaluation? = some x ∧
      (e.tick t commands).1.Justified s t x ((e.obey commands).2.settled t).book.ladder ∧
      (e.tick t commands).2.book.ladder = ((e.obey commands).2.settled t).book.ladder := by
  have observes := (keeps_observes h.faults_eq_nil).obey h.observes commands
  rw [rejection?_tick] at accepted
  rw [tick_of_passed accepted]
  exact ⟨_, rfl, justified_evaluate h.faults_eq_nil observes rfl rfl, rfl⟩

/-- The candle that turns a falling market is a buy with a golden candle, and the skip that comes
with it sets its size. -/
theorem signal_justified_turning :
    Reached turningSettings fallenEngine ∧
    (fallenEngine.tick (flatTick turningCandle) [.skipToLevel 3]).1.rejection? = none ∧
    (fallenEngine.tick (flatTick turningCandle) [.skipToLevel 3]).1.signal.type = .buy ∧
    (fallenEngine.tick (flatTick turningCandle) [.skipToLevel 3]).1.signal.lots = 0.04 := by
  have reached : Reached turningSettings fallenEngine :=
    ⟨fresh turningSettings, fallingCalls, new_turningSettings, rfl⟩
  have accepted :
      (fallenEngine.tick (flatTick turningCandle) [.skipToLevel 3]).1.rejection? = none := by
    decide +kernel
  obtain ⟨x, -, justified, -⟩ :=
    signal_justified reached (flatTick turningCandle) [.skipToLevel 3] accepted
  have actionable :
      (fallenEngine.tick (flatTick turningCandle) [.skipToLevel 3]).1.signal.isActionable =
        true := by
    decide +kernel
  refine ⟨reached, accepted, by decide +kernel, ?_⟩
  rw [justified.lots actionable]
  decide +kernel

end Engine

end TrendLadder
