import TrendLadder.Proofs.Engine.LockStep
import TrendLadder.Proofs.Signal.Compose

/-!
# Warm-up

A signal needs the trend of a second candle and the averages of two bars. `Settings.missing` says
what is missing for the `n`-th candle that the indicators observe, and `warmup_exact` says that a
report tells just this, whatever bounds the buffers have, and that nothing is done about a candle
as long as something is missing.
-/

namespace TrendLadder

/-- What is missing for a signal on the `n`-th candle: a second candle for the trend, then closing
prices for the averages. -/
def Settings.missing (s : Settings) (n : Nat) : Option InsufficientHistory :=
  if n < 2 then some ⟨2, n⟩
  else if n < s.crossover.warmup then some ⟨s.crossover.warmup, n⟩
  else none

theorem TrendDetector.evaluable_of_short {d : TrendDetector} (h : d.seen < 2) :
    d.evaluable = .error ⟨2, d.seen⟩ := if_pos h

theorem TrendDetector.evaluable_of_long {d : TrendDetector} (h : ¬d.seen < 2) :
    d.evaluable = .ok d.reading := if_neg h

section Compose

variable {s : SignalSettings} {pricing : PricingSettings} {c : Candle} {r : Readings}
  {sizing : Sizing} {e : InsufficientHistory}

theorem compose_of_trend (h : r.trend = .error e) : compose s pricing c r sizing = .error e := by
  unfold compose
  rw [h]
  rfl

theorem compose_of_crossover {trend : TrendReading} (h : r.trend = .ok trend)
    (missing : r.crossover = .error e) : compose s pricing c r sizing = .error e := by
  unfold compose
  rw [h, missing]
  rfl

end Compose

namespace Engine

variable {s : Settings} {e : Engine} {candles : List Candle}

/-- An evaluation tells what is missing for the candle that it observes. -/
theorem failure?_composed (valid : s.faults = []) (h : e.Tracks s candles) (t : Tick) :
    failure? (e.evaluate t).1.composed = s.missing (candles.length + 1) := by
  have composed : (e.evaluate t).1.composed =
      TrendLadder.compose e.settings.signal e.settings.pricing t.candle
        ((e.indicators.observe t.candle).2.readings (e.evaluate t).1.pattern)
        ((e.settled t).sizing t.quote) := rfl
  have follows := h.follows.observe valid t.candle
  have count : (candles ++ [t.candle]).length = candles.length + 1 := List.length_append
  have seen := follows.trend.trans count
  have closings : ((candles ++ [t.candle]).map Candle.closing).length = candles.length + 1 := by
    rw [List.length_map, count]
  obtain ⟨fast, slow, room⟩ := Settings.averages_of_faults valid
  rw [composed, Settings.missing]
  split
  case isTrue first =>
    rw [← seen] at first ⊢
    rw [compose_of_trend (TrendDetector.evaluable_of_short first)]
    rfl
  case isFalse later =>
    rw [← seen] at later
    have trend := TrendDetector.evaluable_of_long later
    split
    case isTrue short =>
      rw [← closings] at short ⊢
      rw [compose_of_crossover trend (follows.crossover.crossover_of_short fast room short)]
      rfl
    case isFalse long =>
      rw [← closings] at long
      obtain ⟨cross, crossover, -⟩ :=
        follows.crossover.crossover_of_long fast slow (Nat.le_of_not_lt long)
      have readings : (e.indicators.observe t.candle).2.readings (e.evaluate t).1.pattern =
          ⟨.ok (e.indicators.observe t.candle).2.trend.reading, .ok cross,
            (e.evaluate t).1.pattern⟩ := by
        rw [Indicators.readings, trend, crossover]
      rw [readings, compose_of_ok]
      rfl

/-- Nothing is done about a tick without a signal. -/
structure IsIdle (e : Engine) (t : Tick) (commands : List Command) : Prop where
  signal : (e.tick t commands).1.signal = .none t.candle.timestamp
  decision : (e.tick t commands).1.decision = .none
  events : ∀ p, .opened p ∉ (e.tick t commands).1.events
  /-- The positions are those that the closes of the tick leave. -/
  ledger : (e.tick t commands).2.book.ledger = ((e.obey commands).2.settled t).book.ledger

theorem isIdle_of_missing {t : Tick} {commands : List Command}
    (accepted : t.screen (e.obey commands).2.latest = none)
    (missing : (e.tick t commands).1.notEvaluable? ≠ none) : e.IsIdle t commands := by
  rw [tick_of_passed accepted] at missing
  have failed : failure? ((e.obey commands).2.evaluate t).1.composed ≠ none := missing
  obtain ⟨reason, composed⟩ :
      ∃ reason, ((e.obey commands).2.evaluate t).1.composed = .error reason := by
    cases composed : ((e.obey commands).2.evaluate t).1.composed with
    | error reason => exact ⟨reason, rfl⟩
    | ok signal =>
      rw [composed] at failed
      exact absurd rfl failed
  have silent : (e.obey commands).2.signalOn t = .none t.candle.timestamp := by
    rw [signalOn, composed]
    rfl
  have idle : (e.obey commands).2.actionOn t =
      ⟨.none, none, ((e.obey commands).2.settled t).book.ledger⟩ := by
    rw [actionOn, silent]
    rfl
  have ticked := tick_of_passed accepted
  constructor
  case signal =>
    rw [ticked]
    exact silent
  case decision =>
    rw [ticked]
    exact congrArg Action.decision idle
  case events =>
    intro p told
    rw [ticked] at told
    have events : ((e.obey commands).2.evaluate t).1.events =
        (((e.obey commands).2.enter t).settle t.candle).1.map .closed ++
          (((e.obey commands).2.actionOn t).opened.map .opened).toList := rfl
    have told : PositionEvent.opened p ∈ ((e.obey commands).2.evaluate t).1.events := told
    rw [events, idle] at told
    simp at told
  case ledger =>
    rw [ticked]
    exact congrArg Action.ledger idle

/-- **The warm-up is exact.** After any calls of a new engine, a tick that is not rejected tells
what is missing for the candle that is then the `n`-th since the indicators last forgot, and nothing
is done about it as long as something is missing. -/
theorem warmup_exact {e0 : Engine} (built : new s = .ok e0) (calls : List Call) (t : Tick)
    (commands : List Command)
    (accepted : ((e0.run calls).2.tick t commands).1.rejection? = none) :
    ((e0.run calls).2.tick t commands).1.notEvaluable? =
        s.missing ((observedCandles (e0.run calls).1).length + 1) ∧
      (((e0.run calls).2.tick t commands).1.notEvaluable? ≠ none →
        (e0.run calls).2.IsIdle t commands) := by
  have obeyed := (tracks_run built calls).obey commands
  rw [rejection?_tick] at accepted
  refine ⟨?_, isIdle_of_missing accepted⟩
  rw [tick_of_passed accepted]
  exact failure?_composed (new_eq_ok.mp built).1 obeyed t

/-- The third candle of the rising market. -/
def thirdRising : Tick := flatTick (hourly 5 112.0 114.5 111.5 114.0)

/-- With a longest window of three prices and a history of three candles, the third candle after a
reset still lacks one price. -/
theorem warmup_exact_tight :
    new tightSettings = .ok (fresh tightSettings) ∧
    (((fresh tightSettings).run (forgetfulCalls.take 7)).2.tick thirdRising []).1.rejection? =
      none ∧
    (((fresh tightSettings).run (forgetfulCalls.take 7)).2.tick thirdRising []).1.notEvaluable? =
      some ⟨4, 3⟩ ∧
    ((fresh tightSettings).run (forgetfulCalls.take 7)).2.IsIdle thirdRising [] := by
  have accepted :
      (((fresh tightSettings).run (forgetfulCalls.take 7)).2.tick thirdRising []).1.rejection? =
        none := by
    decide +kernel
  have observed : (observedCandles ((fresh tightSettings).run (forgetfulCalls.take 7)).1).length =
      2 := by
    decide +kernel
  obtain ⟨missing, idle⟩ :=
    warmup_exact new_tightSettings (forgetfulCalls.take 7) thirdRising [] accepted
  rw [observed] at missing
  exact ⟨new_tightSettings, accepted, missing, idle (by rw [missing]; exact nofun)⟩

end Engine

end TrendLadder
