import TrendLadder.Proofs.Engine.Entry
import TrendLadder.Proofs.Engine.Signal
import TrendLadder.Proofs.Number.Nonnegative

/-!
# The confidence of signals

The confidence of a trade is the sum of the weights of the indicators that agree, capped at one.
It never exceeds one, whatever the weights: a sum that is no number counts as one. It falls below
zero exactly if that sum does (`confidence_tick`), which weights that are not negative rule out.
Valid settings may hold negative weights, since no check looks at the weights
(`confidence_below_zero`).
-/

namespace TrendLadder

namespace ConfidenceWeights

/-- The summed weights of the indicators that agree. -/
def total (w : ConfidenceWeights) (golden : Bool) : Float :=
  if golden then w.trend + w.crossover + w.pattern else w.trend + w.crossover

/-- No weight is less than zero. A weight may be infinite or no number. -/
structure IsNonnegative (w : ConfidenceWeights) : Prop where
  trend : ¬w.trend < 0.0
  crossover : ¬w.crossover < 0.0
  pattern : ¬w.pattern < 0.0

variable {w : ConfidenceWeights} {golden : Bool}

theorem confidence_eq (w : ConfidenceWeights) (golden : Bool) :
    w.confidence golden = minNum (w.total golden) 1.0 := rfl

theorem confidence_le_one (w : ConfidenceWeights) (golden : Bool) : w.confidence golden ≤ 1.0 := by
  have one : ¬(1.0 : Float).isNaN = true := by decide +kernel
  exact minNum_le one

theorem zero_le_confidence_iff : 0.0 ≤ w.confidence golden ↔ ¬w.total golden < 0.0 := by
  have positive : (0.0 : Float) < 1.0 := by decide +kernel
  rw [confidence_eq]
  exact zero_le_minNum_iff positive

theorem IsNonnegative.total_not_lt_zero (h : w.IsNonnegative) (golden : Bool) :
    ¬w.total golden < 0.0 := by
  have base : ¬w.trend + w.crossover < 0.0 := float_add_not_lt_zero h.trend h.crossover
  unfold total
  split
  · exact float_add_not_lt_zero base h.pattern
  · exact base

end ConfidenceWeights

/-- The confidence of a signal is in its range as far as the weights are. -/
structure Signal.HasConfidence (sig : Signal) (w : ConfidenceWeights) (golden : Bool) : Prop where
  le_one : sig.confidence ≤ 1.0
  idle : sig.isActionable = false → sig.confidence = 0.0
  zero_le_iff : sig.isActionable = true → (0.0 ≤ sig.confidence ↔ ¬w.total golden < 0.0)

namespace Signal

theorem hasConfidence_none (timestamp : Timestamp) (w : ConfidenceWeights) (golden : Bool) :
    (none timestamp).HasConfidence w golden where
  le_one := by
    show (0.0 : Float) ≤ 1.0
    decide +kernel
  idle := fun _ => rfl
  zero_le_iff := nofun

theorem hasConfidence_tradeSignal {s : SignalSettings} {pricing : PricingSettings} {c : Candle}
    {pattern : Verdict} {sizing : Sizing} {d : Direction}
    (agrees : pattern.agrees d = pattern.isValid) :
    (tradeSignal s pricing c pattern sizing d).HasConfidence s.weights pattern.isValid where
  le_one := s.weights.confidence_le_one _
  idle := by
    intro idle
    cases d <;> cases idle
  zero_le_iff := by
    intro
    rw [← agrees]
    exact ConfidenceWeights.zero_le_confidence_iff

variable {sig : Signal} {w : ConfidenceWeights} {golden : Bool}

theorem HasConfidence.zero_le (h : sig.HasConfidence w golden) (nonneg : w.IsNonnegative) :
    0.0 ≤ sig.confidence := by
  cases actionable : sig.isActionable with
  | false =>
    rw [h.idle actionable]
    decide +kernel
  | true => exact (h.zero_le_iff actionable).mpr (nonneg.total_not_lt_zero golden)

end Signal

namespace Engine

variable {s : Settings} {e : Engine}

theorem hasConfidence_evaluate (valid : s.faults = []) (observes : Observes s e) (t : Tick) :
    (e.signalOn t).HasConfidence s.signal.weights (e.evaluate t).1.pattern.isValid := by
  rcases composed_cases valid observes t with ⟨d, justifies, composed⟩ | ⟨-, none⟩
  · rw [signalOn, composed]
    exact Signal.hasConfidence_tradeSignal (e.agrees_evaluate t justifies.direction)
  · rw [none]
    exact Signal.hasConfidence_none _ _ _

/-- **The range of the confidence.** At every reached state the signal of a tick has a confidence
of at most one, and of at least zero if no weight is negative. That of a tick that is not rejected
is negative exactly for a trade whose agreeing weights have a negative sum. -/
theorem confidence_tick (h : Reached s e) (t : Tick) (commands : List Command) :
    (e.tick t commands).1.signal.confidence ≤ 1.0 ∧
    (s.signal.weights.IsNonnegative → 0.0 ≤ (e.tick t commands).1.signal.confidence) ∧
    ∀ x, (e.tick t commands).1.evaluation? = some x →
      (e.tick t commands).1.signal.HasConfidence s.signal.weights x.pattern.isValid := by
  have observes := (keeps_observes h.faults_eq_nil).obey h.observes commands
  cases screened : t.screen (e.obey commands).2.latest with
  | some rejection =>
    have signal : (e.tick t commands).1.signal = .none t.candle.timestamp := by
      rw [tick_of_rejected screened]
      rfl
    have evaluation : (e.tick t commands).1.evaluation? = none := by
      rw [tick_of_rejected screened]
      rfl
    have none := Signal.hasConfidence_none t.candle.timestamp s.signal.weights false
    rw [signal, evaluation]
    refine ⟨none.le_one, none.zero_le, ?_⟩
    rintro x found
    cases found
  | none =>
    have signal : (e.tick t commands).1.signal = (e.obey commands).2.signalOn t := by
      rw [tick_of_passed screened]
      rfl
    have evaluation : (e.tick t commands).1.evaluation? =
        some ((e.obey commands).2.evaluate t).1 := by
      rw [tick_of_passed screened]
      rfl
    have evaluated := hasConfidence_evaluate h.faults_eq_nil observes t
    rw [signal, evaluation]
    refine ⟨evaluated.le_one, evaluated.zero_le, ?_⟩
    rintro x found
    cases found
    exact evaluated

/-- The turn of the falling market has a confidence between zero and one. -/
theorem confidence_tick_turning :
    Reached turningSettings fallenEngine ∧
    turningSettings.signal.weights.IsNonnegative ∧
    (fallenEngine.tick (flatTick turningCandle) []).1.signal.isActionable = true ∧
    0.0 ≤ (fallenEngine.tick (flatTick turningCandle) []).1.signal.confidence := by
  have nonneg : turningSettings.signal.weights.IsNonnegative :=
    ⟨by decide +kernel, by decide +kernel, by decide +kernel⟩
  exact ⟨reached_fallenEngine, nonneg, by decide +kernel,
    (confidence_tick reached_fallenEngine (flatTick turningCandle) []).2.1 nonneg⟩

/-- Settings under which an indicator that agrees takes confidence away. -/
def gloomySettings : Settings :=
  { turningSettings with signal := ⟨true, ⟨-1.0, 0.3, 0.3⟩⟩ }

/-- Valid settings do not keep the confidence of every signal from being negative. -/
theorem confidence_below_zero :
    gloomySettings.validate = .ok () ∧
    ∃ e t, Reached gloomySettings e ∧ (e.tick t []).1.signal.isActionable = true ∧
      (e.tick t []).1.signal.confidence < 0.0 ∧ ¬0.0 ≤ (e.tick t []).1.signal.confidence := by
  have built : Engine.new gloomySettings = .ok (fresh gloomySettings) :=
    new_eq_ok.mpr ⟨by decide +kernel, rfl⟩
  refine ⟨by decide +kernel, ((fresh gloomySettings).run fallingCalls).2, flatTick turningCandle,
    ⟨fresh gloomySettings, fallingCalls, built, rfl⟩, ?_⟩
  decide +kernel

end Engine

end TrendLadder
