import TrendLadder.Proofs.Engine.Run
import TrendLadder.Proofs.Indicator.Crossover
import TrendLadder.Proofs.Indicator.Trend

/-!
# Indicators and the candles they have seen

The trend and the crossover of an engine have always seen the same candles (`Indicators.Follows`).
So a cross is reported only when both of them can be evaluated, and then what they read off their
state is what they have just reported (`Follows.readings_observe`).
-/

namespace TrendLadder

/-- From the second candle on the reading of the latest candle is evaluable. -/
theorem TrendDetector.evaluable_next {d : TrendDetector} (c : Candle) (h : 1 ≤ d.seen) :
    (d.next c).evaluable = .ok (d.update c).1 := by
  rw [evaluable, seen_next, if_neg (by omega)]
  rfl

namespace Indicators

/-- Trend and crossover have seen these candles, and no others, since the last reset. -/
structure Follows (i : Indicators) (s : Settings) (candles : List Candle) : Prop where
  trend : i.trend.seen = candles.length
  crossover : i.crossover.Follows s.crossover s.historyCapacity (candles.map Candle.closing)

section Follows

variable {s : Settings} {i : Indicators} {candles : List Candle} (valid : s.faults = [])

include valid

theorem follows_start : (Indicators.start s (.start s.trend)).Follows s [] where
  trend := rfl
  crossover := by
    obtain ⟨fast, slow, -⟩ := Settings.averages_of_faults valid
    exact CrossoverDetector.follows_new fast slow

theorem Follows.observe (h : i.Follows s candles) (c : Candle) :
    (i.observe c).2.Follows s (candles ++ [c]) where
  trend := by
    show (i.trend.next c).seen = _
    simp [h.trend]
  crossover := by
    obtain ⟨fast, slow, room⟩ := Settings.averages_of_faults valid
    rw [List.map_append]
    exact (h.crossover.update fast slow room c.closing).2.2

theorem Follows.reset (h : i.Follows s candles) : i.reset.Follows s [] where
  trend := rfl
  crossover := by
    obtain ⟨fast, slow, -⟩ := Settings.averages_of_faults valid
    exact h.crossover.reset fast slow

/-- A cross takes the averages of two bars, so there were at least two candles. -/
theorem Follows.two_le_of_crossover (h : i.Follows s candles) {cross : Option Cross}
    (evaluable : i.crossover.crossover = .ok cross) : 2 ≤ candles.length := by
  obtain ⟨fast, -, room⟩ := Settings.averages_of_faults valid
  by_contra few
  have window : 1 ≤ s.crossover.fast.window := Nat.le_add_right_of_le fast
  have short : (candles.map Candle.closing).length < s.crossover.warmup := by
    rw [List.length_map, CrossoverSettings.warmup]
    omega
  rw [h.crossover.crossover_of_short fast room short] at evaluable
  cases evaluable

/-- After one more candle the readings are what was just reported, or else one of them is missing
and no cross was reported. -/
theorem Follows.readings_observe (h : i.Follows s candles) (c : Candle) (pattern : Verdict) :
    (i.observe c).2.readings pattern =
        ⟨.ok (i.observe c).1.trend, .ok (i.observe c).1.crossover.cross, pattern⟩ ∨
      (i.observe c).1.crossover.cross = none ∧
        ((∃ e, ((i.observe c).2.readings pattern).trend = .error e) ∨
          ∃ e, ((i.observe c).2.readings pattern).crossover = .error e) := by
  have told : (i.observe c).1.crossover.cross =
      (i.observe c).2.crossover.crossover.toOption.join := rfl
  cases evaluable : (i.observe c).2.crossover.crossover with
  | error e =>
    rw [told, evaluable]
    exact .inr ⟨rfl, .inr ⟨e, evaluable⟩⟩
  | ok cross =>
    have two := (h.observe valid c).two_le_of_crossover valid evaluable
    rw [List.length_append, List.length_singleton, ← h.trend] at two
    have trend : (i.observe c).2.trend.evaluable = .ok (i.observe c).1.trend :=
      TrendDetector.evaluable_next c (by omega)
    left
    rw [readings, trend, told, evaluable]
    rfl

end Follows

end Indicators

namespace Engine

/-- An engine has some settings, and its indicators follow some candles. -/
def Observes (s : Settings) (e : Engine) : Prop :=
  e.settings = s ∧ ∃ candles, e.indicators.Follows s candles

theorem keeps_observes {s : Settings} (valid : s.faults = []) : Keeps (Observes s) where
  command := by
    rintro e c ⟨settings, candles, follows⟩
    rw [Observes, settings_after, indicators_after]
    exact ⟨settings, candles, follows⟩
  evaluate := by
    rintro e t - ⟨settings, candles, follows⟩
    exact ⟨settings, _, follows.observe valid t.candle⟩
  close := by
    rintro e id price closedAt ⟨settings, candles, follows⟩
    obtain ⟨book, same⟩ := e.afterClose_eq id price closedAt
    rw [same]
    exact ⟨settings, candles, follows⟩
  forget := by
    rintro e ⟨settings, candles, follows⟩
    exact ⟨settings, _, follows.reset valid⟩

theorem Reached.observes {s : Settings} {e : Engine} (h : Reached s e) : Observes s e :=
  (keeps_observes h.faults_eq_nil).reached
    ⟨rfl, [], Indicators.follows_start h.faults_eq_nil⟩ h

end Engine

end TrendLadder
