import TrendLadder.Signal.Compose

/-!
# Indicators in lock-step

The candle history, the trend and the crossover take every candle together and forget it
together.
-/

namespace TrendLadder

/-- The history, the trend and the crossover. -/
structure Indicators where
  history : History
  trend : TrendDetector
  crossover : CrossoverDetector
deriving DecidableEq

/-- What the indicators tell about one candle. -/
structure Observation where
  /-- The candle before it. -/
  previous : Option Candle
  trend : TrendReading
  crossover : CrossoverReading
deriving DecidableEq

namespace Indicators

/-- No candle seen. -/
def start (s : Settings) (trend : TrendDetector) : Indicators :=
  ⟨.empty s.historyCapacity, trend, .new s.crossover s.historyCapacity⟩

def fits (s : Settings) : Bool :=
  History.fits s.historyCapacity && CrossoverDetector.fits s.historyCapacity

/-- Takes one more candle. -/
def observe (i : Indicators) (c : Candle) : Observation × Indicators :=
  let trend := i.trend.update c
  let crossover := i.crossover.update c.closing
  (⟨i.history.recent.latest, trend.1, crossover.1⟩, ⟨i.history.push c, trend.2, crossover.2⟩)

/-- Forgets all candles. -/
def reset (i : Indicators) : Indicators := ⟨i.history.clear, i.trend.reset, i.crossover.reset⟩

/-- The readings of the latest candle with a verdict on it. -/
def readings (i : Indicators) (pattern : Verdict) : Readings :=
  ⟨i.trend.evaluable, i.crossover.crossover, pattern⟩

end Indicators

end TrendLadder
