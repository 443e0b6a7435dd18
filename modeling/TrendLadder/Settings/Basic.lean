import TrendLadder.Market.History

/-!
# Settings

Every parameter of the engine, section by section, with the values taken where none is given.
-/

namespace TrendLadder

/-- The trailing-stop trend: its acceleration step, which is also the acceleration after every
reversal, and the cap of the acceleration. -/
structure TrendSettings where
  step : Float
  maximum : Float
deriving BEq, DecidableEq

namespace TrendSettings

/-- The section where none is given. -/
def standard : TrendSettings := ⟨0.001, 0.2⟩

end TrendSettings

/-- How a moving average weighs its window. -/
inductive AverageMethod where
  | simple
  | exponential
deriving BEq, DecidableEq, Repr

/-- A moving average over `period` closing prices that end `shift` bars back. -/
structure AverageSettings where
  period : Nat
  shift : Nat
  method : AverageMethod
deriving BEq, DecidableEq, Repr

namespace AverageSettings

/-- The closing prices needed before the average has a value. -/
def window (s : AverageSettings) : Nat := s.period + s.shift

end AverageSettings

/-- The two averages whose crossing is watched. -/
structure CrossoverSettings where
  fast : AverageSettings
  slow : AverageSettings
deriving BEq, DecidableEq, Repr

namespace CrossoverSettings

def standard : CrossoverSettings := ⟨⟨1, 0, .exponential⟩, ⟨3, 1, .exponential⟩⟩

end CrossoverSettings

/-- The bounds of the body of a golden candle. -/
inductive SizeRule where
  /-- At least the base size. -/
  | minimum (baseSize : Float)
  /-- Between two sizes. -/
  | band (minSize maxSize : Float)
deriving BEq, DecidableEq

namespace SizeRule

/-- The lower bound. -/
def minSize : SizeRule → Float
  | .minimum baseSize => baseSize
  | .band minSize _ => minSize

/-- The upper bound, if there is one. -/
def maxSize? : SizeRule → Option Float
  | .minimum _ => none
  | .band _ maxSize => some maxSize

/-- The same rule with another lower bound. -/
def withMinSize (rule : SizeRule) (size : Float) : SizeRule :=
  match rule with
  | .minimum _ => .minimum size
  | .band _ maxSize => .band size maxSize

end SizeRule

/-- What makes a golden candle: wicks that are small against the body, a body of the right size
and, if a multiplier is set, a volume well above the previous candle's. -/
structure PatternSettings where
  maxWickRatio : Float
  minVolumeMultiplier : Option Float
  size : SizeRule
deriving BEq, DecidableEq

namespace PatternSettings

def standard : PatternSettings := ⟨0.5, none, .minimum 0.001⟩

end PatternSettings

/-- The confidence that each agreeing indicator adds to a signal. -/
structure ConfidenceWeights where
  trend : Float
  crossover : Float
  pattern : Float
deriving BEq, DecidableEq

namespace ConfidenceWeights

def standard : ConfidenceWeights := ⟨0.4, 0.3, 0.3⟩

end ConfidenceWeights

/-- How signals are composed. -/
structure SignalSettings where
  /-- Whether an entry needs a golden candle. -/
  requireGoldenCandle : Bool
  weights : ConfidenceWeights
deriving BEq, DecidableEq

namespace SignalSettings

def standard : SignalSettings := ⟨true, .standard⟩

end SignalSettings

/-- The distances of entry and stop, in points. -/
structure PricingSettings where
  entryOffsetPoints : Float
  stopLossPoints : Float
deriving BEq, DecidableEq

namespace PricingSettings

def standard : PricingSettings := ⟨3500.0, 10000.0⟩

end PricingSettings

/-- The tables of the progression ladder: lots and reward-to-risk ratios by level. -/
structure LadderSettings where
  lots : List Float
  rewardRatios : List Float
deriving BEq, DecidableEq

namespace LadderSettings

def standard : LadderSettings := ⟨[0.01], [2.0]⟩

/-- The most levels that a ladder may have. -/
def maxLevels : Nat := 25

/-- The number of levels. -/
def size (s : LadderSettings) : Nat := s.lots.length

end LadderSettings

/-- The limits of the risk gate. -/
structure RiskSettings where
  maxDrawdownPct : Float
  maxDailyLossPct : Float
  marginMinimumPct : Float
  maxSpreadPoints : Nat
deriving BEq, DecidableEq

namespace RiskSettings

def standard : RiskSettings := ⟨20.0, 5.0, 100.0, 20⟩

end RiskSettings

/-- How many positions may be open. -/
structure PositionSettings where
  oneTradeAtATime : Bool
  maxPositions : Nat
deriving BEq, DecidableEq, Repr

namespace PositionSettings

def standard : PositionSettings := ⟨true, 1⟩

/-- The number of positions that may be open at once. -/
def limit (s : PositionSettings) : Nat := if s.oneTradeAtATime then 1 else s.maxPositions

end PositionSettings

/-- All parameters of the engine. -/
structure Settings where
  historyCapacity : Nat
  trend : TrendSettings
  crossover : CrossoverSettings
  pattern : PatternSettings
  signal : SignalSettings
  pricing : PricingSettings
  ladder : LadderSettings
  risk : RiskSettings
  positions : PositionSettings
deriving BEq, DecidableEq

namespace Settings

def standard : Settings where
  historyCapacity := History.defaultCapacity
  trend := .standard
  crossover := .standard
  pattern := .standard
  signal := .standard
  pricing := .standard
  ladder := .standard
  risk := .standard
  positions := .standard

end Settings

end TrendLadder
