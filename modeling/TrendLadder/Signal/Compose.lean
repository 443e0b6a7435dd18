import TrendLadder.Indicator.Crossover
import TrendLadder.Pattern
import TrendLadder.Signal.Levels

/-!
# Signals

A signal joins the readings of one candle. A buy needs a fresh up trend with the closing price
above its level, a bullish cross and, unless switched off, a golden candle; a sell needs the
opposite of each.
-/

namespace TrendLadder

/-- What a signal asks for. -/
inductive SignalType where
  | none
  | buy
  | sell
deriving DecidableEq, Repr

namespace SignalType

def direction? : SignalType → Option Direction
  | .none => Option.none
  | .buy => some .buy
  | .sell => some .sell

/-- The signal type that asks for a direction. -/
def ofDirection : Direction → SignalType
  | .buy => .buy
  | .sell => .sell

end SignalType

/-- The outcome of evaluating one candle. -/
structure Signal where
  type : SignalType
  price : Float
  stopLoss : Float
  takeProfit : Float
  lots : Float
  confidence : Float
  timestamp : Timestamp
deriving DecidableEq

namespace Signal

/-- No trade. -/
def none (timestamp : Timestamp) : Signal := ⟨.none, 0.0, 0.0, 0.0, 0.0, 0.0, timestamp⟩

def direction? (s : Signal) : Option Direction := s.type.direction?

def isActionable (s : Signal) : Bool := s.direction?.isSome

end Signal

/-- The size of a trade: its lots, its reward-to-risk ratio and the point of the market. -/
structure Sizing where
  lots : Float
  rewardRatio : Float
  point : Float
deriving DecidableEq

/-- The indicators' view of a candle. A reading that is not evaluable yet is an error. -/
structure Readings where
  trend : Except InsufficientHistory TrendReading
  crossover : Except InsufficientHistory (Option Cross)
  pattern : Verdict

/-- Whether the verdict is a golden candle of the direction. -/
def Verdict.agrees (v : Verdict) (direction : Direction) : Bool :=
  v.golden?.map GoldenCandle.direction = some direction

/-- The direction in which trend, closing price and cross agree. -/
def agreedDirection (c : Candle) (trend : TrendReading) (cross : Option Cross) :
    Option Direction :=
  if trend.isContinuous then Option.none
  else match trend.direction, cross with
    | .up, some .bullish => if trend.value < c.closing then some .buy else Option.none
    | .down, some .bearish => if c.closing < trend.value then some .sell else Option.none
    | _, _ => Option.none

/-- The direction of the signal: the agreed one, with a golden candle where one is required. -/
def SignalSettings.direction? (s : SignalSettings) (c : Candle) (trend : TrendReading)
    (cross : Option Cross) (pattern : Verdict) : Option Direction :=
  (agreedDirection c trend cross).filter fun d => !s.requireGoldenCandle || pattern.agrees d

/-- The summed weights of the indicators that agree, at most one. -/
def ConfidenceWeights.confidence (w : ConfidenceWeights) (golden : Bool) : Float :=
  let base := w.trend + w.crossover
  minNum (if golden then base + w.pattern else base) 1.0

/-- The signal of a candle, or the first reading that is not evaluable. -/
def compose (s : SignalSettings) (pricing : PricingSettings) (c : Candle) (r : Readings)
    (sizing : Sizing) : Except InsufficientHistory Signal := do
  let trend ← r.trend
  let cross ← r.crossover
  match s.direction? c trend cross r.pattern with
  | Option.none => return Signal.none c.timestamp
  | some direction =>
    let levels := priceLevels direction c.closing sizing.point pricing sizing.rewardRatio
    return {
      type := .ofDirection direction
      price := levels.entry
      stopLoss := levels.stopLoss
      takeProfit := levels.takeProfit
      lots := sizing.lots
      confidence := s.weights.confidence (r.pattern.agrees direction)
      timestamp := c.timestamp }

end TrendLadder
