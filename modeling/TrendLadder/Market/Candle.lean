import TrendLadder.Number.Extremum
import TrendLadder.Time.Timestamp

/-!
# Candles

A candle is one bar of prices. A sane one has finite prices with the high on top and the low at
the bottom.
-/

namespace TrendLadder

/-- The opening, highest, lowest and closing price of one bar, with its volume and spread. -/
structure Candle where
  timestamp : Timestamp
  opening : Float
  high : Float
  low : Float
  closing : Float
  tickVolume : Nat
  spread : Nat
deriving DecidableEq

namespace Candle

/-- The bytes that a candle takes in a buffer: an instant of 12, four prices and a volume of 8 each,
a spread of 4. -/
def bytes : Nat := 12 + 5 * 8 + 4

/-- Whether some price is not a finite number. -/
def isVoid (c : Candle) : Bool :=
  !(c.opening.isFinite && c.high.isFinite && c.low.isFinite && c.closing.isFinite)

/-- Whether the prices are finite and lie between the low and the high. -/
def isSane (c : Candle) : Bool :=
  !c.isVoid && c.low ≤ c.high && c.opening ≤ c.high && c.closing ≤ c.high &&
    c.low ≤ c.opening && c.low ≤ c.closing

/-- Whether the price rose. -/
def isBullish (c : Candle) : Bool := c.opening < c.closing

/-- Whether the price fell. -/
def isBearish (c : Candle) : Bool := c.closing < c.opening

/-- The size of the price change. -/
def body (c : Candle) : Float := (c.closing - c.opening).abs

/-- The distance from the upper end of the body to the high. -/
def upperWick (c : Candle) : Float := c.high - maxNum c.opening c.closing

/-- The distance from the low to the lower end of the body. -/
def lowerWick (c : Candle) : Float := minNum c.opening c.closing - c.low

/-- The distance from the low to the high. -/
def range (c : Candle) : Float := c.high - c.low

end Candle

end TrendLadder
