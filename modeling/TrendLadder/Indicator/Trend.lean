import TrendLadder.Indicator.Average
import TrendLadder.Market.Candle
import TrendLadder.Settings.Faults

/-!
# Trailing-stop trend

The trend follows a level that moves toward the extreme price of the trend, faster with every new
extreme. A candle that reaches through the level reverses the trend. A trend is continuous once
three candles in a row have not reversed it.
-/

namespace TrendLadder

/-- The direction of the trend, unknown before the first candle. -/
inductive TrendDirection where
  | up
  | down
  | unknown
deriving DecidableEq, Repr

/-- The state of the trend after a candle. -/
structure TrendState where
  /-- The level at which the trend reverses. -/
  level : Float
  extremePoint : Float
  acceleration : Float
  direction : TrendDirection
  isContinuous : Bool
  /-- The candles in a row that have not reversed the trend. -/
  count : Nat
deriving DecidableEq

/-- What one candle tells about the trend. -/
structure TrendReading where
  value : Float
  direction : TrendDirection
  reversed : Bool
  isContinuous : Bool
deriving DecidableEq

/-- The candles in a row after which a trend is continuous. -/
def continuityThreshold : Nat := 3

namespace TrendState

/-- Before the first candle. -/
def unknown (step : Float) : TrendState := ⟨0.0, 0.0, step, .unknown, false, 0⟩

/-- The first candle sets the direction: up if the price rose, else down. -/
def seed (s : TrendSettings) (c : Candle) : TrendState :=
  if c.isBullish then ⟨c.low, c.high, s.step, .up, false, 0⟩
  else ⟨c.high, c.low, s.step, .down, false, 0⟩

/-- The level for the next candle: the old one moved toward the extreme point. -/
def nextLevel (t : TrendState) : Float :=
  t.level + t.acceleration * (t.extremePoint - t.level)

/-- The trend turned around: the old extreme point is the new level. -/
def reverse (s : TrendSettings) (direction : TrendDirection) (extreme : Float) (t : TrendState) :
    TrendState :=
  ⟨t.extremePoint, extreme, s.step, direction, false, 0⟩

/-- The trend carried on, with a new extreme point and a greater acceleration if there is one. -/
def extend (s : TrendSettings) (newExtreme : Option Float) (t : TrendState) : TrendState where
  level := t.nextLevel
  extremePoint := newExtreme.getD t.extremePoint
  acceleration :=
    if newExtreme.isSome then minNum (t.acceleration + s.step) s.maximum else t.acceleration
  direction := t.direction
  isContinuous := continuityThreshold ≤ t.count + 1
  count := t.count + 1

/-- The state after a later candle, and whether the candle reversed the trend. -/
def advance (s : TrendSettings) (c : Candle) (t : TrendState) : Bool × TrendState :=
  match t.direction with
  | .up =>
    if c.low < t.nextLevel then (true, t.reverse s .down c.low)
    else (false, t.extend s (if t.extremePoint < c.high then some c.high else none))
  | .down =>
    if t.nextLevel < c.high then (true, t.reverse s .up c.high)
    else (false, t.extend s (if c.low < t.extremePoint then some c.low else none))
  | .unknown =>
    (false, { t with isContinuous := continuityThreshold ≤ t.count + 1, count := t.count + 1 })

end TrendState

/-- The trend of the candles seen so far. -/
structure TrendDetector where
  settings : TrendSettings
  state : TrendState
  seen : Nat
  reversed : Bool
deriving DecidableEq

namespace TrendDetector

/-- No candle seen. -/
def start (settings : TrendSettings) : TrendDetector := ⟨settings, .unknown settings.step, 0, false⟩

/-- A detector for valid settings. -/
def new (settings : TrendSettings) : Except SettingsError TrendDetector :=
  settings.validate.map fun _ => start settings

/-- What the latest candle told. -/
def reading (d : TrendDetector) : TrendReading :=
  ⟨d.state.level, d.state.direction, d.reversed, d.state.isContinuous⟩

/-- The detector after one more candle. -/
def next (d : TrendDetector) (c : Candle) : TrendDetector :=
  if d.seen = 0 then { d with state := .seed d.settings c, seen := 1, reversed := false }
  else
    let (reversed, state) := d.state.advance d.settings c
    { d with state := state, seen := d.seen + 1, reversed := reversed }

/-- Takes one more candle. -/
def update (d : TrendDetector) (c : Candle) : TrendReading × TrendDetector :=
  ((d.next c).reading, d.next c)

/-- The latest reading, from the second candle on. -/
def evaluable (d : TrendDetector) : Except InsufficientHistory TrendReading :=
  if d.seen < 2 then .error ⟨2, d.seen⟩ else .ok d.reading

def reset (d : TrendDetector) : TrendDetector := start d.settings

end TrendDetector

end TrendLadder
