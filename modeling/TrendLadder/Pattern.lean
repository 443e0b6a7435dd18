import TrendLadder.Indicator.Trend
import TrendLadder.Market.Account

/-!
# Golden candles

A golden candle has a body of the right size, wicks that are small against it, the direction of
the trend and, if a multiplier is set, enough volume. `PatternValidator.validate` reports every
failed check.
-/

namespace TrendLadder

/-- A candle that passed every check. -/
structure GoldenCandle where
  timestamp : Timestamp
  direction : Direction
  body : Float
  upperWick : Float
  lowerWick : Float
deriving DecidableEq

/-- A failed check of a candle. -/
inductive Flaw where
  | bodyTooSmall (body min : Float)
  | bodyTooLarge (body max : Float)
  | upperWickTooLong (wick limit : Float)
  | lowerWickTooLong (wick limit : Float)
  | trendMismatch (candle : Option Direction) (trend : TrendDirection)
  | volumeTooLow (volume : Nat) (required : Float)
  | noPreviousVolume
deriving DecidableEq

/-- The outcome of checking a candle. -/
inductive Verdict where
  | valid (golden : GoldenCandle)
  | rejected (flaws : List Flaw)
deriving DecidableEq

/-- Why a size is no new lower bound. -/
inductive SizeRefusal where
  | notPositive
  | aboveMaximum (maxSize : Float)
deriving DecidableEq

/-! ## Messages -/

def Direction.text : Direction → String
  | .buy => "Buy"
  | .sell => "Sell"

def TrendDirection.text : TrendDirection → String
  | .up => "Up"
  | .down => "Down"
  | .unknown => "Unknown"

/-- An optional direction in messages. -/
def optionalText : Option Direction → String
  | none => "None"
  | some d => "Some(" ++ d.text ++ ")"

open Number

def Flaw.message : Flaw → String
  | .bodyTooSmall body min => "body " ++ text body ++ " is below the minimum size " ++ text min
  | .bodyTooLarge body max => "body " ++ text body ++ " is above the maximum size " ++ text max
  | .upperWickTooLong wick limit => "upper wick " ++ text wick ++ " exceeds " ++ text limit
  | .lowerWickTooLong wick limit => "lower wick " ++ text wick ++ " exceeds " ++ text limit
  | .trendMismatch candle trend =>
    "candle direction " ++ optionalText candle ++ " does not follow the " ++ trend.text ++ " trend"
  | .volumeTooLow volume required =>
    "tick volume " ++ volume.repr ++ " is below the required " ++ text required
  | .noPreviousVolume => "no previous candle to compare tick volume against"

def SizeRefusal.message : SizeRefusal → String
  | .notPositive => "must be a finite value > 0"
  | .aboveMaximum maxSize => "exceeds the maximum size " ++ text maxSize

/-! ## Verdicts -/

namespace Verdict

/-- The golden candle of a valid verdict. -/
def golden? : Verdict → Option GoldenCandle
  | .valid golden => some golden
  | .rejected _ => none

def isValid (v : Verdict) : Bool := v.golden?.isSome

/-- The failed checks. -/
def flaws : Verdict → List Flaw
  | .valid _ => []
  | .rejected flaws => flaws

end Verdict

/-! ## Checks -/

namespace Candle

/-- The direction in which the price moved. -/
def polarity (c : Candle) : Option Direction :=
  if c.isBullish then some .buy else if c.isBearish then some .sell else none

/-- Whether a candle follows the trend. -/
def follows (c : Candle) (trend : TrendDirection) : Bool :=
  match c.polarity, trend with
  | some .buy, .up => true
  | some .sell, .down => true
  | _, _ => false

end Candle

/-- The flaw `e` if the condition holds. -/
def flawIf (fails : Bool) (e : Flaw) : List Flaw := if fails then [e] else []

/-- The failed check of the body, of which there is at most one. -/
def SizeRule.flaws (rule : SizeRule) (body : Float) : List Flaw :=
  if body < rule.minSize then [.bodyTooSmall body rule.minSize]
  else match rule with
    | .minimum _ => []
    | .band _ maxSize => flawIf (maxSize < body) (.bodyTooLarge body maxSize)

/-- The failed check of the volume against the previous candle. -/
def volumeFlaws (multiplier : Float) (c : Candle) : Option Candle → List Flaw
  | none => [.noPreviousVolume]
  | some previous =>
    let required := previous.tickVolume.toFloat * multiplier
    flawIf (c.tickVolume.toFloat < required) (.volumeTooLow c.tickVolume required)

/-- The failed checks of a candle in their order: size, upper wick, lower wick, trend, volume. -/
def PatternSettings.flaws (s : PatternSettings) (c : Candle) (previous : Option Candle)
    (trend : TrendDirection) : List Flaw :=
  let limit := s.maxWickRatio * c.body
  s.size.flaws c.body ++ flawIf (limit < c.upperWick) (.upperWickTooLong c.upperWick limit) ++
    flawIf (limit < c.lowerWick) (.lowerWickTooLong c.lowerWick limit) ++
    flawIf (!c.follows trend) (.trendMismatch c.polarity trend) ++
    (match s.minVolumeMultiplier with
    | some multiplier => volumeFlaws multiplier c previous
    | none => [])

/-- Checks candles under settings whose lower bound may be moved. -/
structure PatternValidator where
  settings : PatternSettings
deriving DecidableEq

namespace PatternValidator

/-- A validator for valid settings. -/
def new (settings : PatternSettings) : Except SettingsError PatternValidator :=
  settings.validate.map fun _ => ⟨settings⟩

/-- The verdict on a candle. -/
def validate (v : PatternValidator) (c : Candle) (previous : Option Candle)
    (trend : TrendDirection) : Verdict :=
  match c.polarity, v.settings.flaws c previous trend with
  | some direction, [] => .valid ⟨c.timestamp, direction, c.body, c.upperWick, c.lowerWick⟩
  | _, flaws => .rejected flaws

/-- Moves the lower bound of the body size, if the size is one. -/
def adjustMinSize (v : PatternValidator) (size : Float) : Except SizeRefusal PatternValidator :=
  if !isPositive size then .error .notPositive
  else match v.settings.size.maxSize? with
    | some maxSize =>
      if maxSize < size then .error (.aboveMaximum maxSize)
      else .ok ⟨{ v.settings with size := v.settings.size.withMinSize size }⟩
    | none => .ok ⟨{ v.settings with size := v.settings.size.withMinSize size }⟩

end PatternValidator

end TrendLadder
