import TrendLadder.Document.Value
import TrendLadder.Settings.Basic

/-!
# Settings in documents

`Settings.encode` is the document form of the settings, with every field in its place.
`Settings.decode` reads any part of it and takes the standard values for what is left out; only
the moving averages and the size rule have to be whole.
-/

namespace TrendLadder

open Value

namespace AverageMethod

def names : List (String × AverageMethod) := [("simple", .simple), ("exponential", .exponential)]

def encode : AverageMethod → Value
  | .simple => .text "simple"
  | .exponential => .text "exponential"

def decode : Value → Option AverageMethod := oneOf names

end AverageMethod

namespace TrendSettings

def encode (s : TrendSettings) : Value :=
  .record [("step", .real s.step), ("maximum", .real s.maximum)]

/-- The section of a record, with standard values for what is left out. -/
def decode (v : Value) : Option TrendSettings := do
  let f ← v.fields? ["step", "maximum"]
  return {
    step := ← f.orElse "step" float? standard.step
    maximum := ← f.orElse "maximum" float? standard.maximum }

end TrendSettings

namespace AverageSettings

def encode (s : AverageSettings) : Value :=
  .record [("period", ofNat s.period), ("shift", ofNat s.shift), ("method", s.method.encode)]

/-- The average of a record; only the shift may be left out, and is then zero. -/
def decode (v : Value) : Option AverageSettings := do
  let f ← v.fields? ["period", "shift", "method"]
  return {
    period := ← f.required "period" (nat? 64)
    shift := ← f.orElse "shift" (nat? 64) 0
    method := ← f.required "method" AverageMethod.decode }

end AverageSettings

namespace CrossoverSettings

def encode (s : CrossoverSettings) : Value :=
  .record [("fast", s.fast.encode), ("slow", s.slow.encode)]

def decode (v : Value) : Option CrossoverSettings := do
  let f ← v.fields? ["fast", "slow"]
  return {
    fast := ← f.orElse "fast" AverageSettings.decode standard.fast
    slow := ← f.orElse "slow" AverageSettings.decode standard.slow }

end CrossoverSettings

namespace SizeRule

/-- The rule as a record tagged with its kind. -/
def encode : SizeRule → Value
  | .minimum baseSize => ofTagged "rule" "minimum" [("base_size", .real baseSize)]
  | .band minSize maxSize =>
    ofTagged "rule" "band" [("min_size", .real minSize), ("max_size", .real maxSize)]

def decode (v : Value) : Option SizeRule := do
  let (rule, body) ← v.tagged? "rule"
  if rule = "minimum" then
    let f ← body.fields? ["base_size"]
    return .minimum (← f.required "base_size" float?)
  else if rule = "band" then
    let f ← body.fields? ["min_size", "max_size"]
    return .band (← f.required "min_size" float?) (← f.required "max_size" float?)
  else none

end SizeRule

namespace PatternSettings

def encode (s : PatternSettings) : Value :=
  .record [
    ("max_wick_ratio", .real s.maxWickRatio),
    ("min_volume_multiplier", ofOption .real s.minVolumeMultiplier),
    ("size", s.size.encode)]

def decode (v : Value) : Option PatternSettings := do
  let f ← v.fields? ["max_wick_ratio", "min_volume_multiplier", "size"]
  return {
    maxWickRatio := ← f.orElse "max_wick_ratio" float? standard.maxWickRatio
    minVolumeMultiplier :=
      ← f.orElse "min_volume_multiplier" (nullable float?) standard.minVolumeMultiplier
    size := ← f.orElse "size" SizeRule.decode standard.size }

end PatternSettings

namespace ConfidenceWeights

def encode (s : ConfidenceWeights) : Value :=
  .record [
    ("trend", .real s.trend), ("crossover", .real s.crossover), ("pattern", .real s.pattern)]

def decode (v : Value) : Option ConfidenceWeights := do
  let f ← v.fields? ["trend", "crossover", "pattern"]
  return {
    trend := ← f.orElse "trend" float? standard.trend
    crossover := ← f.orElse "crossover" float? standard.crossover
    pattern := ← f.orElse "pattern" float? standard.pattern }

end ConfidenceWeights

namespace SignalSettings

def encode (s : SignalSettings) : Value :=
  .record [
    ("require_golden_candle", .bool s.requireGoldenCandle), ("weights", s.weights.encode)]

def decode (v : Value) : Option SignalSettings := do
  let f ← v.fields? ["require_golden_candle", "weights"]
  return {
    requireGoldenCandle := ← f.orElse "require_golden_candle" bool? standard.requireGoldenCandle
    weights := ← f.orElse "weights" ConfidenceWeights.decode standard.weights }

end SignalSettings

namespace PricingSettings

def encode (s : PricingSettings) : Value :=
  .record [
    ("entry_offset_points", .real s.entryOffsetPoints),
    ("stop_loss_points", .real s.stopLossPoints)]

def decode (v : Value) : Option PricingSettings := do
  let f ← v.fields? ["entry_offset_points", "stop_loss_points"]
  return {
    entryOffsetPoints := ← f.orElse "entry_offset_points" float? standard.entryOffsetPoints
    stopLossPoints := ← f.orElse "stop_loss_points" float? standard.stopLossPoints }

end PricingSettings

namespace LadderSettings

def encode (s : LadderSettings) : Value :=
  .record [
    ("lot_table", .list true (s.lots.map .real)),
    ("rr_table", .list true (s.rewardRatios.map .real))]

def decode (v : Value) : Option LadderSettings := do
  let f ← v.fields? ["lot_table", "rr_table"]
  return {
    lots := ← f.orElse "lot_table" (list? float?) standard.lots
    rewardRatios := ← f.orElse "rr_table" (list? float?) standard.rewardRatios }

end LadderSettings

namespace RiskSettings

def encode (s : RiskSettings) : Value :=
  .record [
    ("max_drawdown_pct", .real s.maxDrawdownPct),
    ("max_daily_loss_pct", .real s.maxDailyLossPct),
    ("margin_minimum_pct", .real s.marginMinimumPct),
    ("max_spread_points", ofNat s.maxSpreadPoints)]

def decode (v : Value) : Option RiskSettings := do
  let f ← v.fields?
    ["max_drawdown_pct", "max_daily_loss_pct", "margin_minimum_pct", "max_spread_points"]
  return {
    maxDrawdownPct := ← f.orElse "max_drawdown_pct" float? standard.maxDrawdownPct
    maxDailyLossPct := ← f.orElse "max_daily_loss_pct" float? standard.maxDailyLossPct
    marginMinimumPct := ← f.orElse "margin_minimum_pct" float? standard.marginMinimumPct
    maxSpreadPoints := ← f.orElse "max_spread_points" (nat? 32) standard.maxSpreadPoints }

end RiskSettings

namespace PositionSettings

def encode (s : PositionSettings) : Value :=
  .record [
    ("one_trade_at_a_time", .bool s.oneTradeAtATime), ("max_positions", ofNat s.maxPositions)]

def decode (v : Value) : Option PositionSettings := do
  let f ← v.fields? ["one_trade_at_a_time", "max_positions"]
  return {
    oneTradeAtATime := ← f.orElse "one_trade_at_a_time" bool? standard.oneTradeAtATime
    maxPositions := ← f.orElse "max_positions" (nat? 64) standard.maxPositions }

end PositionSettings

namespace Settings

def encode (s : Settings) : Value :=
  .record [
    ("history_capacity", ofNat s.historyCapacity),
    ("trend", s.trend.encode),
    ("crossover", s.crossover.encode),
    ("pattern", s.pattern.encode),
    ("signal", s.signal.encode),
    ("pricing", s.pricing.encode),
    ("money", s.ladder.encode),
    ("risk", s.risk.encode),
    ("positions", s.positions.encode)]

def decode (v : Value) : Option Settings := do
  let f ← v.fields?
    ["history_capacity", "trend", "crossover", "pattern", "signal", "pricing", "money", "risk",
      "positions"]
  return {
    historyCapacity := ← f.orElse "history_capacity" (nat? 64) standard.historyCapacity
    trend := ← f.orElse "trend" TrendSettings.decode standard.trend
    crossover := ← f.orElse "crossover" CrossoverSettings.decode standard.crossover
    pattern := ← f.orElse "pattern" PatternSettings.decode standard.pattern
    signal := ← f.orElse "signal" SignalSettings.decode standard.signal
    pricing := ← f.orElse "pricing" PricingSettings.decode standard.pricing
    ladder := ← f.orElse "money" LadderSettings.decode standard.ladder
    risk := ← f.orElse "risk" RiskSettings.decode standard.risk
    positions := ← f.orElse "positions" PositionSettings.decode standard.positions }

end Settings

end TrendLadder
