import TrendLadder.Document.Value
import TrendLadder.Indicator.Crossover
import TrendLadder.Indicator.Trend

/-!
# Indicator readings in documents

The document forms of trends and crossovers.
-/

namespace TrendLadder

open Value

/-- What is missing, as a record. -/
def InsufficientHistory.encode (e : InsufficientHistory) : Value :=
  .record [("needed", ofNat e.needed), ("available", ofNat e.available)]

namespace TrendDirection

def names : List (String × TrendDirection) :=
  [("Up", .up), ("Down", .down), ("Unknown", .unknown)]

def encode : TrendDirection → Value
  | .up => .text "Up"
  | .down => .text "Down"
  | .unknown => .text "Unknown"

def decode : Value → Option TrendDirection := oneOf names

end TrendDirection

namespace TrendState

def encode (t : TrendState) : Value :=
  .record [
    ("current_value", .real t.level),
    ("extreme_point", .real t.extremePoint),
    ("acceleration_factor", .real t.acceleration),
    ("direction", t.direction.encode),
    ("is_continuous", .bool t.isContinuous),
    ("consecutive_count", ofNat t.count)]

def decode (v : Value) : Option TrendState := do
  let f ← v.fields?
    ["current_value", "extreme_point", "acceleration_factor", "direction", "is_continuous",
      "consecutive_count"]
  return {
    level := ← f.required "current_value" float?
    extremePoint := ← f.required "extreme_point" float?
    acceleration := ← f.required "acceleration_factor" float?
    direction := ← f.required "direction" TrendDirection.decode
    isContinuous := ← f.required "is_continuous" bool?
    count := ← f.required "consecutive_count" (nat? 32) }

end TrendState

namespace TrendReading

def encode (r : TrendReading) : Value :=
  .record [
    ("value", .real r.value),
    ("direction", r.direction.encode),
    ("reversed", .bool r.reversed),
    ("is_continuous", .bool r.isContinuous)]

def decode (v : Value) : Option TrendReading := do
  let f ← v.fields? ["value", "direction", "reversed", "is_continuous"]
  return {
    value := ← f.required "value" float?
    direction := ← f.required "direction" TrendDirection.decode
    reversed := ← f.required "reversed" bool?
    isContinuous := ← f.required "is_continuous" bool? }

end TrendReading

namespace Cross

def names : List (String × Cross) := [("Bullish", .bullish), ("Bearish", .bearish)]

def encode : Cross → Value
  | .bullish => .text "Bullish"
  | .bearish => .text "Bearish"

def decode : Value → Option Cross := oneOf names

end Cross

namespace CrossoverReading

def encode (r : CrossoverReading) : Value :=
  .record [
    ("fast", ofOption .real r.fast),
    ("slow", ofOption .real r.slow),
    ("cross", ofOption Cross.encode r.cross)]

def decode (v : Value) : Option CrossoverReading := do
  let f ← v.fields? ["fast", "slow", "cross"]
  return {
    fast := ← f.optional "fast" float?
    slow := ← f.optional "slow" float?
    cross := ← f.optional "cross" Cross.decode }

end CrossoverReading

end TrendLadder
