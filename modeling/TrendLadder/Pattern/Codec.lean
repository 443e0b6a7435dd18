import TrendLadder.Indicator.Codec
import TrendLadder.Market.Codec
import TrendLadder.Pattern

/-!
# Verdicts in documents

The document forms of golden candles, of failed checks and of verdicts.
-/

namespace TrendLadder

open Value

namespace GoldenCandle

def encode (g : GoldenCandle) : Value :=
  .record [
    ("timestamp", g.timestamp.encode),
    ("direction", g.direction.encode),
    ("body", .real g.body),
    ("upper_wick", .real g.upperWick),
    ("lower_wick", .real g.lowerWick)]

def decode (v : Value) : Option GoldenCandle := do
  let f ← v.fields? ["timestamp", "direction", "body", "upper_wick", "lower_wick"]
  return {
    timestamp := ← f.required "timestamp" Timestamp.decode
    direction := ← f.required "direction" Direction.decode
    body := ← f.required "body" float?
    upperWick := ← f.required "upper_wick" float?
    lowerWick := ← f.required "lower_wick" float? }

end GoldenCandle

namespace Flaw

/-- The failed check as a record tagged with the reason. -/
def encode : Flaw → Value
  | .bodyTooSmall body min =>
    ofTagged "reason" "body_too_small" [("body", .real body), ("min", .real min)]
  | .bodyTooLarge body max =>
    ofTagged "reason" "body_too_large" [("body", .real body), ("max", .real max)]
  | .upperWickTooLong wick limit =>
    ofTagged "reason" "upper_wick_too_long" [("wick", .real wick), ("limit", .real limit)]
  | .lowerWickTooLong wick limit =>
    ofTagged "reason" "lower_wick_too_long" [("wick", .real wick), ("limit", .real limit)]
  | .trendMismatch candle trend =>
    ofTagged "reason" "trend_mismatch"
      [("candle", ofOption Direction.encode candle), ("trend", trend.encode)]
  | .volumeTooLow volume required =>
    ofTagged "reason" "volume_too_low" [("volume", ofNat volume), ("required", .real required)]
  | .noPreviousVolume => ofTagged "reason" "no_previous_volume" []

/-- A trend mismatch of its fields. -/
def mismatch (body : Value) : Option Flaw := do
  let f ← body.fields? ["candle", "trend"]
  return .trendMismatch (← f.optional "candle" Direction.decode)
    (← f.required "trend" TrendDirection.decode)

/-- The readers of the failed checks by their tags. -/
def readers : List (String × (Value → Option Flaw)) := [
  ("body_too_small", pair? "body" float? "min" float? .bodyTooSmall),
  ("body_too_large", pair? "body" float? "max" float? .bodyTooLarge),
  ("upper_wick_too_long", pair? "wick" float? "limit" float? .upperWickTooLong),
  ("lower_wick_too_long", pair? "wick" float? "limit" float? .lowerWickTooLong),
  ("trend_mismatch", mismatch),
  ("volume_too_low", pair? "volume" (nat? 64) "required" float? .volumeTooLow),
  ("no_previous_volume", fun body => (body.fields? []).map fun _ => .noPreviousVolume)]

def decode : Value → Option Flaw := kinds? "reason" readers

end Flaw

namespace Verdict

/-- The verdict as a record of one field, named for what it is. -/
def encode : Verdict → Value
  | .valid golden => .record [("Valid", golden.encode)]
  | .rejected flaws => .record [("Rejected", .list true (flaws.map Flaw.encode))]

def decode : Value → Option Verdict
  | .record [("Valid", v)] => (GoldenCandle.decode v).map .valid
  | .record [("Rejected", v)] => (v.list? Flaw.decode).map .rejected
  | _ => none

end Verdict

end TrendLadder
