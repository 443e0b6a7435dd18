import TrendLadder.Market.Codec
import TrendLadder.Signal.Compose

/-!
# Signals in documents

The document forms of signals and of price levels.
-/

namespace TrendLadder

open Value

namespace SignalType

def names : List (String × SignalType) := [("None", .none), ("Buy", .buy), ("Sell", .sell)]

def encode : SignalType → Value
  | .none => .text "None"
  | .buy => .text "Buy"
  | .sell => .text "Sell"

def decode : Value → Option SignalType := oneOf names

end SignalType

namespace Signal

def encode (s : Signal) : Value :=
  .record [
    ("signal_type", s.type.encode),
    ("price", .real s.price),
    ("stop_loss", .real s.stopLoss),
    ("take_profit", .real s.takeProfit),
    ("lots", .real s.lots),
    ("confidence", .real s.confidence),
    ("timestamp", s.timestamp.encode)]

def decode (v : Value) : Option Signal := do
  let f ← v.fields?
    ["signal_type", "price", "stop_loss", "take_profit", "lots", "confidence", "timestamp"]
  return {
    type := ← f.required "signal_type" SignalType.decode
    price := ← f.required "price" float?
    stopLoss := ← f.required "stop_loss" float?
    takeProfit := ← f.required "take_profit" float?
    lots := ← f.required "lots" float?
    confidence := ← f.required "confidence" float?
    timestamp := ← f.required "timestamp" Timestamp.decode }

end Signal

end TrendLadder
