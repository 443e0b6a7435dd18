import TrendLadder.Market.Account
import TrendLadder.Market.Candle
import TrendLadder.Time.Codec

/-!
# Market data in documents

The document forms of directions, accounts, quotes and candles.
-/

namespace TrendLadder

open Value

namespace Direction

def names : List (String × Direction) := [("Buy", .buy), ("Sell", .sell)]

def encode : Direction → Value
  | .buy => .text "Buy"
  | .sell => .text "Sell"

def decode : Value → Option Direction := oneOf names

end Direction

namespace Account

def encode (a : Account) : Value :=
  .record [("balance", .real a.balance), ("equity", .real a.equity), ("margin", .real a.margin)]

def decode (v : Value) : Option Account := do
  let f ← v.fields? ["balance", "equity", "margin"]
  return {
    balance := ← f.required "balance" float?
    equity := ← f.required "equity" float?
    margin := ← f.required "margin" float? }

end Account

namespace Quote

def encode (q : Quote) : Value :=
  .record [
    ("bid", .real q.bid),
    ("ask", .real q.ask),
    ("point", .real q.point),
    ("spread_points", ofNat q.spreadPoints)]

def decode (v : Value) : Option Quote := do
  let f ← v.fields? ["bid", "ask", "point", "spread_points"]
  return {
    bid := ← f.required "bid" float?
    ask := ← f.required "ask" float?
    point := ← f.required "point" float?
    spreadPoints := ← f.required "spread_points" (nat? 32) }

end Quote

namespace Candle

def fieldNames : List String :=
  ["timestamp", "open", "high", "low", "close", "tick_volume", "spread"]

def encode (c : Candle) : Value :=
  .record [
    ("timestamp", c.timestamp.encode),
    ("open", .real c.opening),
    ("high", .real c.high),
    ("low", .real c.low),
    ("close", .real c.closing),
    ("tick_volume", ofNat c.tickVolume),
    ("spread", ofNat c.spread)]

def decode (v : Value) : Option Candle := do
  let f ← v.fields? fieldNames
  return {
    timestamp := ← f.required "timestamp" Timestamp.decode
    opening := ← f.required "open" float?
    high := ← f.required "high" float?
    low := ← f.required "low" float?
    closing := ← f.required "close" float?
    tickVolume := ← f.required "tick_volume" (nat? 64)
    spread := ← f.required "spread" (nat? 32) }

end Candle

end TrendLadder
