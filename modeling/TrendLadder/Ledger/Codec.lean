import TrendLadder.Ladder.Codec
import TrendLadder.Ledger.Basic
import TrendLadder.Market.Codec
import TrendLadder.RiskGate.Codec

/-!
# Positions in documents

The document forms of positions, of what happens to them and of rejected openings.
-/

namespace TrendLadder

open Value

namespace Position

def fieldNames : List String :=
  ["id", "direction", "lots", "open_price", "stop_loss", "take_profit", "level_at_open",
    "opened_at", "is_complete", "is_profit", "exit_price"]

def fields (p : Position) : List (String × Value) := [
  ("id", ofNat p.id),
  ("direction", p.direction.encode),
  ("lots", .real p.lots),
  ("open_price", .real p.openPrice),
  ("stop_loss", .real p.stopLoss),
  ("take_profit", .real p.takeProfit),
  ("level_at_open", ofNat p.levelAtOpen),
  ("opened_at", p.openedAt.encode),
  ("is_complete", .bool p.isComplete),
  ("is_profit", .bool p.isProfit),
  ("exit_price", ofOption .real p.exitPrice)]

def encode (p : Position) : Value := .record p.fields

def decode (v : Value) : Option Position := do
  let f ← v.fields? fieldNames
  return {
    id := ← f.required "id" (nat? 64)
    direction := ← f.required "direction" Direction.decode
    lots := ← f.required "lots" float?
    openPrice := ← f.required "open_price" float?
    stopLoss := ← f.required "stop_loss" float?
    takeProfit := ← f.required "take_profit" float?
    levelAtOpen := ← f.required "level_at_open" (nat? 64)
    openedAt := ← f.required "opened_at" Timestamp.decode
    isComplete := ← f.required "is_complete" bool?
    isProfit := ← f.required "is_profit" bool?
    exitPrice := ← f.optional "exit_price" float? }

end Position

namespace ClosedPosition

def fieldNames : List String :=
  ["record", "exit_price", "profit", "outcome", "transition", "closed_at"]

def fields (c : ClosedPosition) : List (String × Value) := [
  ("record", c.record.encode),
  ("exit_price", .real c.exitPrice),
  ("profit", .real c.profit),
  ("outcome", c.outcome.encode),
  ("transition", c.transition.encode),
  ("closed_at", c.closedAt.encode)]

def encode (c : ClosedPosition) : Value := .record c.fields

def decode (v : Value) : Option ClosedPosition := do
  let f ← v.fields? fieldNames
  return {
    record := ← f.required "record" Position.decode
    exitPrice := ← f.required "exit_price" float?
    profit := ← f.required "profit" float?
    outcome := ← f.required "outcome" TradeOutcome.decode
    transition := ← f.required "transition" LevelTransition.decode
    closedAt := ← f.required "closed_at" Timestamp.decode }

end ClosedPosition

namespace PositionEvent

/-- The event as a record tagged with what happened. -/
def encode : PositionEvent → Value
  | .opened p => ofTagged "event" "opened" p.fields
  | .closed c => ofTagged "event" "closed" c.fields

def decode (v : Value) : Option PositionEvent := do
  let (event, body) ← v.tagged? "event"
  if event = "opened" then (Position.decode body).map .opened
  else if event = "closed" then (ClosedPosition.decode body).map .closed
  else none

end PositionEvent

/-- The rejection as its name or as a record of one field, named for what it is. -/
def OpenRejection.encode : OpenRejection → Value
  | .noDirection => .text "NoDirection"
  | .risk violation => .record [("Risk", violation.encode)]
  | .positionLimit openCount max =>
    .record [("PositionLimit", .record [("open", ofNat openCount), ("max", ofNat max)])]
  | .zeroLots => .text "ZeroLots"

end TrendLadder
