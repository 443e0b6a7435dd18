import TrendLadder.Document.Value
import TrendLadder.Ladder

/-!
# Ladders in documents

The document forms of trade outcomes, of level transitions and of the ladder.
-/

namespace TrendLadder

open Value

namespace TradeOutcome

def names : List (String × TradeOutcome) :=
  [("Win", .win), ("Loss", .loss), ("Breakeven", .breakeven)]

def encode : TradeOutcome → Value
  | .win => .text "Win"
  | .loss => .text "Loss"
  | .breakeven => .text "Breakeven"

def decode : Value → Option TradeOutcome := oneOf names

end TradeOutcome

namespace LevelTransition

def encode (t : LevelTransition) : Value :=
  .record [("from", ofNat t.before), ("to", ofNat t.after)]

def decode (v : Value) : Option LevelTransition := do
  let f ← v.fields? ["from", "to"]
  return { before := ← f.required "from" (nat? 64), after := ← f.required "to" (nat? 64) }

end LevelTransition

namespace Ladder

def encode (l : Ladder) : Value :=
  .record [
    ("current_level", ofNat l.level),
    ("lot_table", .list true (l.lots.map .real)),
    ("rr_table", .list true (l.rewardRatios.map .real)),
    ("paused", .bool l.paused),
    ("pending_skip_level", ofOption ofNat l.pendingSkip)]

def decode (v : Value) : Option Ladder := do
  let f ← v.fields? ["current_level", "lot_table", "rr_table", "paused", "pending_skip_level"]
  return {
    level := ← f.required "current_level" (nat? 64)
    lots := ← f.required "lot_table" (list? float?)
    rewardRatios := ← f.required "rr_table" (list? float?)
    paused := ← f.required "paused" bool?
    pendingSkip := ← f.optional "pending_skip_level" (nat? 64) }

end Ladder

end TrendLadder
