import TrendLadder.Engine.Report
import TrendLadder.Ledger.Codec
import TrendLadder.Pattern.Codec
import TrendLadder.Signal.Codec

/-!
# Commands, ticks and reports in documents

The document forms of what the engine takes and gives.
-/

namespace TrendLadder

open Value

/-! ## Commands -/

namespace Command

/-- The command as a record of its name and, where it has one, its value. -/
def encode : Command → Value
  | .pause => ofTagged "command" "pause" []
  | .resume => ofTagged "command" "resume" []
  | .skipToLevel level => ofTagged "command" "skip_to_level" [("value", ofNat level)]
  | .adjustMinSize size => ofTagged "command" "adjust_min_candle_size" [("value", .real size)]
  | .ignoreAlert => ofTagged "command" "ignore_current_alert" []

/-- A command without a value; a null may stand in its place. -/
def plain (command : Command) : Option Value → Option Command
  | none => some command
  | some .null => some command
  | some _ => none

/-- The readers of the commands by their names. -/
def readers : List (String × (Option Value → Option Command)) := [
  ("pause", plain .pause),
  ("resume", plain .resume),
  ("skip_to_level", fun value => (value.bind (nat? 64)).map .skipToLevel),
  ("adjust_min_candle_size", fun value => (value.bind float?).map .adjustMinSize),
  ("ignore_current_alert", plain .ignoreAlert)]

/-- The command of a name beside a value. -/
def decode (v : Value) : Option Command := do
  let (name, value) ← v.beside? "command" "value"
  (← readers.lookup name) value

end Command

/-- The refusal as a record of one field, named for what it is. -/
def CommandError.encode : CommandError → Value
  | .levelOutOfRange refusal =>
    .record [("LevelOutOfRange",
      .record [("requested", ofNat refusal.requested), ("max", ofNat refusal.size)])]
  | .invalidSize size reason =>
    .record [("InvalidCandleSize",
      .record [("value", .real size), ("reason", .text reason.message)])]

/-- The status as a record of its name and, for a refusal, the error. -/
def CommandStatus.encode : CommandStatus → Value
  | .applied => ofTagged "status" "applied" []
  | .unchanged => ofTagged "status" "unchanged" []
  | .rejected error => ofTagged "status" "rejected" [("error", error.encode)]

def CommandOutcome.encode (o : CommandOutcome) : Value :=
  .record [("command", o.command.encode), ("status", o.status.encode)]

/-! ## Ticks -/

namespace Tick

def encode (t : Tick) : Value :=
  .record [
    ("candle", t.candle.encode),
    ("account", t.account.encode),
    ("quote", t.quote.encode),
    ("new_day", .bool t.newDay)]

/-- The tick of a record; it starts no day where that is left out. -/
def decode (v : Value) : Option Tick := do
  let f ← v.fields? ["candle", "account", "quote", "new_day"]
  return {
    candle := ← f.required "candle" Candle.decode
    account := ← f.required "account" Account.decode
    quote := ← f.required "quote" Quote.decode
    newDay := ← f.orElse "new_day" bool? false }

end Tick

/-- The rejection as a record tagged with the reason. -/
def TickRejection.encode : TickRejection → Value
  | .insaneCandle => ofTagged "reason" "insane_candle" []
  | .outOfOrder candle latest =>
    ofTagged "reason" "out_of_order" [("at", candle.encode), ("latest", latest.encode)]
  | .invalidAccount => ofTagged "reason" "invalid_account" []
  | .invalidQuote => ofTagged "reason" "invalid_quote" []

/-! ## Reports -/

/-- The decision as a record of its name and what it is about. -/
def Decision.encode : Decision → Value
  | .none => ofTagged "decision" "none" []
  | .opened id => ofTagged "decision" "opened" [("detail", ofNat id)]
  | .blocked rejection => ofTagged "decision" "blocked" [("detail", rejection.encode)]
  | .ignored => ofTagged "decision" "ignored" []

def Snapshot.encode (s : Snapshot) : Value :=
  .record [
    ("level", ofNat s.level),
    ("lot_size", .real s.lotSize),
    ("risk_reward", .real s.rewardRatio),
    ("paused", .bool s.paused),
    ("pending_skip_level", ofOption ofNat s.pendingSkip),
    ("worst_drawdown", .real s.worstDrawdown),
    ("current_drawdown", .real s.drawdown),
    ("daily_profit", .real s.dailyProfit),
    ("open_positions", .list true (s.openPositions.map Position.encode)),
    ("config_fingerprint", .text s.fingerprint)]

def TickReport.fields (r : TickReport) : List (String × Value) := [
  ("timestamp", r.timestamp.encode),
  ("commands", .list true (r.commands.map CommandOutcome.encode)),
  ("rejected", ofOption TickRejection.encode r.rejection?),
  ("trend", ofOption (·.trend.encode) r.evaluation?),
  ("crossover", ofOption (·.crossover.encode) r.evaluation?),
  ("pattern", ofOption (·.pattern.encode) r.evaluation?),
  ("signal", r.signal.encode),
  ("not_evaluable", ofOption InsufficientHistory.encode r.notEvaluable?),
  ("decision", r.decision.encode),
  ("events", .list true (r.events.map PositionEvent.encode)),
  ("snapshot", r.snapshot.encode)]

def TickReport.encode (r : TickReport) : Value := .record r.fields

end TrendLadder
