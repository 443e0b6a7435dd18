import TrendLadder.Document.Value
import TrendLadder.RiskGate

/-!
# Risk in documents

The document forms of failed checks, of refusals and of the state of the gate.
-/

namespace TrendLadder

open Value

namespace Breach

/-- The failed check as a record tagged with the check. -/
def encode : Breach → Value
  | .paused => ofTagged "check" "paused" []
  | .invalidAccount => ofTagged "check" "invalid_account" []
  | .marginLevel level minimum =>
    ofTagged "check" "margin_level" [("level", .real level), ("minimum", .real minimum)]
  | .drawdown drawdownPct max =>
    ofTagged "check" "drawdown" [("drawdown_pct", .real drawdownPct), ("max", .real max)]
  | .dailyLoss lossPct max =>
    ofTagged "check" "daily_loss" [("loss_pct", .real lossPct), ("max", .real max)]
  | .spread points max =>
    ofTagged "check" "spread" [("spread", ofNat points), ("max", ofNat max)]

/-- A failed check without numbers. -/
def plain (breach : Breach) (body : Value) : Option Breach :=
  (body.fields? []).map fun _ => breach

/-- The readers of the failed checks by their tags. -/
def readers : List (String × (Value → Option Breach)) := [
  ("paused", plain .paused),
  ("invalid_account", plain .invalidAccount),
  ("margin_level", pair? "level" float? "minimum" float? .marginLevel),
  ("drawdown", pair? "drawdown_pct" float? "max" float? .drawdown),
  ("daily_loss", pair? "loss_pct" float? "max" float? .dailyLoss),
  ("spread", pair? "spread" (nat? 32) "max" (nat? 32) .spread)]

def decode : Value → Option Breach := kinds? "check" readers

end Breach

namespace RiskViolation

def encode (v : RiskViolation) : Value :=
  .record [("breaches", .list true (v.breaches.map Breach.encode))]

def decode (v : Value) : Option RiskViolation := do
  let f ← v.fields? ["breaches"]
  return ⟨← f.required "breaches" (list? Breach.decode)⟩

end RiskViolation

namespace RiskState

def encode (s : RiskState) : Value :=
  .record [
    ("initial_balance", ofOption .real s.initialBalance),
    ("daily_start_balance", ofOption .real s.dailyStartBalance),
    ("peak_balance", .real s.peakBalance),
    ("worst_drawdown", .real s.worstDrawdown),
    ("profit_history", .list true (s.profits.map .real))]

def decode (v : Value) : Option RiskState := do
  let f ← v.fields?
    ["initial_balance", "daily_start_balance", "peak_balance", "worst_drawdown", "profit_history"]
  return {
    initialBalance := ← f.optional "initial_balance" float?
    dailyStartBalance := ← f.optional "daily_start_balance" float?
    peakBalance := ← f.required "peak_balance" float?
    worstDrawdown := ← f.required "worst_drawdown" float?
    profits := ← f.required "profit_history" (list? float?) }

end RiskState

end TrendLadder
