import TrendLadder.Market.Account
import TrendLadder.Number.Extremum
import TrendLadder.Recent
import TrendLadder.Settings.Faults

/-!
# Risk gate

The gate tracks the balance of the account and checks every entry against the limits. All checks
are independent, and each failed one is reported with the measured value and the limit.
-/

namespace TrendLadder

/-- A failed check of an entry. -/
inductive Breach where
  | paused
  | invalidAccount
  | marginLevel (level minimum : Float)
  | drawdown (drawdownPct max : Float)
  | dailyLoss (lossPct max : Float)
  | spread (points max : Nat)
deriving DecidableEq

/-- An entry that the gate refused. -/
structure RiskViolation where
  breaches : List Breach
deriving DecidableEq

open Number

def Breach.message : Breach → String
  | .paused => "trading is paused"
  | .invalidAccount => "account snapshot has non-finite or out-of-range metrics"
  | .marginLevel level minimum =>
    "margin level " ++ rounded 1 level ++ "% is below " ++ text minimum ++ "%"
  | .drawdown pct max => "drawdown " ++ rounded 2 pct ++ "% exceeds " ++ text max ++ "%"
  | .dailyLoss pct max => "daily loss " ++ rounded 2 pct ++ "% exceeds " ++ text max ++ "%"
  | .spread points max => "spread " ++ points.repr ++ " points exceeds " ++ max.repr

def RiskViolation.message (v : RiskViolation) : String :=
  "entry blocked: " ++ "; ".intercalate (v.breaches.map Breach.message)

/-- What the gate remembers of the account. -/
structure RiskState where
  /-- The first balance. -/
  initialBalance : Option Float
  dailyStartBalance : Option Float
  peakBalance : Float
  worstDrawdown : Float
  /-- The profits of the latest closed positions, oldest first. -/
  profits : List Float
deriving DecidableEq

/-- The number of profits that are remembered. -/
def profitCapacity : Nat := 100

/-- The limits and the tracked state. -/
structure RiskGate where
  limits : RiskSettings
  initialBalance : Option Float
  dailyStartBalance : Option Float
  peakBalance : Float
  worstDrawdown : Float
  profits : Recent Float
deriving DecidableEq

namespace RiskGate

/-- Nothing seen yet. -/
def new (limits : RiskSettings) : RiskGate := ⟨limits, none, none, 0.0, 0.0, .empty profitCapacity⟩

/-- The tracked state. -/
def state (g : RiskGate) : RiskState :=
  ⟨g.initialBalance, g.dailyStartBalance, g.peakBalance, g.worstDrawdown, g.profits.items⟩

/-- The greatest balance seen, the initial one included. -/
def peak (g : RiskGate) : Float := maxNum g.peakBalance (g.initialBalance.getD 0.0)

/-- The drawdown of an equity from the peak in percent. -/
def drawdown (g : RiskGate) (equity : Float) : Float :=
  if g.peak ≤ 0.0 then 0.0 else maxNum ((g.peak - equity) / g.peak * 100.0) 0.0

/-- The profit since the start of the day. -/
def dailyProfit (g : RiskGate) (balance : Float) : Float :=
  match g.dailyStartBalance with
  | some start => balance - start
  | none => 0.0

/-- The loss since the start of the day in percent. -/
def dailyLossPct (g : RiskGate) (balance : Float) : Float :=
  match g.dailyStartBalance with
  | some start => if 0.0 < start then maxNum ((start - balance) / start * 100.0) 0.0 else 0.0
  | none => 0.0

/-- Sets both baselines where there is no initial balance yet. -/
def setBaseline (g : RiskGate) (balance : Float) : RiskGate :=
  if g.initialBalance.isNone then
    { g with initialBalance := some balance, dailyStartBalance := some balance }
  else g

/-- Takes the metrics of an account; those of an account that is not sane are ignored. -/
def update (g : RiskGate) (a : Account) : RiskGate :=
  if a.isSane then
    let g := g.setBaseline a.balance
    let g := { g with peakBalance := maxNum g.peakBalance a.balance }
    { g with worstDrawdown := maxNum g.worstDrawdown (g.drawdown a.equity) }
  else g

/-- Starts a day at a balance, which has to be finite and positive. -/
def startDay (g : RiskGate) (balance : Float) : RiskGate :=
  if isPositive balance then
    { g with
      dailyStartBalance := some balance
      initialBalance := some (g.initialBalance.getD balance) }
  else g

/-- Remembers the profit of a closed position. -/
def recordProfit (g : RiskGate) (profit : Float) : RiskGate :=
  { g with profits := g.profits.push profit }

/-! ## Checks -/

/-- The breach `e` if the condition holds. -/
def breachIf (fails : Bool) (e : Breach) : List Breach := if fails then [e] else []

/-- The failed check of the margin; an account without margin in use passes. -/
def marginBreaches (g : RiskGate) (a : Account) : List Breach :=
  match a.marginLevel with
  | some level =>
    breachIf (level < g.limits.marginMinimumPct) (.marginLevel level g.limits.marginMinimumPct)
  | none => []

/-- The failed checks of an account: that it is sane, or else margin, drawdown and daily loss. -/
def accountBreaches (g : RiskGate) (a : Account) : List Breach :=
  if a.isSane then
    let drawdownPct := g.drawdown a.equity
    let lossPct := g.dailyLossPct a.balance
    g.marginBreaches a ++
      breachIf (g.limits.maxDrawdownPct < drawdownPct)
        (.drawdown drawdownPct g.limits.maxDrawdownPct) ++
      breachIf (g.limits.maxDailyLossPct < lossPct) (.dailyLoss lossPct g.limits.maxDailyLossPct)
  else [.invalidAccount]

/-- All failed checks of an entry, in their order. -/
def breaches (g : RiskGate) (a : Account) (q : Quote) (paused : Bool) : List Breach :=
  breachIf paused .paused ++ g.accountBreaches a ++
    breachIf (g.limits.maxSpreadPoints < q.spreadPoints)
      (.spread q.spreadPoints g.limits.maxSpreadPoints)

/-- Lets an entry pass if no check fails. -/
def authorize (g : RiskGate) (a : Account) (q : Quote) (paused : Bool) :
    Except RiskViolation Unit :=
  match g.breaches a q paused with
  | [] => .ok ()
  | bs => .error ⟨bs⟩

/-- An entry passes exactly if no check fails. -/
theorem authorize_eq_ok {g : RiskGate} {a : Account} {q : Quote} {paused : Bool} :
    g.authorize a q paused = .ok () ↔ g.breaches a q paused = [] := by
  unfold authorize
  split
  · next h => exact iff_of_true rfl h
  · next h =>
    exact ⟨nofun, fun h2 => absurd h2 h⟩

theorem authorize_eq_error {g : RiskGate} {a : Account} {q : Quote} {paused : Bool}
    {v : RiskViolation} :
    g.authorize a q paused = .error v ↔
      g.breaches a q paused ≠ [] ∧ v.breaches = g.breaches a q paused := by
  unfold authorize
  split
  · next h => exact ⟨nofun, fun h2 => absurd h h2.1⟩
  · next h =>
    rw [Except.error.injEq]
    exact ⟨fun h2 => ⟨h, h2 ▸ rfl⟩, fun h2 => congrArg RiskViolation.mk h2.2.symm⟩

end RiskGate

end TrendLadder
