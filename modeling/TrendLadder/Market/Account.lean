/-!
# Accounts and quotes

The state of the trading account and the prices at which it trades, as a tick reports them.
-/

namespace TrendLadder

/-- The direction of a trade. -/
inductive Direction where
  | buy
  | sell
deriving DecidableEq, Repr

/-- The sign of the profit that a rising price makes. -/
def Direction.sign : Direction → Float
  | .buy => 1.0
  | .sell => -1.0

/-- The metrics of an account at one time. -/
structure Account where
  balance : Float
  equity : Float
  margin : Float
deriving DecidableEq

namespace Account

/-- An account without open exposure. -/
def flat (balance : Float) : Account := ⟨balance, balance, 0.0⟩

/-- Whether the metrics are finite, the balance positive and the margin not negative. -/
def isSane (a : Account) : Bool :=
  a.balance.isFinite && a.equity.isFinite && a.margin.isFinite && 0.0 < a.balance &&
    0.0 ≤ a.margin

/-- The equity as a percentage of the margin in use. -/
def marginLevel (a : Account) : Option Float :=
  if 0.0 < a.margin then some (a.equity / a.margin * 100.0) else none

end Account

/-- The prices of a market at one time. -/
structure Quote where
  bid : Float
  ask : Float
  point : Float
  spreadPoints : Nat
deriving DecidableEq

namespace Quote

/-- Whether the prices are finite and the point is positive. -/
def isSane (q : Quote) : Bool :=
  q.bid.isFinite && q.ask.isFinite && q.point.isFinite && 0.0 < q.point

/-- Bid and ask around a closing price. -/
def ofClosing (closing point : Float) (spreadPoints : Nat) : Quote :=
  let half := point * spreadPoints.toFloat / 2.0
  ⟨closing - half, closing + half, point, spreadPoints⟩

end Quote

end TrendLadder
