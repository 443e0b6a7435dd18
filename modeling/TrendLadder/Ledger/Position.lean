import TrendLadder.Ladder
import TrendLadder.Market.Account
import TrendLadder.Market.Candle

/-!
# Positions

A position is opened with a stop and a target. The first candle that touches one of them completes
it, at the stop if it touches both.
-/

namespace TrendLadder

/-- The number of a position, counted from one. -/
abbrev PositionId := Nat

/-- A position and what became of it. -/
structure Position where
  id : PositionId
  direction : Direction
  lots : Float
  openPrice : Float
  stopLoss : Float
  takeProfit : Float
  /-- The level of the ladder when the position was opened. -/
  levelAtOpen : Nat
  openedAt : Timestamp
  isComplete : Bool
  isProfit : Bool
  exitPrice : Option Float
deriving DecidableEq

namespace Position

/-- The profit of an exit at a price. -/
def profitAt (p : Position) (price : Float) : Float :=
  (price - p.openPrice) * p.direction.sign * p.lots

/-- The price at which a candle makes the position exit, if it does. -/
def exitOn (p : Position) (c : Candle) : Option Float :=
  match p.direction with
  | .buy =>
    if c.low ≤ p.stopLoss then some p.stopLoss
    else if p.takeProfit ≤ c.high then some p.takeProfit
    else none
  | .sell =>
    if p.stopLoss ≤ c.high then some p.stopLoss
    else if c.low ≤ p.takeProfit then some p.takeProfit
    else none

/-- The position with its exit at a price. -/
def exitAt (p : Position) (price : Float) : Position :=
  { p with isComplete := true, isProfit := 0.0 < p.profitAt price, exitPrice := some price }

/-- Whether a candle completes the position, which is then not complete before. -/
def completesOn (p : Position) (c : Candle) : Bool := !p.isComplete && (p.exitOn c).isSome

/-- The position after a candle. -/
def evaluate (p : Position) (c : Candle) : Position :=
  if p.isComplete then p else (p.exitOn c).elim p p.exitAt

end Position

/-- A finished position, its profit and the move of the ladder that it caused. -/
structure ClosedPosition where
  record : Position
  exitPrice : Float
  profit : Float
  outcome : TradeOutcome
  transition : LevelTransition
  closedAt : Timestamp
deriving DecidableEq

/-- What happened to a position. -/
inductive PositionEvent where
  | opened (record : Position)
  | closed (closed : ClosedPosition)
deriving DecidableEq

end TrendLadder
