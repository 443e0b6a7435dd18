import TrendLadder.Ledger.Position
import TrendLadder.RiskGate
import TrendLadder.Signal.Compose

/-!
# Position ledger

The ledger numbers the positions, keeps the open ones in the order of their numbers and archives
the closed ones. A position opens only if the risk gate and the policy let it, and closing one
moves the ladder and is remembered by the gate.
-/

namespace TrendLadder

/-- Why a position was not opened. -/
inductive OpenRejection where
  | noDirection
  | risk (violation : RiskViolation)
  | positionLimit (openCount max : Nat)
  | zeroLots
deriving DecidableEq

/-- Why a position was not closed. -/
inductive LedgerError where
  | unknownPosition (id : PositionId)
  | notComplete (id : PositionId)
deriving DecidableEq, Repr

def PositionId.text (id : PositionId) : String := "#" ++ id.repr

def OpenRejection.message : OpenRejection → String
  | .noDirection => "signal carries no direction"
  | .risk violation => violation.message
  | .positionLimit openCount max =>
    openCount.repr ++ " positions already open (limit " ++ max.repr ++ ")"
  | .zeroLots => "ladder lot size is zero"

def LedgerError.message : LedgerError → String
  | .unknownPosition id => "position " ++ id.text ++ " is not open"
  | .notComplete id => "position " ++ id.text ++ " has no exit price yet"

/-- The number of closed positions that are kept. -/
def archiveCapacity : Nat := 100

/-- The open and the latest closed positions. -/
structure Ledger where
  policy : PositionSettings
  /-- The number of the latest position, zero before the first. -/
  issued : Nat
  /-- The open positions in the order of their numbers. -/
  openPositions : List Position
  archive : Recent ClosedPosition
deriving DecidableEq

/-- The ladder, the gate and the ledger, which a close changes together. -/
structure Book where
  ladder : Ladder
  gate : RiskGate
  ledger : Ledger
deriving DecidableEq

namespace Ledger

/-- No positions yet. -/
def new (policy : PositionSettings) : Ledger := ⟨policy, 0, [], .empty archiveCapacity⟩

/-- The open position with a number. -/
def find? (l : Ledger) (id : PositionId) : Option Position := l.openPositions.find? (·.id = id)

def openCount (l : Ledger) : Nat := l.openPositions.length

/-- The position that a signal would open next. -/
def nextPosition (l : Ledger) (s : Signal) (direction : Direction) (ladder : Ladder) :
    Position where
  id := l.issued + 1
  direction := direction
  lots := ladder.lotSize
  openPrice := s.price
  stopLoss := s.stopLoss
  takeProfit := s.takeProfit
  levelAtOpen := ladder.level
  openedAt := s.timestamp
  isComplete := false
  isProfit := false
  exitPrice := none

/-- Adds an open position under the next number. -/
def insert (l : Ledger) (p : Position) : Ledger :=
  { l with issued := l.issued + 1, openPositions := l.openPositions ++ [p] }

/-- Opens a position for a signal, if the gate, the policy and the ladder let it. -/
def openFor (l : Ledger) (s : Signal) (ladder : Ladder) (gate : RiskGate) (a : Account)
    (q : Quote) : Except OpenRejection (Position × Ledger) :=
  match s.direction?, gate.authorize a q ladder.paused with
  | none, _ => .error .noDirection
  | some _, .error violation => .error (.risk violation)
  | some direction, .ok () =>
    if l.policy.limit ≤ l.openCount then .error (.positionLimit l.openCount l.policy.limit)
    else if ladder.lotSize ≤ 0.0 then .error .zeroLots
    else
      let p := l.nextPosition s direction ladder
      .ok (p, l.insert p)

/-- The ledger after a candle. -/
def evaluate (l : Ledger) (c : Candle) : Ledger :=
  { l with openPositions := l.openPositions.map (·.evaluate c) }

/-- The numbers of the positions that a candle completes. -/
def completedBy (l : Ledger) (c : Candle) : List PositionId :=
  (l.openPositions.filter (·.completesOn c)).map Position.id

/-- Takes a candle and gives the numbers of the positions that it completes. -/
def update (l : Ledger) (c : Candle) : List PositionId × Ledger := (l.completedBy c, l.evaluate c)

/-- Moves a position to the archive. -/
def archived (l : Ledger) (id : PositionId) (closed : ClosedPosition) : Ledger :=
  { l with
    openPositions := l.openPositions.filter (·.id ≠ id)
    archive := l.archive.push closed }

end Ledger

namespace Book

/-- A position finished at a price, with the move of the ladder that its outcome makes. -/
def finish (b : Book) (p : Position) (exitPrice : Float) (closedAt : Timestamp) : ClosedPosition :=
  let profit := p.profitAt exitPrice
  let outcome := TradeOutcome.ofProfit profit
  ⟨p.exitAt exitPrice, exitPrice, profit, outcome,
    b.ladder.transition (b.ladder.applyOutcome outcome), closedAt⟩

/-- The book after a position was finished. -/
def settle (b : Book) (id : PositionId) (closed : ClosedPosition) : Book where
  ladder := b.ladder.applyOutcome closed.outcome
  gate := b.gate.recordProfit closed.profit
  ledger := b.ledger.archived id closed

/-- Closes an open position at a price. -/
def close (b : Book) (id : PositionId) (exitPrice : Float) (closedAt : Timestamp) :
    Except LedgerError (ClosedPosition × Book) :=
  match b.ledger.find? id with
  | none => .error (.unknownPosition id)
  | some p => .ok (b.finish p exitPrice closedAt, b.settle id (b.finish p exitPrice closedAt))

/-- Closes a completed position at the price that completed it. -/
def closeCompleted (b : Book) (id : PositionId) (closedAt : Timestamp) :
    Except LedgerError (ClosedPosition × Book) :=
  match b.ledger.find? id with
  | none => .error (.unknownPosition id)
  | some p =>
    match p.exitPrice with
    | none => .error (.notComplete id)
    | some price => b.close id price closedAt

/-- Closes completed positions in turn. -/
def closeAll (b : Book) (closedAt : Timestamp) : List PositionId → List ClosedPosition × Book
  | [] => ([], b)
  | id :: ids =>
    match b.closeCompleted id closedAt with
    | .ok (closed, next) =>
      let others := next.closeAll closedAt ids
      (closed :: others.1, others.2)
    | .error _ => b.closeAll closedAt ids

/-- Closes the positions that a candle completes. -/
def take (b : Book) (c : Candle) : List ClosedPosition × Book :=
  { b with ledger := (b.ledger.update c).2 }.closeAll c.timestamp (b.ledger.update c).1

end Book

end TrendLadder
