import TrendLadder.Engine.Basic
import TrendLadder.Market.DayBoundary

/-!
# Replay

A replay feeds candles to an engine. Its account is a balance that only the profits of closed
positions move, its quotes straddle the closing prices, and its days start with the dates of the
candles.
-/

namespace TrendLadder

/-- The market and the account of a replay. -/
structure ReplaySettings where
  /-- The balance at the start. -/
  balance : Float
  /-- The price of one point. -/
  point : Float
  /-- What a lot earns on a price move of one. -/
  contractSize : Float
deriving DecidableEq

namespace ReplaySettings

/-- The settings where none are given. -/
def standard : ReplaySettings := ⟨10000.0, 0.01, 1.0⟩

end ReplaySettings

/-- A replay between two candles. -/
structure Replay where
  engine : Engine
  days : DayBoundary
  balance : Float
deriving DecidableEq

namespace Replay

/-- Before the first candle. -/
def start (s : ReplaySettings) (e : Engine) : Replay := ⟨e, .start, s.balance⟩

def tickOf (s : ReplaySettings) (r : Replay) (c : Candle) : Tick where
  candle := c
  account := .flat r.balance
  quote := .ofClosing c.closing s.point c.spread
  newDay := (r.days.observe c.timestamp).1

/-- A balance after profits in lots. -/
def settle (contractSize : Float) (balance : Float) (profits : List Float) : Float :=
  profits.foldl (fun sum profit => sum + profit * contractSize) balance

/-- Takes one candle. -/
def step (s : ReplaySettings) (r : Replay) (c : Candle) : TickReport × Replay :=
  let ticked := r.engine.tick (r.tickOf s c) []
  (ticked.1, ⟨ticked.2, (r.days.observe c.timestamp).2,
    settle s.contractSize r.balance ticked.1.profits⟩)

/-- Takes candles in turn. -/
def run (s : ReplaySettings) (r : Replay) : List Candle → List TickReport × Replay
  | [] => ([], r)
  | c :: cs =>
    let stepped := r.step s c
    let others := stepped.2.run s cs
    (stepped.1 :: others.1, others.2)

end Replay

/-- Whether a report holds a signal, an event or a decision. -/
def TickReport.isEventful (r : TickReport) : Bool :=
  r.signal.isActionable || !r.events.isEmpty || r.decision ≠ .none

end TrendLadder
