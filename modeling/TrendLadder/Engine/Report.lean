import TrendLadder.Engine.Command
import TrendLadder.Ledger.Basic

/-!
# Ticks and reports

A `Tick` is everything that the host supplies with one candle, and a `TickReport` everything that it
gets back: the evaluation of the tick or the reason why there is none, and a snapshot of the
state.
-/

namespace TrendLadder

/-- A candle with the account and the quote at its close. -/
structure Tick where
  candle : Candle
  account : Account
  quote : Quote
  /-- Whether the tick is the first of a trading day. -/
  newDay : Bool
deriving DecidableEq

/-- Why a tick was not evaluated. -/
inductive TickRejection where
  | insaneCandle
  | outOfOrder (candle latest : Timestamp)
  | invalidAccount
  | invalidQuote
deriving DecidableEq

def TickRejection.message : TickRejection → String
  | .insaneCandle => "candle fails the OHLC sanity check"
  | .outOfOrder candle latest =>
    "candle at " ++ candle.text ++ " is not after the latest candle at " ++ latest.text
  | .invalidAccount => "account snapshot has non-finite or out-of-range metrics"
  | .invalidQuote => "quote point must be finite and > 0"

namespace Tick

/-- The rejection `e` if the condition holds. -/
def rejectIf (fails : Bool) (e : TickRejection) : List TickRejection := if fails then [e] else []

theorem rejectIf_eq_nil {fails : Bool} {e : TickRejection} :
    rejectIf fails e = [] ↔ fails = false := by
  cases fails <;> simp [rejectIf]

/-- The rejection of a candle that is not newer than the latest one. -/
def orderFaults (t : Tick) : Option Timestamp → List TickRejection
  | none => []
  | some latest =>
    rejectIf (!(latest < t.candle.timestamp : Bool)) (.outOfOrder t.candle.timestamp latest)

/-- Everything that speaks against a tick, in the order of the checks. -/
def faults (t : Tick) (latest : Option Timestamp) : List TickRejection :=
  rejectIf (!t.candle.isSane) .insaneCandle ++ t.orderFaults latest ++
    rejectIf (!t.account.isSane) .invalidAccount ++ rejectIf (!t.quote.isSane) .invalidQuote

/-- The first thing that speaks against a tick. -/
def screen (t : Tick) (latest : Option Timestamp) : Option TickRejection := (t.faults latest).head?

/-- A tick passes the screen exactly if nothing speaks against its parts. -/
theorem screen_eq_none {t : Tick} {latest : Option Timestamp} :
    t.screen latest = none ↔ t.candle.isSane = true ∧ t.orderFaults latest = [] ∧
      t.account.isSane = true ∧ t.quote.isSane = true := by
  rw [screen, List.head?_eq_none_iff]
  simp only [faults, List.append_eq_nil_iff, rejectIf_eq_nil, Bool.not_eq_false', and_assoc]

end Tick

/-- What became of a signal. -/
inductive Decision where
  /-- There was nothing to act on. -/
  | none
  | opened (id : PositionId)
  | blocked (rejection : OpenRejection)
  /-- The operator let the signal pass. -/
  | ignored
deriving DecidableEq

/-- The state that a host sees. -/
structure Snapshot where
  level : Nat
  lotSize : Float
  rewardRatio : Float
  paused : Bool
  pendingSkip : Option Nat
  worstDrawdown : Float
  drawdown : Float
  dailyProfit : Float
  openPositions : List Position
  fingerprint : String
deriving DecidableEq

/-- The evaluation of a tick. -/
structure Evaluation where
  trend : TrendReading
  crossover : CrossoverReading
  pattern : Verdict
  /-- The signal, or what is missing for one. -/
  composed : Except InsufficientHistory Signal
  decision : Decision
  /-- The closed positions, then the opened one. -/
  events : List PositionEvent

/-- What a tick led to. -/
structure TickReport where
  timestamp : Timestamp
  commands : List CommandOutcome
  result : Except TickRejection Evaluation
  snapshot : Snapshot

/-- The signal of a composition; none where something is missing. -/
def signalOr (timestamp : Timestamp) (composed : Except InsufficientHistory Signal) : Signal :=
  composed.toOption.getD (.none timestamp)

/-- The error of a result. -/
def failure? {ε α : Type} : Except ε α → Option ε
  | .error e => some e
  | .ok _ => none

namespace TickReport

def rejection? (r : TickReport) : Option TickRejection := failure? r.result

def evaluation? (r : TickReport) : Option Evaluation := r.result.toOption

/-- The signal; none for a tick that was not evaluated. -/
def signal (r : TickReport) : Signal :=
  match r.evaluation? with
  | some x => signalOr r.timestamp x.composed
  | none => .none r.timestamp

/-- What was missing for a signal. -/
def notEvaluable? (r : TickReport) : Option InsufficientHistory :=
  r.evaluation?.bind fun x => failure? x.composed

/-- What became of the signal. -/
def decision (r : TickReport) : Decision := r.evaluation?.elim .none Evaluation.decision

def events (r : TickReport) : List PositionEvent := r.evaluation?.elim [] Evaluation.events

/-- The profits of the positions that the tick closed. -/
def profits (r : TickReport) : List Float :=
  r.events.filterMap fun
    | .closed closed => some closed.profit
    | .opened _ => none

end TickReport

end TrendLadder
