import TrendLadder.Engine.Indicators
import TrendLadder.Engine.Report
import TrendLadder.Settings.Fingerprint

/-!
# Engine

The engine of one traded symbol. On a tick it obeys the commands, screens the tick, takes the
account, closes the positions that the candle completes, observes the candle, composes the signal
and tries to open a position. A tick that the screen rejects does nothing but its commands.
-/

namespace TrendLadder

/-- The indicators, the book of positions and what the engine remembers between ticks. -/
structure Engine where
  settings : Settings
  /-- The fingerprint of the settings. -/
  fingerprint : String
  indicators : Indicators
  pattern : PatternValidator
  book : Book
  /-- The account of the latest evaluated tick. -/
  account : Option Account
  /-- The time of the latest evaluated candle; the indicators may forget it, the engine does
  not. -/
  latest : Option Timestamp
  /-- Whether the next signal is let pass. -/
  ignoresAlert : Bool
deriving DecidableEq

namespace Engine

/-- An engine for valid settings. -/
def new (s : Settings) : Except SettingsError Engine := do
  s.validate
  let trend ← TrendDetector.new s.trend
  let pattern ← PatternValidator.new s.pattern
  let ladder ← Ladder.new s.ladder
  return {
    settings := s
    fingerprint := s.fingerprint
    indicators := .start s trend
    pattern := pattern
    book := ⟨ladder, .new s.risk, .new s.positions⟩
    account := none
    latest := none
    ignoresAlert := false }

/-- Builds an engine with its buffers; none if the program stops over one that is too large. -/
def build? (s : Settings) : Option (Except SettingsError Engine) :=
  match new s with
  | .ok e => if Indicators.fits s then some (.ok e) else none
  | .error error => some (.error error)

/-! ## Commands -/

/-- Replaces the ladder. -/
def withLadder (e : Engine) (ladder : Ladder) : Engine :=
  { e with book := { e.book with ladder := ladder } }

/-- Jumps to a level, which counts as a change even if it is the current one. -/
def skipTo (e : Engine) (level : Nat) : Except CommandError (Bool × Engine) :=
  match e.book.ladder.skipTo level with
  | .ok ladder => .ok (true, e.withLadder ladder)
  | .error refusal => .error (.levelOutOfRange refusal)

/-- Moves the lower bound of the body of a golden candle. -/
def adjustMinSize (e : Engine) (size : Float) : Except CommandError (Bool × Engine) :=
  match e.pattern.adjustMinSize size with
  | .ok pattern =>
    .ok (pattern.settings.size != e.pattern.settings.size, { e with pattern := pattern })
  | .error reason => .error (.invalidSize size reason)

/-- Obeys a command and tells whether it changed anything. -/
def apply (e : Engine) : Command → Except CommandError (Bool × Engine)
  | .pause => .ok (!e.book.ladder.paused, e.withLadder e.book.ladder.pause)
  | .resume => .ok (e.book.ladder.paused, e.withLadder e.book.ladder.resume)
  | .skipToLevel level => e.skipTo level
  | .adjustMinSize size => e.adjustMinSize size
  | .ignoreAlert => .ok (!e.ignoresAlert, { e with ignoresAlert := true })

/-- What became of a command. -/
def status (e : Engine) (c : Command) : CommandStatus :=
  match e.apply c with
  | .ok (true, _) => .applied
  | .ok (false, _) => .unchanged
  | .error error => .rejected error

/-- The engine after a command, obeyed or refused. -/
def after (e : Engine) (c : Command) : Engine :=
  match e.apply c with
  | .ok (_, next) => next
  | .error _ => e

/-- Obeys the commands in turn. -/
def obey (e : Engine) : List Command → List CommandOutcome × Engine
  | [] => ([], e)
  | c :: cs =>
    let others := (e.after c).obey cs
    (⟨c, e.status c⟩ :: others.1, others.2)

/-! ## The stages of an evaluation -/

/-- What is done about a signal. -/
structure Action where
  decision : Decision
  /-- The position that is opened. -/
  opened : Option Position
  ledger : Ledger
deriving DecidableEq

/-- Takes the time and the account of a tick, after the roll of the day if one starts. -/
def enter (e : Engine) (t : Tick) : Engine :=
  let gate := if t.newDay then e.book.gate.startDay t.account.balance else e.book.gate
  { e with
    book := { e.book with gate := gate.update t.account }
    account := some t.account
    latest := some t.candle.timestamp }

/-- The size that the ladder gives a trade at a quote. -/
def sizing (e : Engine) (q : Quote) : Sizing :=
  ⟨e.book.ladder.lotSize, e.book.ladder.rewardRatio, q.point⟩

/-- The signal of the latest candle. -/
def compose (e : Engine) (t : Tick) (pattern : Verdict) : Except InsufficientHistory Signal :=
  TrendLadder.compose e.settings.signal e.settings.pricing t.candle (e.indicators.readings pattern)
    (e.sizing t.quote)

/-- Closes the positions that a candle completes. -/
def settle (e : Engine) (c : Candle) : List ClosedPosition × Engine :=
  let taken := e.book.take c
  (taken.1, { e with book := taken.2 })

/-- Lets the indicators observe a candle. -/
def observe (e : Engine) (c : Candle) : Observation × Engine :=
  let observed := e.indicators.observe c
  (observed.1, { e with indicators := observed.2 })

/-- Acts on a signal: nothing, a signal let pass, or the attempt to open a position. -/
def act (e : Engine) (t : Tick) (s : Signal) : Action :=
  let ledger := e.book.ledger
  if !s.isActionable then ⟨.none, none, ledger⟩
  else if e.ignoresAlert then ⟨.ignored, none, ledger⟩
  else match ledger.openFor s e.book.ladder e.book.gate t.account t.quote with
    | .ok (p, next) => ⟨.opened p.id, some p, next⟩
    | .error rejection => ⟨.blocked rejection, none, ledger⟩

/-- The engine after an action, which serves an order to let a signal pass. -/
def acted (e : Engine) (a : Action) : Engine :=
  { e with book := { e.book with ledger := a.ledger }, ignoresAlert := false }

/-- Evaluates a tick that has passed the screen. -/
def evaluate (e : Engine) (t : Tick) : Evaluation × Engine :=
  let settled := (e.enter t).settle t.candle
  let observed := settled.2.observe t.candle
  let now := observed.2
  let pattern := now.pattern.validate t.candle observed.1.previous observed.1.trend.direction
  let composed := now.compose t pattern
  let action := now.act t (signalOr t.candle.timestamp composed)
  ({ trend := observed.1.trend
     crossover := observed.1.crossover
     pattern := pattern
     composed := composed
     decision := action.decision
     events := settled.1.map .closed ++ (action.opened.map .opened).toList },
    now.acted action)

/-! ## Operations -/

/-- The state that a host sees. -/
def snapshot (e : Engine) : Snapshot where
  level := e.book.ladder.level
  lotSize := e.book.ladder.lotSize
  rewardRatio := e.book.ladder.rewardRatio
  paused := e.book.ladder.paused
  pendingSkip := e.book.ladder.pendingSkip
  worstDrawdown := e.book.gate.worstDrawdown
  drawdown := e.account.elim 0.0 fun a => e.book.gate.drawdown a.equity
  dailyProfit := e.account.elim 0.0 fun a => e.book.gate.dailyProfit a.balance
  openPositions := e.book.ledger.openPositions
  fingerprint := e.fingerprint

/-- Evaluates a tick unless the screen rejects it. -/
def attempt (e : Engine) (t : Tick) : Except TickRejection Evaluation × Engine :=
  match t.screen e.latest with
  | some rejection => (.error rejection, e)
  | none => (e.evaluate t).map .ok id

theorem attempt_of_rejected {e : Engine} {t : Tick} {rejection : TickRejection}
    (h : t.screen e.latest = some rejection) : e.attempt t = (.error rejection, e) := by
  unfold attempt
  rw [h]

theorem attempt_of_passed {e : Engine} {t : Tick} (h : t.screen e.latest = none) :
    e.attempt t = (.ok (e.evaluate t).1, (e.evaluate t).2) := by
  unfold attempt
  rw [h, Prod.map, id]

/-- Obeys the commands that come with a tick and takes the tick. -/
def tick (e : Engine) (t : Tick) (commands : List Command) : TickReport × Engine :=
  let obeyed := e.obey commands
  let attempted := obeyed.2.attempt t
  (⟨t.candle.timestamp, obeyed.1, attempted.1, attempted.2.snapshot⟩, attempted.2)

/-- Closes an open position at a price that the host gives. -/
def close (e : Engine) (id : PositionId) (price : Float) (closedAt : Timestamp) :
    Except LedgerError (ClosedPosition × Engine) :=
  (e.book.close id price closedAt).map fun (closed, book) => (closed, { e with book := book })

/-- Lets the indicators forget all candles. -/
def reinitialize (e : Engine) : Engine := { e with indicators := e.indicators.reset }

end Engine

end TrendLadder
