import TrendLadder.Proofs.Engine.Indicators
import TrendLadder.Proofs.Mirror.Trade

/-!
# Mirrored runs

An engine does on mirrored candles the mirror image of what it does on the candles: it accepts the
same ticks, takes the same decisions, sells where it bought and buys where it sold, and closes the
same positions at the same profit (`Engine.mirrors_run`). The relation between the two engines is
`Engine.Mirrors`: the indicators and the positions are mirror images, and all else is the same. A
call keeps it (`Engine.Mirrors.call`) unless it starts a trend with a candle that has not moved.
-/

namespace TrendLadder

/-! ## Calls and replies -/

/-- The tick with the candle mirrored. -/
def Tick.mirror (t : Tick) : Tick := { t with candle := t.candle.mirror }

/-- The call with its candle mirrored or its price negated. -/
def Call.mirror : Call → Call
  | .tick t commands => .tick t.mirror commands
  | .command c => .command c
  | .close id price closedAt => .close id (-price) closedAt
  | .forget => .forget

structure Evaluation.Mirrors (a b : Evaluation) : Prop where
  trend : a.trend.Mirrors b.trend
  crossover : a.crossover.Mirrors b.crossover
  pattern : a.pattern.Mirrors b.pattern
  composed : ExceptRel Signal.Mirrors a.composed b.composed
  decision : b.decision = a.decision
  events : List.Forall₂ PositionEvent.Mirrors a.events b.events

/-- A snapshot on both sides of the mirror: only the positions differ. -/
structure Snapshot.Mirrors (a b : Snapshot) : Prop where
  rest : b = { a with openPositions := b.openPositions }
  openPositions : List.Forall₂ Position.Mirrors a.openPositions b.openPositions

structure TickReport.Mirrors (a b : TickReport) : Prop where
  timestamp : b.timestamp = a.timestamp
  commands : b.commands = a.commands
  result : ExceptRel Evaluation.Mirrors a.result b.result
  snapshot : a.snapshot.Mirrors b.snapshot

inductive Reply.Mirrors : Reply → Reply → Prop
  | report {a b : TickReport} (h : a.Mirrors b) : Mirrors (.report a) (.report b)
  | obeyed (changed : Except CommandError Bool) : Mirrors (.obeyed changed) (.obeyed changed)
  | closed {a b : Except LedgerError ClosedPosition} (h : ExceptRel ClosedPosition.Mirrors a b) :
    Mirrors (.closed a) (.closed b)
  | done : Mirrors .done .done

/-- The candles of a log that start a trend: the first that is evaluated and the first after each
time that the indicators forget. -/
def seedCandles (unseeded : Bool) : List (Call × Reply) → List Candle
  | [] => []
  | (.forget, _) :: log => seedCandles true log
  | (.tick t _, .report r) :: log =>
    if r.rejection?.isSome then seedCandles unseeded log
    else (if unseeded then [t.candle] else []) ++ seedCandles false log
  | _ :: log => seedCandles unseeded log

theorem Tick.screen_mirror (t : Tick) (latest : Option Timestamp) :
    t.mirror.screen latest = t.screen latest := by
  have sane : t.mirror.candle.isSane = t.candle.isSane := t.candle.isSane_mirror
  unfold Tick.screen Tick.faults
  rw [sane]
  rfl

namespace Engine

structure Mirrors (a b : Engine) : Prop where
  settings : b.settings = a.settings
  fingerprint : b.fingerprint = a.fingerprint
  indicators : a.indicators.Mirrors b.indicators
  pattern : b.pattern = a.pattern
  book : a.book.Mirrors b.book
  account : b.account = a.account
  latest : b.latest = a.latest
  ignoresAlert : b.ignoresAlert = a.ignoresAlert

structure Action.Mirrors (a b : Action) : Prop where
  decision : b.decision = a.decision
  opened : Option.Rel Position.Mirrors a.opened b.opened
  ledger : a.ledger.Mirrors b.ledger

theorem indicators_obey (e : Engine) (cs : List Command) :
    (e.obey cs).2.indicators = e.indicators :=
  obey_induct (P := fun x => x.indicators = e.indicators)
    (fun c same => (indicators_after _ c).trans same) rfl cs

theorem mirrors_signalOr (timestamp : Timestamp) {x y : Except InsufficientHistory Signal}
    (composed : ExceptRel Signal.Mirrors x y) :
    (signalOr timestamp x).Mirrors (signalOr timestamp y) := by
  cases composed with
  | error e => exact Signal.mirrors_none timestamp
  | ok signal => exact signal

theorem mirrors_opened {x y : Option Position} (opened : Option.Rel Position.Mirrors x y) :
    List.Forall₂ PositionEvent.Mirrors (x.map .opened).toList (y.map .opened).toList := by
  cases opened with
  | none => exact .nil
  | some position => exact .cons (.opened position) .nil

theorem mirrors_fresh (s : Settings) : (fresh s).Mirrors (fresh s) where
  settings := rfl
  fingerprint := rfl
  indicators := .start s
  pattern := rfl
  book := ⟨rfl, .new _, .new _⟩
  account := rfl
  latest := rfl
  ignoresAlert := rfl

namespace Mirrors

variable {a b : Engine}

/-! ## Commands -/

theorem withLadder (h : a.Mirrors b) (ladder : Ladder) :
    (a.withLadder ladder).Mirrors (b.withLadder ladder) :=
  { h with book := ⟨rfl, h.book.gate, h.book.ledger⟩ }

theorem apply (h : a.Mirrors b) (c : Command) :
    ExceptRel (fun x y => y.1 = x.1 ∧ x.2.Mirrors y.2) (a.apply c) (b.apply c) := by
  unfold Engine.apply
  cases c with
  | pause =>
    dsimp only
    rw [h.book.ladder]
    exact .ok ⟨rfl, h.withLadder _⟩
  | resume =>
    dsimp only
    rw [h.book.ladder]
    exact .ok ⟨rfl, h.withLadder _⟩
  | skipToLevel level =>
    dsimp only
    unfold Engine.skipTo
    rw [h.book.ladder]
    cases a.book.ladder.skipTo level with
    | ok ladder => exact .ok ⟨rfl, h.withLadder ladder⟩
    | error refusal => exact .error _
  | adjustMinSize size =>
    dsimp only
    unfold Engine.adjustMinSize
    rw [h.pattern]
    cases a.pattern.adjustMinSize size with
    | ok pattern => exact .ok ⟨rfl, { h with pattern := rfl }⟩
    | error reason => exact .error _
  | ignoreAlert =>
    dsimp only
    rw [h.ignoresAlert]
    exact .ok ⟨rfl, { h with ignoresAlert := rfl }⟩

theorem command (h : a.Mirrors b) (c : Command) : b.command c = a.command c := by
  have applied := h.apply c
  unfold Engine.command
  generalize a.apply c = x, b.apply c = y at applied ⊢
  cases applied with
  | error e => rfl
  | ok done => exact congrArg Except.ok done.1

theorem status (h : a.Mirrors b) (c : Command) : b.status c = a.status c := by
  have applied := h.apply c
  unfold Engine.status
  generalize a.apply c = x, b.apply c = y at applied ⊢
  cases applied with
  | error e => rfl
  | @ok x y done =>
    obtain ⟨changed, next⟩ := x
    obtain ⟨changed2, next2⟩ := y
    obtain ⟨rfl, -⟩ := done
    cases changed2 <;> rfl

theorem after (h : a.Mirrors b) (c : Command) : (a.after c).Mirrors (b.after c) := by
  have applied := h.apply c
  unfold Engine.after
  generalize a.apply c = x, b.apply c = y at applied ⊢
  cases applied with
  | error e => exact h
  | ok done => exact done.2

theorem obey (h : a.Mirrors b) (cs : List Command) :
    (b.obey cs).1 = (a.obey cs).1 ∧ (a.obey cs).2.Mirrors (b.obey cs).2 := by
  induction cs generalizing a b with
  | nil => exact ⟨rfl, h⟩
  | cons c cs ih =>
    have others := ih (h.after c)
    refine ⟨?_, others.2⟩
    show _ :: _ = _ :: _
    rw [h.status, others.1]

/-! ## Ticks -/

theorem enter (h : a.Mirrors b) (t : Tick) : (a.enter t).Mirrors (b.enter t.mirror) := by
  have gate : (if t.newDay then a.book.gate.startDay t.account.balance else a.book.gate).Mirrors
      (if t.newDay then b.book.gate.startDay t.account.balance else b.book.gate) := by
    split
    · exact h.book.gate.startDay _
    · exact h.book.gate
  exact { h with
    book := ⟨h.book.ladder, gate.update t.account, h.book.ledger⟩
    account := rfl
    latest := rfl }

theorem settle (h : a.Mirrors b) (c : Candle) :
    List.Forall₂ ClosedPosition.Mirrors (a.settle c).1 (b.settle c.mirror).1 ∧
      (a.settle c).2.Mirrors (b.settle c.mirror).2 :=
  ⟨(h.book.take c).1, { h with book := (h.book.take c).2 }⟩

theorem observe (h : a.Mirrors b) {c : Candle} (sane : c.isSane = true)
    (moved : a.indicators.trend.seen = 0 → (c.closing == c.opening) = false) :
    (a.observe c).1.Mirrors (b.observe c.mirror).1 ∧
      (a.observe c).2.Mirrors (b.observe c.mirror).2 :=
  have observed := h.indicators.observe sane moved
  ⟨observed.1, { h with indicators := observed.2 }⟩

theorem compose (h : a.Mirrors b) (t : Tick) {x y : Verdict} (pattern : x.Mirrors y) :
    ExceptRel Signal.Mirrors (a.compose t x) (b.compose t.mirror y) := by
  unfold Engine.compose Engine.sizing
  rw [h.settings, h.book.ladder]
  exact compose_mirror _ _ _ (h.indicators.readings pattern) _

theorem act (h : a.Mirrors b) (t : Tick) {s u : Signal} (signal : s.Mirrors u) :
    (a.act t s).Mirrors (b.act t.mirror u) := by
  have actionable : u.isActionable = s.isActionable := by
    unfold Signal.isActionable Signal.direction?
    rw [signal.type]
    cases s.type <;> rfl
  have attempt : ExceptRel (fun x y => x.1.Mirrors y.1 ∧ x.2.Mirrors y.2)
      (a.book.ledger.openFor s a.book.ladder a.book.gate t.account t.quote)
      (b.book.ledger.openFor u a.book.ladder b.book.gate t.mirror.account t.mirror.quote) :=
    h.book.ledger.openFor signal a.book.ladder h.book.gate t.account t.quote
  unfold Engine.act
  rw [actionable, h.ignoresAlert, h.book.ladder]
  dsimp only
  split
  · exact ⟨rfl, .none, h.book.ledger⟩
  · split
    · exact ⟨rfl, .none, h.book.ledger⟩
    · generalize a.book.ledger.openFor s a.book.ladder a.book.gate t.account t.quote = x,
        b.book.ledger.openFor u a.book.ladder b.book.gate t.mirror.account t.mirror.quote = y
        at attempt ⊢
      cases attempt with
      | error rejection => exact ⟨rfl, .none, h.book.ledger⟩
      | ok opened => exact ⟨congrArg Decision.opened opened.1.id, .some opened.1, opened.2⟩

theorem verdict (h : a.Mirrors b) (c : Candle) {x y : Observation} (observed : x.Mirrors y) :
    (a.pattern.validate c x.previous x.trend.direction).Mirrors
      (b.pattern.validate c.mirror y.previous y.trend.direction) := by
  rw [h.pattern, observed.previous, observed.trend.direction]
  exact a.pattern.validate_mirror ..

theorem acted (h : a.Mirrors b) {x y : Action} (action : x.Mirrors y) :
    (a.acted x).Mirrors (b.acted y) :=
  { h with book := ⟨h.book.ladder, h.book.gate, action.ledger⟩, ignoresAlert := rfl }

/-- **A candle and its mirror image are evaluated to mirror images.** -/
theorem evaluate (h : a.Mirrors b) {t : Tick} (sane : t.candle.isSane = true)
    (moved : a.indicators.trend.seen = 0 → (t.candle.closing == t.candle.opening) = false) :
    (a.evaluate t).1.Mirrors (b.evaluate t.mirror).1 ∧
      (a.evaluate t).2.Mirrors (b.evaluate t.mirror).2 := by
  have settled := (h.enter t).settle t.candle
  have observed := settled.2.observe sane moved
  have pattern := observed.2.verdict t.candle observed.1
  have composed := observed.2.compose t pattern
  have signal := mirrors_signalOr t.candle.timestamp composed
  have action := observed.2.act t signal
  have closed := List.rel_map (fun _ _ hx => PositionEvent.Mirrors.closed hx) settled.1
  have opened := mirrors_opened action.opened
  exact ⟨⟨observed.1.trend, observed.1.crossover, pattern, composed, action.decision,
    List.rel_append closed opened⟩, observed.2.acted action⟩

theorem snapshot (h : a.Mirrors b) : a.snapshot.Mirrors b.snapshot := by
  obtain ⟨profits, -, gate⟩ := h.book.gate
  refine ⟨?_, h.book.ledger.openPositions⟩
  unfold Engine.snapshot
  rw [h.book.ladder, h.account, h.fingerprint, gate]
  rfl

theorem attempt (h : a.Mirrors b) (t : Tick) (moved : t.screen a.latest = none →
    a.indicators.trend.seen = 0 → (t.candle.closing == t.candle.opening) = false) :
    ExceptRel Evaluation.Mirrors (a.attempt t).1 (b.attempt t.mirror).1 ∧
      (a.attempt t).2.Mirrors (b.attempt t.mirror).2 := by
  have screens : t.mirror.screen b.latest = t.screen a.latest := by
    rw [Tick.screen_mirror, h.latest]
  cases screened : t.screen a.latest with
  | some rejection =>
    rw [attempt_of_rejected screened, attempt_of_rejected (screens.trans screened)]
    exact ⟨.error _, h⟩
  | none =>
    have evaluated := h.evaluate (Tick.screen_eq_none.mp screened).1 (moved screened)
    rw [attempt_of_passed screened, attempt_of_passed (screens.trans screened)]
    exact ⟨.ok evaluated.1, evaluated.2⟩

theorem tick (h : a.Mirrors b) (t : Tick) (commands : List Command)
    (moved : t.screen (a.obey commands).2.latest = none →
      (a.obey commands).2.indicators.trend.seen = 0 →
        (t.candle.closing == t.candle.opening) = false) :
    (a.tick t commands).1.Mirrors (b.tick t.mirror commands).1 ∧
      (a.tick t commands).2.Mirrors (b.tick t.mirror commands).2 := by
  have obeyed := h.obey commands
  have attempted := obeyed.2.attempt t moved
  exact ⟨⟨rfl, obeyed.1, attempted.1, attempted.2.snapshot⟩, attempted.2⟩

/-! ## Calls -/

theorem close (h : a.Mirrors b) (id : PositionId) (price : Float) (closedAt : Timestamp) :
    ExceptRel (fun x y => x.1.Mirrors y.1 ∧ x.2.Mirrors y.2)
      (a.close id price closedAt) (b.close id (-price) closedAt) := by
  have closed := h.book.close id (.refl (-price) : Opposite price (-price)) closedAt
  unfold Engine.close
  generalize a.book.close id price closedAt = x, b.book.close id (-price) closedAt = y at closed ⊢
  cases closed with
  | error e => exact .error e
  | ok done => exact .ok ⟨done.1, { h with book := done.2 }⟩

theorem afterClose (h : a.Mirrors b) (id : PositionId) (price : Float) (closedAt : Timestamp) :
    (a.afterClose id price closedAt).Mirrors (b.afterClose id (-price) closedAt) := by
  have closed := h.close id price closedAt
  unfold Engine.afterClose
  generalize a.close id price closedAt = x, b.close id (-price) closedAt = y at closed ⊢
  cases closed with
  | error e => exact h
  | ok done => exact done.2

theorem reinitialize (h : a.Mirrors b) : a.reinitialize.Mirrors b.reinitialize :=
  { h with indicators := h.indicators.reset }

/-- The candle of an evaluated tick starts a trend where none was seen yet. -/
theorem moved_of_tick {t : Tick} {commands : List Command}
    (moved : ∀ c ∈ seedCandles (a.indicators.trend.seen = 0)
      [(.tick t commands, .report (a.tick t commands).1)], (c.closing == c.opening) = false)
    (passed : t.screen (a.obey commands).2.latest = none)
    (unseen : (a.obey commands).2.indicators.trend.seen = 0) :
    (t.candle.closing == t.candle.opening) = false := by
  refine moved t.candle ?_
  have accepted : (a.tick t commands).1.rejection?.isSome = false := by
    rw [rejection?_tick, passed]
    rfl
  rw [seedCandles, accepted, ← indicators_obey a commands, unseen]
  exact List.mem_singleton_self _

/-- **A call and its mirror image get mirrored replies,** unless the candle of the call starts a
trend without having moved. -/
theorem call (h : a.Mirrors b) (c : Call)
    (moved : ∀ x ∈ seedCandles (a.indicators.trend.seen = 0) [(c, (a.call c).1)],
      (x.closing == x.opening) = false) :
    (a.call c).1.Mirrors (b.call c.mirror).1 ∧ (a.call c).2.Mirrors (b.call c.mirror).2 := by
  cases c with
  | tick t commands =>
    have ticked := h.tick t commands (moved_of_tick moved)
    exact ⟨.report ticked.1, ticked.2⟩
  | command c =>
    have same := h.command c
    refine ⟨?_, h.after c⟩
    show Reply.Mirrors (.obeyed (a.command c)) (.obeyed (b.command c))
    rw [same]
    exact .obeyed _
  | close id price closedAt =>
    have closed := h.close id price closedAt
    refine ⟨.closed ?_, h.afterClose id price closedAt⟩
    generalize a.close id price closedAt = x, b.close id (-price) closedAt = y at closed ⊢
    cases closed with
    | error e => exact .error e
    | ok done => exact .ok done.1
  | forget => exact ⟨.done, h.reinitialize⟩

end Mirrors

/-! ## Runs -/

/-- What starts a trend after a call is told by the trend seen then. -/
theorem seedCandles_call (e : Engine) (c : Call) (log : List (Call × Reply)) :
    seedCandles (e.indicators.trend.seen = 0) ((c, (e.call c).1) :: log) =
      seedCandles (e.indicators.trend.seen = 0) [(c, (e.call c).1)] ++
        seedCandles ((e.call c).2.indicators.trend.seen = 0) log := by
  cases c with
  | tick t commands =>
    have same := e.indicators_obey commands
    cases screened : t.screen (e.obey commands).2.latest with
    | some rejection =>
      have rejected : (e.tick t commands).1.rejection?.isSome = true := by
        rw [rejection?_tick, screened]
        rfl
      have kept : (e.call (.tick t commands)).2.indicators = e.indicators := by
        rw [call, tick_of_rejected screened, same]
      rw [kept, call, seedCandles, seedCandles, rejected]
      rfl
    | none =>
      have accepted : (e.tick t commands).1.rejection?.isSome = false := by
        rw [rejection?_tick, screened]
        rfl
      have seen : (e.call (.tick t commands)).2.indicators.trend.seen =
          e.indicators.trend.seen + 1 := by
        rw [call, tick_of_passed screened, ← same]
        exact TrendDetector.seen_next _ t.candle
      have later : decide (e.indicators.trend.seen + 1 = 0) = false := decide_eq_false (by omega)
      rw [seen, later, call, seedCandles, seedCandles, accepted]
      simp only [Bool.false_eq_true, if_false, seedCandles, List.append_nil]
  | command c =>
    rw [call, indicators_after]
    rfl
  | close id price closedAt =>
    obtain ⟨book, same⟩ := e.afterClose_eq id price closedAt
    rw [call, same]
    rfl
  | forget => rfl

theorem Mirrors.run {a b : Engine} (h : a.Mirrors b) {calls : List Call}
    (moved : ∀ c ∈ seedCandles (a.indicators.trend.seen = 0) (a.run calls).1,
      (c.closing == c.opening) = false) :
    List.Forall₂ Reply.Mirrors ((a.run calls).1.map Prod.snd)
        ((b.run (calls.map Call.mirror)).1.map Prod.snd) ∧
      (a.run calls).2.Mirrors (b.run (calls.map Call.mirror)).2 := by
  induction calls generalizing a b with
  | nil => exact ⟨.nil, h⟩
  | cons c cs ih =>
    rw [Engine.run, seedCandles_call] at moved
    have first := h.call c fun x hx => moved x (List.mem_append_left _ hx)
    have others := ih first.2 fun x hx => moved x (List.mem_append_right _ hx)
    exact ⟨.cons first.1 others.1, others.2⟩

/-- **Sell mirrors buy.** On mirrored candles, and with the prices of manual closes negated, an
engine gives the mirror images of its replies and ends in the mirror image of its state, if every
candle that starts a trend has moved. -/
theorem mirrors_run {s : Settings} {e : Engine} {calls : List Call} (built : new s = .ok e)
    (moved : ∀ c ∈ seedCandles true (e.run calls).1, (c.closing == c.opening) = false) :
    List.Forall₂ Reply.Mirrors ((e.run calls).1.map Prod.snd)
        ((e.run (calls.map Call.mirror)).1.map Prod.snd) ∧
      (e.run calls).2.Mirrors (e.run (calls.map Call.mirror)).2 := by
  obtain ⟨-, rfl⟩ := new_eq_ok.mp built
  exact (mirrors_fresh s).run moved

/-- The falling market and its turn, with the trade closed by hand. -/
def handClosedCalls : List Call :=
  fallingCalls ++ [.command (.skipToLevel 2), .tick (flatTick turningCandle) [],
    .close 1 111.0 ⟨1709530000, 0⟩]

/-- The directions and outcomes of the positions that an engine has closed. -/
def closedTrades (e : Engine) : List (Direction × TradeOutcome) :=
  e.book.ledger.archive.items.map fun x => (x.record.direction, x.outcome)

theorem mirrors_run_turning :
    new turningSettings = .ok (fresh turningSettings) ∧
    (∀ c ∈ seedCandles true ((fresh turningSettings).run handClosedCalls).1,
      (c.closing == c.opening) = false) ∧
    List.Forall₂ Reply.Mirrors (((fresh turningSettings).run handClosedCalls).1.map Prod.snd)
      (((fresh turningSettings).run (handClosedCalls.map Call.mirror)).1.map Prod.snd) ∧
    ((fresh turningSettings).run handClosedCalls).2.closedTrades = [(.buy, .win)] ∧
    ((fresh turningSettings).run (handClosedCalls.map Call.mirror)).2.closedTrades =
      [(.sell, .win)] := by
  have moved : ∀ c ∈ seedCandles true ((fresh turningSettings).run handClosedCalls).1,
      (c.closing == c.opening) = false := by decide +kernel
  exact ⟨new_turningSettings, moved, (mirrors_run new_turningSettings moved).1, by decide +kernel,
    by decide +kernel⟩

end Engine

end TrendLadder
