import TrendLadder.Proofs.Engine.Exits
import TrendLadder.Proofs.Engine.Signal

/-!
# Openings and what their reports tell

`TickReport.Opens` says that a report and a position that it tells opened agree: on the signal, on
the size that the ladder gives at the level of the snapshot, and on the list of open positions.
`opens_tick` says that every report at a reached state is consistent in that way.

1. The size is read twice from the ladder, once for the signal and once by the ledger, and a third
   time for the snapshot. All three read the ladder after the commands and the closes of the tick,
   which an opening leaves alone (`Engine.settled`).
2. The level of the ladder is one of its table after any moves (`Book.Moves.onLadder`), so the
   level that the position remembers has an entry, and the lots are that entry because a paused
   ladder opens nothing.
-/

namespace TrendLadder

/-! ## The level is one of the ladder -/

/-- The level is one of the table of lots. -/
def Ladder.OnLadder (l : Ladder) : Prop := l.level < l.size

theorem Ladder.OnLadder.applyOutcome {l : Ladder} (h : l.OnLadder) (o : TradeOutcome) :
    (l.applyOutcome o).OnLadder := by
  have inside : l.level < l.lots.length := h
  show (l.applyOutcome o).level < (l.applyOutcome o).lots.length
  rw [lots_applyOutcome]
  cases o with
  | win =>
    show 0 < l.lots.length
    omega
  | loss =>
    show min (l.level + 1) (l.lots.length - 1) < l.lots.length
    omega
  | breakeven => exact inside

namespace Book

theorem Move.onLadder {b next : Book} (m : b.Move next) (h : b.ladder.OnLadder) :
    next.ladder.OnLadder := by
  cases m with
  | pause | resume | startDay | update => exact h
  | skip skipped =>
    obtain ⟨one, le, rfl⟩ := Ladder.skipTo_eq_ok.mp skipped
    show _ - 1 < b.ladder.size
    omega
  | close done =>
    obtain ⟨p, -, -, rfl⟩ := close_eq_ok_iff.mp done
    exact h.applyOutcome _
  | insert opened =>
    obtain ⟨direction, -, -, -, -, -, rfl⟩ := Ledger.openFor_eq_ok.mp opened
    exact h

theorem Moves.onLadder {b next : Book} (h : b.Moves next) :
    b.ladder.OnLadder → next.ladder.OnLadder :=
  h.induct Move.onLadder

theorem Under.getElem?_lots {s : Settings} {b : Book} (h : b.Under s) (inside : b.ladder.OnLadder)
    (running : b.ladder.paused = false) :
    s.ladder.lots[b.ladder.level]? = some b.ladder.lotSize := by
  have inTable : b.ladder.level < b.ladder.lots.length := inside
  have level : b.ladder.clamp b.ladder.level = b.ladder.level := by
    show min b.ladder.level (b.ladder.lots.length - 1) = b.ladder.level
    omega
  rw [Ladder.lotSize, Ladder.lotsAt, running, level, ← h.lots, List.getElem?_eq_getElem inTable]
  rfl

end Book

theorem Ladder.paused_of_lotSize {l : Ladder} (lots : ¬l.lotSize ≤ 0.0) : l.paused = false := by
  by_contra paused
  refine lots ?_
  rw [lotSize, lotsAt_of_paused (Bool.eq_true_of_not_eq_false paused)]
  decide +kernel

theorem Engine.Reached.onLadder {s : Settings} {e : Engine} (h : Reached s e) :
    e.book.ladder.OnLadder := by
  have ladder := (Settings.sections_of_faults h.faults_eq_nil).2.2
  exact h.moves.onLadder (LadderSettings.faults_eq_nil.mp ladder).1

/-! ## What an opening tells -/

/-- A position that a report tells opened is the one that its signal asks for, sized at the level of
its snapshot and listed there. -/
structure TickReport.Opens (r : TickReport) (s : Settings) (t : Tick) (p : Position) : Prop where
  direction : r.signal.direction? = some p.direction
  openPrice : p.openPrice = r.signal.price
  stopLoss : p.stopLoss = r.signal.stopLoss
  takeProfit : p.takeProfit = r.signal.takeProfit
  lots : p.lots = r.signal.lots
  openedAt : p.openedAt = r.signal.timestamp
  timestamp : r.signal.timestamp = t.candle.timestamp
  lotSize : p.lots = r.snapshot.lotSize
  entry : s.ladder.lots[p.levelAtOpen]? = some p.lots
  level : p.levelAtOpen = r.snapshot.level
  /-- The target is priced with the reward-to-risk ratio of the snapshot. -/
  priced : ⟨p.openPrice, p.stopLoss, p.takeProfit⟩ =
    priceLevels p.direction t.candle.closing t.quote.point s.pricing r.snapshot.rewardRatio
  running : r.snapshot.paused = false
  listed : p ∈ r.snapshot.openPositions

namespace Engine

variable {s : Settings} {e : Engine} {t : Tick}

/-- The events of an evaluation are its closings and then its openings. -/
theorem events_evaluate (e : Engine) (t : Tick) :
    (e.evaluate t).1.events =
      ((e.evaluate t).1.events.filterMap PositionEvent.closed?).map .closed ++
        ((e.evaluate t).1.events.filterMap PositionEvent.opened?).map .opened := by
  rw [closings_evaluate, openings_evaluate]
  show ((e.enter t).book.take t.candle).1.map PositionEvent.closed ++
    ((e.actionOn t).opened.map PositionEvent.opened).toList = _
  cases (e.actionOn t).opened <;> rfl

/-- What an evaluation opens agrees with the report of it. -/
theorem opens_evaluate (valid : s.faults = []) (observes : Observes s e)
    (under : (e.settled t).book.Under s) (inside : (e.settled t).book.ladder.OnLadder)
    {p : Position}
    (opened : (e.settled t).book.ledger.openFor (e.signalOn t) (e.settled t).book.ladder
      (e.settled t).book.gate t.account t.quote =
        .ok (p, (e.settled t).book.ledger.insert p))
    (acts : e.actionOn t = ⟨.opened p.id, some p, (e.settled t).book.ledger.insert p⟩)
    {r : TickReport} (signal : r.signal = e.signalOn t)
    (snapshot : r.snapshot = (e.evaluate t).2.snapshot) : r.Opens s t p := by
  obtain ⟨direction, asked, -, -, lots, made, -⟩ := Ledger.openFor_eq_ok.mp opened
  have running := Ladder.paused_of_lotSize lots
  have ladder : (e.evaluate t).2.book.ladder = (e.settled t).book.ladder := rfl
  have positions : (e.evaluate t).2.book.ledger.openPositions =
      (e.settled t).book.ledger.openPositions ++ [p] := by
    show (e.actionOn t).ledger.openPositions = _
    rw [acts]
    rfl
  rcases composed_cases valid observes t with ⟨d, -, composed⟩ | ⟨-, none⟩
  · have trade : e.signalOn t = tradeSignal s.signal s.pricing t.candle (e.evaluate t).1.pattern
        ((e.settled t).sizing t.quote) d := by
      rw [signalOn, composed]
      rfl
    have same : direction = d := by
      rw [trade] at asked
      cases d <;> exact (Option.some.inj asked).symm
    subst same made
    constructor
    case direction => exact signal ▸ asked
    case openPrice | stopLoss | takeProfit | openedAt =>
      rw [signal]
      rfl
    case lots =>
      rw [signal, trade]
      rfl
    case timestamp =>
      rw [signal, trade]
      rfl
    case lotSize | level =>
      rw [snapshot]
      rfl
    case entry => exact under.getElem?_lots inside running
    case priced =>
      rw [snapshot]
      show PriceLevels.mk (e.signalOn t).price (e.signalOn t).stopLoss (e.signalOn t).takeProfit = _
      rw [trade]
      rfl
    case running =>
      rw [snapshot]
      exact running
    case listed =>
      rw [snapshot]
      show _ ∈ (e.evaluate t).2.book.ledger.openPositions
      rw [positions]
      simp
  · rw [none] at asked
    cases asked

/-- **An opened position is what its report tells.** At every reached state the events of a tick
are its closes and then at most one opening, which is there exactly if the decision names its
number, and the position agrees with the signal, the ladder and the snapshot of the report. -/
theorem opens_tick (h : Reached s e) (t : Tick) (commands : List Command) :
    (e.tick t commands).1.events =
      (e.tick t commands).1.closings.map .closed ++ (e.tick t commands).1.openings.map .opened ∧
    (e.tick t commands).1.openings.length ≤ 1 ∧
    (∀ id, (e.tick t commands).1.decision = .opened id ↔
      ∃ p ∈ (e.tick t commands).1.openings, p.id = id) ∧
    ∀ p ∈ (e.tick t commands).1.openings, (e.tick t commands).1.Opens s t p := by
  have obeyed := e.moves_obey commands
  cases screened : t.screen (e.obey commands).2.latest with
  | some rejection =>
    rw [tick_of_rejected screened]
    refine ⟨rfl, Nat.zero_le 1, fun id => iff_of_false nofun ?_, nofun⟩
    rintro ⟨p, hp, -⟩
    cases hp
  | none =>
    have moved := obeyed.trans (moves_settled (obeyed.orderly h.orderly) t)
    have observes := (keeps_observes h.faults_eq_nil).obey h.observes commands
    rw [tick_of_passed screened]
    -- From here on `m` is the engine that has obeyed the commands.
    generalize (e.obey commands).2 = m at moved observes
    have openings : TickReport.openings ⟨t.candle.timestamp, (e.obey commands).1,
        .ok (m.evaluate t).1, (m.evaluate t).2.snapshot⟩ = (m.actionOn t).opened.toList :=
      m.openings_evaluate t
    refine ⟨m.events_evaluate t, ?_⟩
    rw [openings]
    rcases (m.settled t).act_cases t (m.signalOn t) with ⟨none, -, never⟩ | ⟨p, opened, acts⟩
    · have idle : (m.actionOn t).opened = Option.none := none
      rw [idle]
      refine ⟨Nat.zero_le 1, fun id => iff_of_false (never id) ?_, nofun⟩
      rintro ⟨p, hp, -⟩
      cases hp
    · have acts : m.actionOn t = ⟨.opened p.id, some p, (m.settled t).book.ledger.insert p⟩ := acts
      have decision : (m.evaluate t).1.decision = .opened p.id := congrArg Action.decision acts
      rw [acts]
      refine ⟨Nat.le_refl 1, fun id => ?_, fun q hq => ?_⟩
      · show (m.evaluate t).1.decision = .opened id ↔ _
        rw [decision]
        simp
      · cases List.mem_singleton.mp hq
        exact opens_evaluate h.faults_eq_nil observes (moved.under h.under)
          (moved.onLadder h.onLadder) opened acts rfl rfl

/-- The position that the turn of the falling market opens after a skip to the top. -/
def skippedPosition : Position :=
  { boughtPosition with lots := 0.04, levelAtOpen := 2, takeProfit := 114.0 }

/-- A skip that comes with the tick sizes the position, its signal and the snapshot. -/
theorem opens_tick_skipped :
    Reached turningSettings fallenEngine ∧
    (fallenEngine.tick (flatTick turningCandle) [.skipToLevel 3]).1.openings = [skippedPosition] ∧
    (fallenEngine.tick (flatTick turningCandle) [.skipToLevel 3]).1.Opens turningSettings
      (flatTick turningCandle) skippedPosition := by
  have openings : (fallenEngine.tick (flatTick turningCandle) [.skipToLevel 3]).1.openings =
      [skippedPosition] := by
    decide +kernel
  have told := opens_tick reached_fallenEngine (flatTick turningCandle) [.skipToLevel 3]
  refine ⟨reached_fallenEngine, openings, told.2.2.2 skippedPosition ?_⟩
  rw [openings]
  exact List.mem_singleton_self _

end Engine

end TrendLadder
