import TrendLadder.Proofs.Engine.Run
import TrendLadder.Proofs.Number.Order

/-!
# Entries

Which entries the engine makes. `Book.Admits` states the checks of an entry one by one and
`Book.HasRoom` the limit on open positions; `tick_decision` says that at every reached state they
alone decide about a signal that asks for a trade. The lots of the ladder never refuse: those of
valid settings are positive (`Book.Under.lotSize_pos`), and a paused ladder is refused by the
checks before.
-/

namespace TrendLadder

/-! ## The checks -/

namespace Book

/-- An entry passes the checks: trading is not paused and the account and the spread are within
the limits. An account without margin in use has no margin level. -/
structure Admits (b : Book) (limits : RiskSettings) (a : Account) (q : Quote) : Prop where
  running : b.ladder.paused = false
  margin : ∀ level, a.marginLevel = some level → ¬level < limits.marginMinimumPct
  drawdown : ¬limits.maxDrawdownPct < b.gate.drawdown a.equity
  dailyLoss : ¬limits.maxDailyLossPct < b.gate.dailyLossPct a.balance
  spread : q.spreadPoints ≤ limits.maxSpreadPoints

/-- There are fewer open positions than there may be. -/
def HasRoom (b : Book) (policy : PositionSettings) : Prop :=
  b.ledger.openCount < if policy.oneTradeAtATime then 1 else policy.maxPositions

end Book

namespace RiskGate

@[simp] theorem breachIf_eq_nil {fails : Bool} {e : Breach} :
    breachIf fails e = [] ↔ fails = false := by
  cases fails <;> simp [breachIf]

theorem marginBreaches_eq_nil {g : RiskGate} {a : Account} :
    g.marginBreaches a = [] ↔
      ∀ level, a.marginLevel = some level → ¬level < g.limits.marginMinimumPct := by
  unfold marginBreaches
  cases a.marginLevel with
  | none => exact iff_of_true rfl nofun
  | some level => simp

end RiskGate

/-- No check fails for a sane account exactly if the entry passes all of them. -/
theorem Book.breaches_eq_nil {b : Book} {a : Account} {q : Quote} (sane : a.isSane = true) :
    b.gate.breaches a q b.ladder.paused = [] ↔ b.Admits b.gate.limits a q := by
  have checks : b.gate.accountBreaches a = [] ↔
      (∀ level, a.marginLevel = some level → ¬level < b.gate.limits.marginMinimumPct) ∧
        ¬b.gate.limits.maxDrawdownPct < b.gate.drawdown a.equity ∧
          ¬b.gate.limits.maxDailyLossPct < b.gate.dailyLossPct a.balance := by
    rw [RiskGate.accountBreaches, if_pos sane]
    simp only [List.append_eq_nil_iff, RiskGate.marginBreaches_eq_nil, RiskGate.breachIf_eq_nil,
      decide_eq_false_iff_not, and_assoc]
  rw [RiskGate.breaches, List.append_eq_nil_iff, List.append_eq_nil_iff, checks,
    RiskGate.breachIf_eq_nil, RiskGate.breachIf_eq_nil, decide_eq_false_iff_not, Nat.not_lt]
  constructor
  · rintro ⟨⟨running, margin, drawdown, dailyLoss⟩, spread⟩
    exact ⟨running, margin, drawdown, dailyLoss, spread⟩
  · rintro ⟨running, margin, drawdown, dailyLoss, spread⟩
    exact ⟨⟨running, margin, drawdown, dailyLoss⟩, spread⟩

/-! ## The decision about a signal -/

namespace Engine

section Act

variable {e : Engine} {t : Tick} {sig : Signal}

theorem act_of_idle (idle : sig.isActionable = false) :
    e.act t sig = ⟨.none, none, e.book.ledger⟩ := by
  rw [act, idle]
  rfl

theorem act_of_ignored (actionable : sig.isActionable = true) (ignored : e.ignoresAlert = true) :
    e.act t sig = ⟨.ignored, none, e.book.ledger⟩ := by
  rw [act, actionable, ignored]
  rfl

theorem act_of_refused (actionable : sig.isActionable = true) (heard : e.ignoresAlert = false)
    {rejection : OpenRejection}
    (refused : e.book.ledger.openFor sig e.book.ladder e.book.gate t.account t.quote =
      .error rejection) :
    e.act t sig = ⟨.blocked rejection, none, e.book.ledger⟩ := by
  rw [act, actionable, heard, refused]
  rfl

theorem act_of_opened (actionable : sig.isActionable = true) (heard : e.ignoresAlert = false)
    {p : Position} {ledger : Ledger}
    (opened : e.book.ledger.openFor sig e.book.ladder e.book.gate t.account t.quote =
      .ok (p, ledger)) :
    e.act t sig = ⟨.opened p.id, some p, ledger⟩ := by
  rw [act, actionable, heard, opened]
  rfl

/-- All that can become of a signal: it asks for nothing, it is let pass, or it is tried. -/
theorem act_tried (e : Engine) (t : Tick) (sig : Signal) :
    (sig.isActionable = false ∧ e.act t sig = ⟨.none, none, e.book.ledger⟩) ∨
    (sig.isActionable = true ∧ e.ignoresAlert = true ∧
      e.act t sig = ⟨.ignored, none, e.book.ledger⟩) ∨
    (sig.isActionable = true ∧ e.ignoresAlert = false ∧
      ((∃ rejection, e.book.ledger.openFor sig e.book.ladder e.book.gate t.account t.quote =
          .error rejection ∧ e.act t sig = ⟨.blocked rejection, none, e.book.ledger⟩) ∨
        ∃ p ledger, e.act t sig = ⟨.opened p.id, some p, ledger⟩)) := by
  cases actionable : sig.isActionable with
  | false => exact .inl ⟨rfl, act_of_idle actionable⟩
  | true =>
    cases ignores : e.ignoresAlert with
    | true => exact .inr (.inl ⟨rfl, rfl, act_of_ignored actionable ignores⟩)
    | false =>
      refine .inr (.inr ⟨rfl, rfl, ?_⟩)
      cases tried : e.book.ledger.openFor sig e.book.ladder e.book.gate t.account t.quote with
      | error rejection => exact .inl ⟨rejection, rfl, act_of_refused actionable ignores tried⟩
      | ok r => exact .inr ⟨r.1, r.2, act_of_opened actionable ignores tried⟩

/-- A sane account gets an entry under valid settings exactly if it passes the checks and there
is room; otherwise the checks are named first. -/
theorem act_of_heard {s : Settings} (under : e.book.Under s) (valid : s.faults = [])
    (sane : t.account.isSane = true) (actionable : sig.isActionable = true)
    (heard : e.ignoresAlert = false) :
    (e.book.Admits s.risk t.account t.quote → e.book.HasRoom s.positions →
      ∃ p, e.act t sig = ⟨.opened p.id, some p, e.book.ledger.insert p⟩) ∧
    (¬e.book.Admits s.risk t.account t.quote →
      e.act t sig =
        ⟨.blocked (.risk ⟨e.book.gate.breaches t.account t.quote e.book.ladder.paused⟩), none,
          e.book.ledger⟩) ∧
    (e.book.Admits s.risk t.account t.quote → ¬e.book.HasRoom s.positions →
      e.act t sig =
        ⟨.blocked (.positionLimit e.book.ledger.openCount s.positions.limit), none,
          e.book.ledger⟩) := by
  obtain ⟨direction, asked⟩ := Option.isSome_iff_exists.mp actionable
  have pass : e.book.gate.breaches t.account t.quote e.book.ladder.paused = [] ↔
      e.book.Admits s.risk t.account t.quote := by
    rw [Book.breaches_eq_nil sane, under.limits]
  have room : e.book.HasRoom s.positions ↔
      ¬e.book.ledger.policy.limit ≤ e.book.ledger.openCount := by
    rw [under.policy, Nat.not_le]
    rfl
  refine ⟨fun admits hasRoom => ?_, fun refused => ?_, fun admits full => ?_⟩
  · have lots : ¬e.book.ladder.lotSize ≤ 0.0 :=
      float_not_le_of_lt (under.lotSize_pos valid admits.running)
    refine ⟨e.book.ledger.nextPosition sig direction e.book.ladder,
      act_of_opened actionable heard ?_⟩
    rw [Ledger.openFor_of_no_breach asked (pass.mpr admits), if_neg (room.mp hasRoom), if_neg lots]
  · exact act_of_refused actionable heard (Ledger.openFor_of_breaches asked (mt pass.mp refused))
  · refine act_of_refused actionable heard ?_
    rw [Ledger.openFor_of_no_breach asked (pass.mpr admits),
      if_pos (Decidable.not_not.mp (mt room.mpr full)), under.policy]

end Act

end Engine

/-! ## The report of a tick -/

/-- The position that an event tells opened. -/
def PositionEvent.opened? : PositionEvent → Option Position
  | .opened p => some p
  | .closed _ => none

namespace TickReport

/-- The positions that a report tells opened. -/
def openings (r : TickReport) : List Position := r.events.filterMap PositionEvent.opened?

/-- The decision that a report tells is the one of the entry rules, where `m` is the engine when
the commands are obeyed, the account is taken and the positions that exit are closed. -/
structure DecidedAt (r : TickReport) (s : Settings) (t : Tick) (m : Engine) : Prop where
  idle : r.signal.isActionable = false → r.decision = .none ∧ r.openings = []
  ignored : r.signal.isActionable = true → m.ignoresAlert = true →
    r.decision = .ignored ∧ r.openings = []
  opened : r.signal.isActionable = true → m.ignoresAlert = false →
    ((∃ id, r.decision = .opened id) ↔
      m.book.Admits s.risk t.account t.quote ∧ m.book.HasRoom s.positions)
  unchecked : r.signal.isActionable = true → m.ignoresAlert = false →
    ¬m.book.Admits s.risk t.account t.quote →
    ∃ violation, r.decision = .blocked (.risk violation)
  full : r.signal.isActionable = true → m.ignoresAlert = false →
    m.book.Admits s.risk t.account t.quote → ¬m.book.HasRoom s.positions →
    r.decision = .blocked (.positionLimit m.book.ledger.openCount s.positions.limit)
  /-- Only a decision to open opens a position, and it opens one. -/
  held : (∀ id, r.decision ≠ .opened id) → r.openings = []
  told : ∀ id, r.decision = .opened id → ∃ p, r.openings = [p] ∧ p.id = id

theorem DecidedAt.never {r : TickReport} {s : Settings} {t : Tick} {m : Engine}
    (h : r.DecidedAt s t m) :
    r.decision ≠ .blocked .zeroLots ∧ r.decision ≠ .blocked .noDirection := by
  cases actionable : r.signal.isActionable with
  | false =>
    rw [(h.idle actionable).1]
    exact ⟨nofun, nofun⟩
  | true =>
    cases ignores : m.ignoresAlert with
    | true =>
      rw [(h.ignored actionable ignores).1]
      exact ⟨nofun, nofun⟩
    | false =>
      by_cases admits : m.book.Admits s.risk t.account t.quote
      · by_cases room : m.book.HasRoom s.positions
        · obtain ⟨id, opened⟩ := (h.opened actionable ignores).mpr ⟨admits, room⟩
          rw [opened]
          exact ⟨nofun, nofun⟩
        · rw [h.full actionable ignores admits room]
          exact ⟨nofun, nofun⟩
      · obtain ⟨violation, blocked⟩ := h.unchecked actionable ignores admits
        rw [blocked]
        exact ⟨nofun, nofun⟩

end TickReport

namespace Engine

theorem openings_evaluate (e : Engine) (t : Tick) :
    (e.evaluate t).1.events.filterMap PositionEvent.opened? = (e.actionOn t).opened.toList := by
  have closed : ((e.enter t).settle t.candle).1.filterMap
      (PositionEvent.opened? ∘ PositionEvent.closed) = [] :=
    List.filterMap_eq_nil_iff.mpr fun _ _ => rfl
  show (_ ++ _ : List PositionEvent).filterMap _ = _
  rw [List.filterMap_append, List.filterMap_map, closed, List.nil_append]
  show ((e.actionOn t).opened.map PositionEvent.opened).toList.filterMap _ = _
  cases (e.actionOn t).opened <;> rfl

theorem decidedAt_evaluate {s : Settings} {e : Engine} {t : Tick}
    (under : (e.settled t).book.Under s) (valid : s.faults = []) (sane : t.account.isSane = true)
    {r : TickReport} (result : r.result = .ok (e.evaluate t).1)
    (timestamp : r.timestamp = t.candle.timestamp) : r.DecidedAt s t (e.settled t) := by
  have signal : r.signal = e.signalOn t := by
    rw [TickReport.signal, TickReport.evaluation?, result, timestamp]
    rfl
  have decision : r.decision = ((e.settled t).act t (e.signalOn t)).decision := by
    rw [TickReport.decision, TickReport.evaluation?, result]
    rfl
  have openings : r.openings = ((e.settled t).act t (e.signalOn t)).opened.toList := by
    rw [TickReport.openings, TickReport.events, TickReport.evaluation?, result]
    exact e.openings_evaluate t
  have outcome (actionable : r.signal.isActionable = true)
      (heard : (e.settled t).ignoresAlert = false) :=
    act_of_heard under valid sane (signal ▸ actionable) heard
  constructor
  case idle =>
    intro idle
    rw [decision, openings, act_of_idle (signal ▸ idle)]
    exact ⟨rfl, rfl⟩
  case ignored =>
    intro actionable ignored
    rw [decision, openings, act_of_ignored (signal ▸ actionable) ignored]
    exact ⟨rfl, rfl⟩
  case opened =>
    intro actionable heard
    obtain ⟨entry, refusal, limit⟩ := outcome actionable heard
    constructor
    · rintro ⟨id, opened⟩
      rw [decision] at opened
      have admits : (e.settled t).book.Admits s.risk t.account t.quote := by
        by_contra refused
        rw [refusal refused] at opened
        cases opened
      refine ⟨admits, ?_⟩
      by_contra full
      rw [limit admits full] at opened
      cases opened
    · rintro ⟨admits, room⟩
      obtain ⟨p, acts⟩ := entry admits room
      exact ⟨p.id, by rw [decision, acts]⟩
  case unchecked =>
    intro actionable heard refused
    rw [decision, (outcome actionable heard).2.1 refused]
    exact ⟨_, rfl⟩
  case full =>
    intro actionable heard admits full
    rw [decision, (outcome actionable heard).2.2 admits full]
  case held =>
    intro held
    rw [decision] at held
    rw [openings]
    rcases (e.settled t).act_cases t (e.signalOn t) with ⟨none, -, -⟩ | ⟨p, -, acts⟩
    · rw [none]
      rfl
    · exact absurd (congrArg Action.decision acts) (held p.id)
  case told =>
    intro id told
    rw [decision] at told
    rw [openings]
    rcases (e.settled t).act_cases t (e.signalOn t) with ⟨-, -, never⟩ | ⟨p, -, acts⟩
    · exact absurd told (never id)
    · rw [acts] at told ⊢
      exact ⟨p, rfl, Decision.opened.inj told⟩

/-- **Entries are made exactly where the limits and the room allow them.** At every reached state
a tick that is not rejected is decided by the entry rules, its positions are those left after
the closes with the one that it opens, and no tick is refused for its direction or its lots. -/
theorem tick_decision {s : Settings} {e : Engine} (h : Reached s e) (t : Tick)
    (commands : List Command) :
    (e.tick t commands).1.decision ≠ .blocked .zeroLots ∧
    (e.tick t commands).1.decision ≠ .blocked .noDirection ∧
    ((e.tick t commands).1.rejection? = none →
      (e.tick t commands).1.DecidedAt s t ((e.obey commands).2.settled t) ∧
      (e.tick t commands).2.book.ledger.openPositions =
        ((e.obey commands).2.settled t).book.ledger.openPositions ++
          (e.tick t commands).1.openings) := by
  have obeyed := e.moves_obey commands
  cases screened : t.screen (e.obey commands).2.latest with
  | some rejection =>
    rw [tick_of_rejected screened]
    exact ⟨nofun, nofun, nofun⟩
  | none =>
    have moved := obeyed.trans (moves_settled (obeyed.orderly h.orderly) t)
    have decided : (e.tick t commands).1.DecidedAt s t ((e.obey commands).2.settled t) := by
      rw [tick_of_passed screened]
      exact decidedAt_evaluate (moved.under h.under) h.faults_eq_nil
        (Tick.isSane_of_screen screened) rfl rfl
    refine ⟨decided.never.1, decided.never.2, fun _ => ⟨decided, ?_⟩⟩
    rw [tick_of_passed screened, TickReport.openings]
    show ((e.obey commands).2.actionOn t).ledger.openPositions =
      _ ++ ((e.obey commands).2.evaluate t).1.events.filterMap _
    rw [openings_evaluate, actionOn]
    rcases ((e.obey commands).2.settled t).act_cases t ((e.obey commands).2.signalOn t)
      with ⟨none, same, -⟩ | ⟨p, -, acts⟩
    · rw [none, same]
      exact (List.append_nil _).symm
    · rw [acts]
      rfl

theorem reached_fallenEngine : Reached turningSettings fallenEngine :=
  ⟨fresh turningSettings, fallingCalls, new_turningSettings, rfl⟩

/-- The candle that turns a falling market is an entry. -/
theorem tick_decision_turning :
    Reached turningSettings fallenEngine ∧
    (fallenEngine.tick (flatTick turningCandle) []).1.rejection? = none ∧
    (fallenEngine.tick (flatTick turningCandle) []).1.signal.isActionable = true ∧
    ∃ id, (fallenEngine.tick (flatTick turningCandle) []).1.decision = .opened id := by
  have passed : (fallenEngine.tick (flatTick turningCandle) []).1.rejection? = none := by
    decide +kernel
  have actionable :
      (fallenEngine.tick (flatTick turningCandle) []).1.signal.isActionable = true := by
    decide +kernel
  have decided := ((tick_decision reached_fallenEngine (flatTick turningCandle) []).2.2 passed).1
  refine ⟨reached_fallenEngine, passed, actionable,
    (decided.opened actionable (by decide +kernel)).mpr ⟨⟨?_, nofun, ?_, ?_, ?_⟩, ?_⟩⟩
  · decide +kernel
  · decide +kernel
  · decide +kernel
  · decide +kernel
  · show _ < _
    decide +kernel

end Engine

end TrendLadder
