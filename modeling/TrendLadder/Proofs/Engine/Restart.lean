import TrendLadder.Proofs.Engine.Indicators
import TrendLadder.Proofs.Engine.Noninterference

/-!
# Reinitialized indicators are new ones

What the indicators become when they forget does not depend on what they have observed
(`Indicators.reset_observe`), so it is what they are in a new engine (`Reached.reset_eq`). An engine
that forgets its candles differs from a new one in its book, in the bounds of a golden candle and in
the time of its latest evaluated tick. The book does not matter to the market side of the reports;
the bounds matter to the pattern and to the signal only (`Analysis.run_feed`); the time matters only
until a tick is accepted (`Analysis.run_unclocked`). `restart_eq_fresh` puts this together.
-/

namespace TrendLadder

/-! ## Forgetting -/

theorem AverageSeries.clear_update (s : AverageSeries) (closings : List Float) :
    (s.update closings).2.clear = s.clear := by
  unfold update
  cases average closings s.settings <;> rfl

theorem CrossoverDetector.reset_update (d : CrossoverDetector) (closing : Float) :
    (d.update closing).2.reset = d.reset := by
  have fast := d.fast.clear_update (d.closings.push closing).items
  have slow := d.slow.clear_update (d.closings.push closing).items
  unfold reset update
  dsimp only
  rw [fast, slow]
  rfl

theorem TrendDetector.reset_next (d : TrendDetector) (c : Candle) : (d.next c).reset = d.reset := by
  unfold next
  split <;> rfl

theorem History.clear_push (h : History) (c : Candle) : (h.push c).clear = h.clear := by
  cases accepted : h.accepts c with
  | true =>
    rw [push_of_accepts accepted]
    rfl
  | false => rw [push_of_refused accepted]

/-- Indicators forget one candle more as they forget the others. -/
theorem Indicators.reset_observe (i : Indicators) (c : Candle) :
    (i.observe c).2.reset = i.reset := by
  unfold reset observe
  dsimp only
  rw [History.clear_push, CrossoverDetector.reset_update]
  congr 1
  exact i.trend.reset_next c

namespace Engine

theorem keeps_reset (i : Indicators) : Keeps fun e => e.indicators.reset = i where
  command c h := by rwa [indicators_after]
  evaluate {e t} _ h := (e.indicators.reset_observe t.candle).trans h
  close {e} id price closedAt h := by
    obtain ⟨book, same⟩ := e.afterClose_eq id price closedAt
    rwa [same]
  forget h := h

/-- **Reinitialized indicators are those of a new engine.** -/
theorem Reached.reset_eq {s : Settings} {e : Engine} (h : Reached s e) :
    e.indicators.reset = (fresh s).indicators :=
  (keeps_reset (fresh s).indicators).reached rfl h

end Engine

/-! ## What the indicators tell -/

/-- What a report tells of the indicators. -/
structure IndicatorReport where
  rejection : Option TickRejection
  trend : Option TrendReading
  crossover : Option CrossoverReading
  notEvaluable : Option InsufficientHistory
deriving DecidableEq

/-- The part of a report that does not depend on the bounds of a golden candle. -/
def MarketReport.indicators (r : MarketReport) : IndicatorReport :=
  ⟨r.rejection, r.trend, r.crossover, r.notEvaluable⟩

theorem MarketReport.indicators_evaluated (trend : TrendReading) (crossover : CrossoverReading)
    (pattern : Verdict) (assessed : Except InsufficientHistory (SignalType × Float)) :
    (evaluated trend crossover pattern assessed).indicators =
      ⟨none, some trend, some crossover, failure? assessed⟩ := rfl

/-- What the indicators tell of a candle by themselves. -/
def Indicators.report (i : Indicators) (c : Candle) : IndicatorReport :=
  let observed := i.observe c
  ⟨none, some observed.1.trend, some observed.1.crossover,
    (failure? observed.2.trend.evaluable).or (failure? observed.2.crossover.crossover)⟩

/-- Whether an event may change the indicators. -/
def MarketEvent.isFeed : MarketEvent → Bool
  | .adjust _ => false
  | _ => true

/-- What is missing for a signal is missing in the trend or in the crossover. -/
theorem SignalSettings.failure?_assess (s : SignalSettings) (c : Candle) (r : Readings) :
    failure? (s.assess c r) = (failure? r.trend).or (failure? r.crossover) := by
  obtain ⟨trend, crossover, pattern⟩ := r
  unfold assess
  cases trend with
  | error e => rfl
  | ok trend =>
    cases crossover with
    | error e => rfl
    | ok cross =>
      dsimp only [bind, Except.bind]
      cases s.direction? c trend cross pattern <;> rfl

namespace Analysis

/-- The bounds of a golden candle have no part in what is told of the indicators. -/
theorem indicators_report (a : Analysis) (c : Candle) :
    (a.report c).indicators = a.indicators.report c := by
  unfold report
  rw [MarketReport.indicators_evaluated, SignalSettings.failure?_assess]
  rfl

theorem take_of_rejected {a : Analysis} {c : Candle} {rejection : TickRejection}
    (h : (a.faults c).head? = some rejection) : a.take c = (.rejected rejection, a) := by
  unfold take
  rw [h]

theorem take_of_passed {a : Analysis} {c : Candle} (h : (a.faults c).head? = none) :
    a.take c = (a.report c, a.observe c) := by
  unfold take
  rw [h]

theorem run_candle (a : Analysis) (c : Candle) (events : List MarketEvent) :
    (a.run (.candle c :: events)).1 = (a.take c).1 :: ((a.take c).2.run events).1 := rfl

/-- Without the moves of the size bound, and with other bounds to start from, the indicators tell
the same. -/
theorem run_feed (a : Analysis) (p : PatternValidator) (events : List MarketEvent) :
    ({ a with pattern := p }.run (events.filter MarketEvent.isFeed)).1.map
        MarketReport.indicators =
      (a.run events).1.map MarketReport.indicators := by
  induction events generalizing a with
  | nil => rfl
  | cons x events ih =>
    cases x with
    | adjust size => exact ih (a.adjust size)
    | forget => exact ih { a with indicators := a.indicators.reset }
    | candle c =>
      have faults : { a with pattern := p }.faults c = a.faults c := rfl
      rw [List.filter_cons_of_pos rfl, run_candle, run_candle, List.map_cons, List.map_cons]
      cases found : (a.faults c).head? with
      | some rejection =>
        rw [take_of_rejected found, take_of_rejected (faults ▸ found), ih a]
      | none =>
        rw [take_of_passed found, take_of_passed (faults ▸ found), indicators_report,
          indicators_report]
        exact congrArg _ (ih (a.observe c))

/-- An analysis that has accepted no candle yet tells the same as long as none is rejected. -/
theorem run_unclocked (a : Analysis) {events : List MarketEvent}
    (accepted : ∀ r ∈ (a.run events).1, r.rejection = none) :
    ({ a with latest := none }.run events).1 = (a.run events).1 := by
  induction events generalizing a with
  | nil => rfl
  | cons x events ih =>
    cases x with
    | adjust size => exact ih (a.adjust size) accepted
    | forget => exact ih { a with indicators := a.indicators.reset } accepted
    | candle c =>
      rw [run_candle] at accepted
      have passed : (a.faults c).head? = none := by
        have first := accepted (a.take c).1 List.mem_cons_self
        cases found : (a.faults c).head? with
        | none => rfl
        | some rejection =>
          rw [take_of_rejected found] at first
          cases first
      have sane : ({ a with latest := none }.faults c).head? = none := by
        rw [List.head?_eq_none_iff, faults, List.append_eq_nil_iff] at passed
        rw [List.head?_eq_none_iff, faults, List.append_eq_nil_iff]
        exact ⟨passed.1, rfl⟩
      -- both take the candle, and then its time is the latest one for both
      have same : { a with latest := none }.take c = a.take c := by
        rw [take_of_passed passed, take_of_passed sane]
        rfl
      rw [run_candle, run_candle, same]

end Analysis

/-! ## The calls of two runs -/

namespace Call

/-- The tick of a call. -/
def tick? : Call → Option Tick
  | .tick t _ => some t
  | _ => none

theorem mem_filterMap_tick? {calls : List Call} {t : Tick} :
    t ∈ calls.filterMap tick? ↔ ∃ commands, .tick t commands ∈ calls := by
  rw [List.mem_filterMap]
  constructor
  · rintro ⟨c, hc, asked⟩
    cases c with
    | tick t commands =>
      cases asked
      exact ⟨commands, hc⟩
    | command c | close id price closedAt | forget => cases asked
  · rintro ⟨commands, hc⟩
    exact ⟨_, hc, rfl⟩

theorem filter_commands (cs : List Command) :
    (cs.filterMap Command.marketEvent?).filter MarketEvent.isFeed = [] := by
  induction cs with
  | nil => rfl
  | cons c cs ih => cases c <;> exact ih

/-- Without resets the feed of the indicators is the candles of the ticks. -/
theorem filter_marketEvents {calls : List Call} (kept : .forget ∉ calls) :
    (calls.flatMap marketEvents).filter MarketEvent.isFeed =
      (calls.filterMap tick?).map fun t => .candle t.candle := by
  induction calls with
  | nil => rfl
  | cons c cs ih =>
    have others := ih fun h => kept (List.mem_cons_of_mem c h)
    rw [List.flatMap_cons, List.filter_append, others]
    cases c with
    | tick t commands =>
      rw [marketEvents, List.filter_append, filter_commands]
      rfl
    | command c => cases c <;> rfl
    | close id price closedAt => rfl
    | forget => exact absurd List.mem_cons_self kept

end Call

/-- The commands that an entry of a log tells to be obeyed. -/
def obeyedCommands : Call × Reply → List Command
  | (_, .report r) => (r.commands.filter fun o => !o.status.isRejected).map CommandOutcome.command
  | (.command c, .obeyed (.ok _)) => [c]
  | _ => []

namespace Engine

variable {s : Settings} {e : Engine}

/-! ## The bounds of a golden candle -/

theorem pattern_after {c : Command}
    (still : ∀ size, c = .adjustMinSize size → (e.status c).isRejected = true) :
    (e.after c).pattern = e.pattern := by
  unfold after
  cases c with
  | pause | resume | ignoreAlert => rfl
  | skipToLevel level =>
    rw [apply, skipTo]
    cases e.book.ladder.skipTo level <;> rfl
  | adjustMinSize size =>
    have refused := still size rfl
    unfold status at refused
    rcases applied : e.apply (.adjustMinSize size) with error | ⟨_ | _, next⟩
    · rfl
    · rw [applied] at refused
      cases refused
    · rw [applied] at refused
      cases refused

theorem pattern_obey {cs : List Command}
    (still : ∀ size, Command.adjustMinSize size ∉
      ((e.obey cs).1.filter fun o => !o.status.isRejected).map CommandOutcome.command) :
    (e.obey cs).2.pattern = e.pattern := by
  induction cs generalizing e with
  | nil => rfl
  | cons c cs ih =>
    have first : (e.after c).pattern = e.pattern := by
      refine pattern_after fun size moved => ?_
      by_contra obeyed
      refine still size (List.mem_map.mpr ⟨⟨c, e.status c⟩, ?_, moved⟩)
      exact List.mem_filter.mpr ⟨List.mem_cons_self, by simpa using obeyed⟩
    refine (ih fun size moved => still size ?_).trans first
    obtain ⟨o, ho, same⟩ := List.mem_map.mp moved
    have more := List.mem_filter.mp ho
    exact List.mem_map.mpr
      ⟨o, List.mem_filter.mpr ⟨List.mem_cons_of_mem _ more.1, more.2⟩, same⟩

theorem pattern_call {c : Call}
    (still : ∀ size, .adjustMinSize size ∉ obeyedCommands (c, (e.call c).1)) :
    (e.call c).2.pattern = e.pattern := by
  cases c with
  | tick t commands =>
    have obeyed : (e.obey commands).2.pattern = e.pattern := pattern_obey still
    cases screened : t.screen (e.obey commands).2.latest with
    | some rejection =>
      rw [call, tick_of_rejected screened]
      exact obeyed
    | none =>
      rw [call, tick_of_passed screened]
      exact obeyed
  | command c =>
    refine pattern_after fun size moved => ?_
    by_contra obeyed
    have accepted : ∃ changed, e.command c = .ok changed := by
      unfold status at obeyed
      unfold command
      rcases applied : e.apply c with error | ⟨changed, next⟩
      · rw [applied] at obeyed
        exact absurd rfl obeyed
      · exact ⟨changed, rfl⟩
    obtain ⟨changed, accepted⟩ := accepted
    refine still size ?_
    rw [call, accepted, moved]
    exact List.mem_singleton_self _
  | close id price closedAt =>
    obtain ⟨book, same⟩ := e.afterClose_eq id price closedAt
    rw [call, same]
  | forget => rfl

theorem pattern_run {calls : List Call}
    (still : ∀ size, .adjustMinSize size ∉ (e.run calls).1.flatMap obeyedCommands) :
    (e.run calls).2.pattern = e.pattern := by
  induction calls generalizing e with
  | nil => rfl
  | cons c cs ih =>
    rw [run, List.flatMap_cons] at still
    have first := pattern_call (e := e) (c := c) fun size h =>
      still size (List.mem_append_left _ h)
    exact (ih fun size h => still size (List.mem_append_right _ h)).trans first

/-! ## Accepted ticks -/

theorem isSound_of_screen {t : Tick} {latest : Option Timestamp} (passed : t.screen latest = none)
    (commands : List Command) : (Call.tick t commands).IsSound := by
  obtain ⟨-, -, account, quote⟩ := Tick.screen_eq_none.mp passed
  exact ⟨account, quote⟩

theorem isSound_of_accepted {calls : List Call}
    (accepted : ∀ r ∈ marketReports (e.run calls).1, r.rejection = none) :
    ∀ c ∈ calls, c.IsSound := by
  induction calls generalizing e with
  | nil => exact nofun
  | cons c cs ih =>
    intro c' hc
    have others : ∀ r ∈ marketReports ((e.call c).2.run cs).1, r.rejection = none := fun r hr =>
      accepted r (List.Sublist.subset ((List.sublist_cons_self _ _).filterMap _) hr)
    rcases List.mem_cons.mp hc with rfl | hc
    · cases c' with
      | tick t commands =>
        have first := accepted (e.tick t commands).1.market List.mem_cons_self
        have passed : (e.tick t commands).1.rejection? = none := first
        rw [rejection?_tick] at passed
        exact isSound_of_screen passed commands
      | command c | close id price closedAt | forget => trivial
    · exact ih others c' hc

/-! ## A new engine -/

/-- An engine that has forgotten its candles, with the bounds of a new engine, has the analysis of
the new engine but for the time of the latest candle. -/
theorem Reached.analysis_reinitialize (h : Reached s e) :
    { e.reinitialize.analysis with pattern := ⟨s.pattern⟩, latest := none } =
      (fresh s).analysis := by
  have settings : e.settings = s := h.observes.1
  unfold analysis reinitialize
  dsimp only
  rw [h.reset_eq, settings]
  rfl

/-- The calls of two runs with the same ticks and no reset feed the indicators the same. -/
theorem feed_eq {calls others : List Call} (kept : .forget ∉ calls) (kept' : .forget ∉ others)
    (ticks : calls.filterMap Call.tick? = others.filterMap Call.tick?) :
    (calls.flatMap Call.marketEvents).filter MarketEvent.isFeed =
      (others.flatMap Call.marketEvents).filter MarketEvent.isFeed := by
  rw [Call.filter_marketEvents kept, Call.filter_marketEvents kept', ticks]

theorem isSound_of_ticks {calls others : List Call}
    (ticks : calls.filterMap Call.tick? = others.filterMap Call.tick?)
    (sound : ∀ c ∈ calls, c.IsSound) : ∀ c ∈ others, c.IsSound := by
  intro c hc
  cases c with
  | tick t commands =>
    have mem := Call.mem_filterMap_tick?.mpr ⟨commands, hc⟩
    rw [← ticks] at mem
    obtain ⟨commands', hc'⟩ := Call.mem_filterMap_tick?.mp mem
    -- the commands have no part in the soundness of a call
    have same : (Call.tick t commands').IsSound := sound _ hc'
    exact same
  | command c | close id price closedAt | forget => trivial

/-- **Reinitialized indicators are as good as new.** When an engine forgets its candles, nothing but
its indicators changes, and they become those of a new engine. If it then accepts some ticks,
whatever else is called, a new engine accepts them too and tells the same of the trend, of the
crossover and of what is missing. If no move of the size bound was obeyed before and the same moves
come after, the new engine also tells the same pattern and the same type of signal. -/
theorem restart_eq_fresh {e0 : Engine} (built : new s = .ok e0) (before : List Call)
    (running : (e0.run before).2 = e) :
    e.reinitialize = { e with indicators := e0.indicators } ∧
    ∀ later later' : List Call, .forget ∉ later → .forget ∉ later' →
      later.filterMap Call.tick? = later'.filterMap Call.tick? →
      (∀ r ∈ marketReports (e.reinitialize.run later).1, r.rejection = none) →
      (marketReports (e0.run later').1).map MarketReport.indicators =
          (marketReports (e.reinitialize.run later).1).map MarketReport.indicators ∧
        ((∀ size, .adjustMinSize size ∉ (e0.run before).1.flatMap obeyedCommands) →
          later.flatMap Call.marketEvents = later'.flatMap Call.marketEvents →
          marketReports (e0.run later').1 = marketReports (e.reinitialize.run later).1) := by
  have reached : Reached s e := ⟨e0, before, built, running⟩
  obtain ⟨-, rfl⟩ := new_eq_ok.mp built
  refine ⟨congrArg (fun i => { e with indicators := i }) reached.reset_eq,
    fun later later' kept kept' ticks accepted => ?_⟩
  have start := reached.analysis_reinitialize
  have sound := isSound_of_accepted accepted
  have run := congrArg Prod.fst (e.reinitialize.run_analysis sound)
  have run' := congrArg Prod.fst ((fresh s).run_analysis (isSound_of_ticks ticks sound))
  dsimp only at run run'
  constructor
  · -- without the moves of the size bound both runs get the same events
    have fed := e.reinitialize.analysis.run_feed ⟨s.pattern⟩ (later.flatMap Call.marketEvents)
    have fed' := (fresh s).analysis.run_feed ⟨s.pattern⟩ (later'.flatMap Call.marketEvents)
    have accepted' : ∀ r ∈ ({ e.reinitialize.analysis with pattern := ⟨s.pattern⟩ }.run
        ((later.flatMap Call.marketEvents).filter MarketEvent.isFeed)).1, r.rejection = none := by
      intro r hr
      have told := List.mem_map_of_mem (f := MarketReport.indicators) hr
      rw [fed, run] at told
      obtain ⟨r', hr', same⟩ := List.mem_map.mp told
      exact (congrArg IndicatorReport.rejection same).symm.trans (accepted r' hr')
    have known : { (fresh s).analysis with pattern := ⟨s.pattern⟩ } = (fresh s).analysis := rfl
    have unclocked : ({ e.reinitialize.analysis with pattern := ⟨s.pattern⟩, latest := none }.run
        ((later.flatMap Call.marketEvents).filter MarketEvent.isFeed)).1 =
          ({ e.reinitialize.analysis with pattern := ⟨s.pattern⟩ }.run
            ((later.flatMap Call.marketEvents).filter MarketEvent.isFeed)).1 :=
      Analysis.run_unclocked _ accepted'
    rw [start, feed_eq kept kept' ticks] at unclocked
    rw [known] at fed'
    rw [← run', ← run, ← fed', ← fed, feed_eq kept kept' ticks, unclocked]
  · intro still events
    have pattern : e.reinitialize.analysis.pattern = ⟨s.pattern⟩ := by
      rw [← running]
      exact pattern_run still
    rw [← run] at accepted
    have unclocked := e.reinitialize.analysis.run_unclocked accepted
    rw [← run', ← run, ← unclocked, events, ← start, ← pattern]

/-- A candle before the market falls, with an attempt to move the size bound that is refused. -/
def earlierCalls : List Call :=
  [.tick (flatTick (hourly 0 100.0 101.0 99.0 100.5)) [.skipToLevel 2, .adjustMinSize (-1.0)]]

/-- The falling market and its turn an hour later, with a smaller size bound. -/
def laterCalls : List Call :=
  .command (.adjustMinSize 0.25) ::
    [hourly 1 110.0 110.5 104.5 105.0, hourly 2 105.0 105.2 103.8 104.0,
      hourly 3 104.0 104.2 102.8 103.0, hourly 4 103.0 110.5 102.9 110.0].map fun c =>
        .tick (flatTick c) []

/-- A new engine after the candle before the fall. -/
def earlierEngine : Engine := ((fresh turningSettings).run earlierCalls).2

/-- A new engine tells the same of the turn, a buy, although it is paused. -/
theorem restart_eq_fresh_turning :
    new turningSettings = .ok (fresh turningSettings) ∧
    marketReports ((fresh turningSettings).run (.command .pause :: laterCalls)).1 =
      marketReports (earlierEngine.reinitialize.run laterCalls).1 ∧
    (marketReports ((fresh turningSettings).run (.command .pause :: laterCalls)).1).map
      MarketReport.type = [.none, .none, .none, .buy] := by
  have unmoved :
      ((fresh turningSettings).run earlierCalls).1.flatMap obeyedCommands = [.skipToLevel 2] := by
    decide +kernel
  have accepted : ∀ r ∈ marketReports (earlierEngine.reinitialize.run laterCalls).1,
      r.rejection = none := by
    decide +kernel
  have kept : .forget ∉ laterCalls := by simp [laterCalls]
  obtain ⟨-, same⟩ := restart_eq_fresh (e := earlierEngine) new_turningSettings earlierCalls rfl
  obtain ⟨-, reports⟩ := same laterCalls (.command .pause :: laterCalls) kept
    (by simp [laterCalls]) rfl accepted
  refine ⟨new_turningSettings, reports (fun size obeyed => ?_) rfl, by decide +kernel⟩
  rw [unmoved] at obeyed
  cases List.mem_singleton.mp obeyed

end Engine

end TrendLadder
