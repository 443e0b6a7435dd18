import TrendLadder.Proofs.Engine.Run

/-!
# What the signals depend on

The market side of an engine is its `Analysis`: the indicators, the bounds of a golden candle and
what decides about a signal. It takes only the candles, the moves of the size bound and the resets
out of the calls (`Call.marketEvents`), and it alone decides what a report tells of the market
(`MarketReport`): an engine whose accounts and quotes are sane tells what its analysis tells of the
market events of its calls (`Engine.run_analysis`). So two engines that agree on the settings of
the analysis tell the same of the same market events, whatever else they are asked
(`Engine.marketReports_eq`).
-/

namespace TrendLadder

/-! ## The market side of calls and reports -/

/-- What happens on the market side. -/
inductive MarketEvent where
  | candle (c : Candle)
  /-- The lower bound of the body of a golden candle is moved. -/
  | adjust (size : Float)
  | forget
deriving DecidableEq

/-- The market side of a command. -/
def Command.marketEvent? : Command → Option MarketEvent
  | .adjustMinSize size => some (.adjust size)
  | _ => none

namespace Call

/-- The market side of a call; a tick obeys its commands before it takes its candle. -/
def marketEvents : Call → List MarketEvent
  | .tick t commands => commands.filterMap Command.marketEvent? ++ [.candle t.candle]
  | .command c => c.marketEvent?.toList
  | .close .. => []
  | .forget => [.forget]

/-- The account and the quote that come with a candle are sane. -/
def IsSound : Call → Prop
  | .tick t _ => t.account.isSane = true ∧ t.quote.isSane = true
  | _ => True

instance : DecidablePred IsSound := fun c => by
  unfold IsSound
  split <;> infer_instance

end Call

/-- What a report tells of the market and of the signal. -/
structure MarketReport where
  rejection : Option TickRejection
  trend : Option TrendReading
  crossover : Option CrossoverReading
  pattern : Option Verdict
  notEvaluable : Option InsufficientHistory
  type : SignalType
  confidence : Float
deriving DecidableEq

namespace MarketReport

/-- What is told of a rejected candle. -/
def rejected (rejection : TickRejection) : MarketReport :=
  ⟨some rejection, none, none, none, none, .none, 0.0⟩

/-- What is told of an evaluated candle, with the type and the confidence of its signal or what is
missing for one. -/
def evaluated (trend : TrendReading) (crossover : CrossoverReading) (pattern : Verdict)
    (assessed : Except InsufficientHistory (SignalType × Float)) : MarketReport :=
  let signal := assessed.toOption.getD (.none, 0.0)
  ⟨none, some trend, some crossover, some pattern, failure? assessed, signal.1, signal.2⟩

end MarketReport

/-- The market side of a report. -/
def TickReport.market (r : TickReport) : MarketReport where
  rejection := r.rejection?
  trend := r.evaluation?.map Evaluation.trend
  crossover := r.evaluation?.map Evaluation.crossover
  pattern := r.evaluation?.map Evaluation.pattern
  notEvaluable := r.notEvaluable?
  type := r.signal.type
  confidence := r.signal.confidence

/-- The market side of a reply. -/
def Reply.market? : Reply → Option MarketReport
  | .report r => some r.market
  | _ => none

/-- The market side of the replies in a log, one for each tick. -/
def marketReports (log : List (Call × Reply)) : List MarketReport :=
  log.filterMap fun x => x.2.market?

/-- Two settings analyse the market in the same way. -/
structure Settings.SameAnalysis (s t : Settings) : Prop where
  historyCapacity : s.historyCapacity = t.historyCapacity
  trend : s.trend = t.trend
  crossover : s.crossover = t.crossover
  pattern : s.pattern = t.pattern
  signal : s.signal = t.signal

theorem TickReport.market_of_ok {r : TickReport} {x : Evaluation} (result : r.result = .ok x) :
    r.market = .evaluated x.trend x.crossover x.pattern
      (x.composed.map fun s => (s.type, s.confidence)) := by
  have evaluation : r.evaluation? = some x := by
    rw [evaluation?, result]
    rfl
  have rejection : r.rejection? = none := by
    rw [rejection?, result]
    rfl
  unfold market notEvaluable? signal
  rw [evaluation, rejection]
  cases composed : x.composed with
  | error missing => simp [MarketReport.evaluated, failure?, signalOr, Signal.none, composed,
      Except.map, Except.toOption]
  | ok sig => simp [MarketReport.evaluated, failure?, signalOr, composed, Except.map,
      Except.toOption]

/-! ## Analysis -/

/-- The type and the confidence of the signal of a candle. -/
def SignalSettings.assess (s : SignalSettings) (c : Candle) (r : Readings) :
    Except InsufficientHistory (SignalType × Float) := do
  let trend ← r.trend
  let cross ← r.crossover
  match s.direction? c trend cross r.pattern with
  | none => return (.none, 0.0)
  | some d => return (.ofDirection d, s.weights.confidence (r.pattern.agrees d))

/-- Pricing and sizing have no part in the type and the confidence of a signal. -/
theorem compose_assess (s : SignalSettings) (pricing : PricingSettings) (c : Candle)
    (r : Readings) (sizing : Sizing) :
    (compose s pricing c r sizing).map (fun sig => (sig.type, sig.confidence)) = s.assess c r := by
  obtain ⟨readTrend, readCross, pattern⟩ := r
  unfold compose SignalSettings.assess
  cases readTrend with
  | error e => rfl
  | ok trend =>
    cases readCross with
    | error e => rfl
    | ok cross =>
      dsimp only [bind, Except.bind]
      cases s.direction? c trend cross pattern <;> rfl

/-- The market side of an engine. -/
structure Analysis where
  signal : SignalSettings
  indicators : Indicators
  pattern : PatternValidator
  latest : Option Timestamp

namespace Analysis

/-- The faults of a candle by itself. -/
def faults (a : Analysis) (c : Candle) : List TickRejection :=
  Tick.rejectIf (!c.isSane) .insaneCandle ++
    match a.latest with
    | none => []
    | some latest => Tick.rejectIf (!(latest < c.timestamp : Bool)) (.outOfOrder c.timestamp latest)

/-- What is told of a candle that is not rejected. -/
def report (a : Analysis) (c : Candle) : MarketReport :=
  let observed := a.indicators.observe c
  let pattern := a.pattern.validate c observed.1.previous observed.1.trend.direction
  .evaluated observed.1.trend observed.1.crossover pattern
    (a.signal.assess c (observed.2.readings pattern))

/-- Takes a candle that is not rejected. -/
def observe (a : Analysis) (c : Candle) : Analysis :=
  { a with indicators := (a.indicators.observe c).2, latest := some c.timestamp }

/-- Takes a candle. -/
def take (a : Analysis) (c : Candle) : MarketReport × Analysis :=
  match (a.faults c).head? with
  | some rejection => (.rejected rejection, a)
  | none => (a.report c, a.observe c)

/-- Moves the lower bound of the body, if the size is one. -/
def adjust (a : Analysis) (size : Float) : Analysis :=
  { a with pattern := (a.pattern.adjustMinSize size).toOption.getD a.pattern }

/-- Takes the events of a market in turn and gives a report of each candle. -/
def run (a : Analysis) : List MarketEvent → List MarketReport × Analysis
  | [] => ([], a)
  | .candle c :: events =>
    let others := (a.take c).2.run events
    ((a.take c).1 :: others.1, others.2)
  | .adjust size :: events => (a.adjust size).run events
  | .forget :: events => { a with indicators := a.indicators.reset }.run events

theorem run_append (a : Analysis) (xs ys : List MarketEvent) :
    a.run (xs ++ ys) = ((a.run xs).1 ++ ((a.run xs).2.run ys).1, ((a.run xs).2.run ys).2) := by
  induction xs generalizing a with
  | nil => rfl
  | cons x xs ih =>
    cases x with
    | candle c =>
      rw [List.cons_append, run, run]
      dsimp only
      rw [ih]
      rfl
    | adjust size => exact ih _
    | forget => exact ih _

end Analysis

/-! ## The analysis of an engine -/

namespace Engine

variable {e : Engine}

/-- The market side of an engine. -/
def analysis (e : Engine) : Analysis :=
  ⟨e.settings.signal, e.indicators, e.pattern, e.latest⟩

/-- With a sane account and a sane quote only the candle can be at fault. -/
theorem screen_eq_faults {t : Tick} (account : t.account.isSane = true)
    (quote : t.quote.isSane = true) :
    t.screen e.latest = (e.analysis.faults t.candle).head? := by
  have sane (x : TickRejection) : Tick.rejectIf (!true) x = [] := rfl
  have order : t.orderFaults e.latest =
      match e.latest with
      | none => []
      | some latest =>
        Tick.rejectIf (!(latest < t.candle.timestamp : Bool))
          (.outOfOrder t.candle.timestamp latest) := by
    cases e.latest <;> rfl
  rw [Tick.screen, Tick.faults, account, quote, sane, sane, List.append_nil, List.append_nil,
    order]
  rfl

/-- Of the commands only a move of the size bound concerns the analysis. -/
theorem analysis_after (e : Engine) (c : Command) :
    e.analysis.run c.marketEvent?.toList = ([], (e.after c).analysis) := by
  unfold after
  cases c with
  | pause | resume | ignoreAlert => rfl
  | skipToLevel level =>
    rw [apply, skipTo]
    cases e.book.ladder.skipTo level <;> rfl
  | adjustMinSize size =>
    rw [apply, adjustMinSize]
    show ([], e.analysis.adjust size) = _
    unfold Analysis.adjust analysis
    cases e.pattern.adjustMinSize size <;> rfl

theorem analysis_obey (e : Engine) (cs : List Command) :
    e.analysis.run (cs.filterMap Command.marketEvent?) = ([], (e.obey cs).2.analysis) := by
  induction cs generalizing e with
  | nil => rfl
  | cons c cs ih =>
    have split : (c :: cs).filterMap Command.marketEvent? =
        c.marketEvent?.toList ++ cs.filterMap Command.marketEvent? := by
      rw [List.filterMap_cons]
      cases c.marketEvent? <;> rfl
    rw [split, Analysis.run_append, analysis_after]
    dsimp only
    rw [ih]
    rfl

/-- What an evaluation tells of the market is what the analysis tells. -/
theorem market_evaluate (e : Engine) (t : Tick) {r : TickReport}
    (result : r.result = .ok (e.evaluate t).1) : r.market = e.analysis.report t.candle := by
  have composed : (e.evaluate t).1.composed =
    TrendLadder.compose e.settings.signal e.settings.pricing t.candle
      ((e.indicators.observe t.candle).2.readings (e.evaluate t).1.pattern)
      ((e.settled t).sizing t.quote) := rfl
  rw [TickReport.market_of_ok result, composed, compose_assess]
  rfl

/-- A call moves the analysis by its market side, which alone decides what a report tells of the
market. -/
theorem call_analysis (e : Engine) {c : Call} (sound : c.IsSound) :
    e.analysis.run c.marketEvents = ((e.call c).1.market?.toList, (e.call c).2.analysis) := by
  cases c with
  | tick t commands =>
    obtain ⟨account, quote⟩ := sound
    have screened := (e.obey commands).2.screen_eq_faults account quote
    rw [Call.marketEvents, Analysis.run_append, analysis_obey]
    dsimp only [Analysis.run, Analysis.take]
    rw [← screened]
    cases found : t.screen (e.obey commands).2.latest with
    | some rejection =>
      rw [call, tick_of_rejected found]
      rfl
    | none =>
      rw [call, tick_of_passed found]
      refine Prod.ext ?_ rfl
      exact congrArg ([·]) ((e.obey commands).2.market_evaluate t rfl).symm
  | command c => exact e.analysis_after c
  | close id price closedAt =>
    obtain ⟨book, same⟩ := e.afterClose_eq id price closedAt
    rw [call, same]
    rfl
  | forget => rfl

/-- The analysis of the market events of a run tells what the run tells of the market. -/
theorem run_analysis (e : Engine) {calls : List Call} (sound : ∀ c ∈ calls, c.IsSound) :
    e.analysis.run (calls.flatMap Call.marketEvents) =
      (marketReports (e.run calls).1, (e.run calls).2.analysis) := by
  induction calls generalizing e with
  | nil => rfl
  | cons c cs ih =>
    have others := ih (e.call c).2 fun c2 hc => sound c2 (List.mem_cons_of_mem c hc)
    have reports : marketReports (e.run (c :: cs)).1 =
        (e.call c).1.market?.toList ++ marketReports ((e.call c).2.run cs).1 := by
      show ((c, (e.call c).1) :: ((e.call c).2.run cs).1).filterMap _ = _
      rw [List.filterMap_cons]
      cases (e.call c).1.market? <;> rfl
    rw [List.flatMap_cons, Analysis.run_append, e.call_analysis (sound c List.mem_cons_self),
      reports]
    dsimp only
    rw [others]
    rfl

theorem analysis_fresh {s1 s2 : Settings} (same : s1.SameAnalysis s2) :
    (fresh s1).analysis = (fresh s2).analysis := by
  obtain ⟨capacity, trend, crossover, pattern, signal⟩ := same
  unfold analysis fresh Indicators.start
  dsimp only
  rw [capacity, trend, crossover, pattern, signal]

/-- **Money, risk and accounts do not influence the signals.** Two engines whose settings analyse
the market in the same way, and which get the same candles, moves of the size bound and resets in
the same order, tell the same of the market at every tick, whatever else is asked of them and
whatever their sane accounts and quotes are. -/
theorem marketReports_eq {s1 s2 : Settings} {e1 e2 : Engine} {calls1 calls2 : List Call}
    (built1 : new s1 = .ok e1) (built2 : new s2 = .ok e2) (settings : s1.SameAnalysis s2)
    (sound1 : ∀ c ∈ calls1, c.IsSound) (sound2 : ∀ c ∈ calls2, c.IsSound)
    (events : calls1.flatMap Call.marketEvents = calls2.flatMap Call.marketEvents) :
    marketReports (e1.run calls1).1 = marketReports (e2.run calls2).1 := by
  obtain ⟨-, rfl⟩ := new_eq_ok.mp built1
  obtain ⟨-, rfl⟩ := new_eq_ok.mp built2
  have run1 := (fresh s1).run_analysis sound1
  have run2 := (fresh s2).run_analysis sound2
  rw [events, analysis_fresh settings, run2] at run1
  exact (congrArg Prod.fst run1).symm

/-- Settings that analyse the market as `turningSettings` do and trade in another way. -/
def otherSettings : Settings :=
  { turningSettings with
    pricing := ⟨50.0, 200.0⟩
    ladder := ⟨[0.5], [4.0]⟩
    risk := ⟨1.0, 1.0, 300.0, 5⟩
    positions := ⟨false, 3⟩ }

/-- The falling market and its turn, with the trade of `turningSettings` closed by hand and a moved
size bound. -/
def tradedCalls : List Call :=
  fallingCalls ++ [.command (.adjustMinSize 0.25), .tick (flatTick turningCandle) [],
    .close 1 111.0 ⟨1709530000, 0⟩, .forget]

/-- The same market for another account, which is paused and lets the signal pass. -/
def passedCalls : List Call :=
  (fallingCandles.map fun c => .tick { flatTick c with account := ⟨50.0, 40.0, 30.0⟩ } [.pause]) ++
    [.command (.skipToLevel 1),
      .tick { flatTick turningCandle with account := .flat 7.0, newDay := true }
        [.adjustMinSize 0.25, .ignoreAlert], .forget]

theorem marketReports_eq_turning :
    new turningSettings = .ok (fresh turningSettings) ∧
    new otherSettings = .ok (fresh otherSettings) ∧
    tradedCalls.flatMap Call.marketEvents = passedCalls.flatMap Call.marketEvents ∧
    marketReports ((fresh turningSettings).run tradedCalls).1 =
      marketReports ((fresh otherSettings).run passedCalls).1 ∧
    (marketReports ((fresh otherSettings).run passedCalls).1).map MarketReport.type =
      [.none, .none, .none, .buy] := by
  have built : new otherSettings = .ok (fresh otherSettings) :=
    new_eq_ok.mpr ⟨by decide +kernel, rfl⟩
  have events : tradedCalls.flatMap Call.marketEvents = passedCalls.flatMap Call.marketEvents := by
    decide +kernel
  exact ⟨new_turningSettings, built, events,
    marketReports_eq new_turningSettings built ⟨rfl, rfl, rfl, rfl, rfl⟩ (by decide +kernel)
      (by decide +kernel) events, by decide +kernel⟩

end Engine

end TrendLadder
