import TrendLadder.Proofs.Engine.Indicators
import TrendLadder.Proofs.Engine.Rejection
import TrendLadder.Proofs.Market.History

/-!
# Indicators in lock-step

The candles that the indicators of an engine have observed since they last forgot can be read off a
log (`observedCandles`). `inLockStep_observedCandles` says that the history, the crossover and the
trend are all states of these candles, after any calls, and that the history never refuses a candle
that the engine observes.

The invariant is `Engine.Tracks`. What makes the history accept every candle is that the engine
keeps the time of its latest evaluated tick when the indicators forget: no observed candle is later
than that time, and the screen lets only later candles through.
-/

namespace TrendLadder

/-! ## The observed candles of a log -/

/-- The observed candles after one more call. -/
def observedAfter (candles : List Candle) : Call × Reply → List Candle
  | (.tick t _, .report r) => if r.rejection?.isNone then candles ++ [t.candle] else candles
  | (.forget, _) => []
  | _ => candles

/-- The candles of the evaluated ticks since the indicators last forgot. -/
def observedCandles (log : List (Call × Reply)) : List Candle := log.foldl observedAfter []

theorem Tick.lt_of_screen {t : Tick} {latest : Option Timestamp} {time : Timestamp}
    (passed : t.screen latest = none) (some : latest = some time) : time < t.candle.timestamp := by
  by_contra notLater
  have late := Timestamp.not_lt.mp notLater
  exact Tick.screen_ne_none.mpr (.inr (.inl ⟨time, some, late⟩)) passed

namespace Engine

/-! ## The invariant -/

/-- The indicators have observed these candles, and no others, since they last forgot. -/
structure Tracks (e : Engine) (s : Settings) (candles : List Candle) : Prop where
  settings_eq : e.settings = s
  follows : e.indicators.Follows s candles
  history : e.indicators.history.Follows s.historyCapacity candles
  reached : ∀ c ∈ candles, ∃ time, e.latest = some time ∧
    (c.timestamp < time ∨ c.timestamp = time)

variable {s : Settings} {e : Engine} {candles : List Candle}

theorem tracks_fresh (valid : s.faults = []) : (fresh s).Tracks s [] where
  settings_eq := rfl
  follows := Indicators.follows_start valid
  history := History.follows_empty _
  reached := nofun

namespace Tracks

/-- Only the indicators, the time of the latest evaluated tick and the settings matter. -/
theorem congr (h : e.Tracks s candles) {next : Engine} (settings : next.settings = e.settings)
    (indicators : next.indicators = e.indicators) (latest : next.latest = e.latest) :
    next.Tracks s candles := by
  constructor
  case settings_eq => exact settings.trans h.settings_eq
  case follows => exact indicators ▸ h.follows
  case history => exact indicators ▸ h.history
  case reached => exact latest ▸ h.reached

theorem after (h : e.Tracks s candles) (c : Command) : (e.after c).Tracks s candles :=
  h.congr (e.settings_after c) (e.indicators_after c) (e.latest_after c)

theorem obey (h : e.Tracks s candles) (cs : List Command) : (e.obey cs).2.Tracks s candles :=
  obey_induct (P := fun x => x.Tracks s candles) (fun c h => h.after c) h cs

theorem forget (valid : s.faults = []) (h : e.Tracks s candles) : e.reinitialize.Tracks s [] where
  settings_eq := h.settings_eq
  follows := h.follows.reset valid
  history := h.history.clear
  reached := nofun

theorem newer (h : e.Tracks s candles) {t : Tick} (passed : t.screen e.latest = none) :
    ∀ a ∈ candles, a.timestamp < t.candle.timestamp := by
  intro a ha
  obtain ⟨time, latest, before | same⟩ := h.reached a ha
  · exact Timestamp.lt_trans before (Tick.lt_of_screen passed latest)
  · rw [same]
    exact Tick.lt_of_screen passed latest

theorem evaluate (valid : s.faults = []) (h : e.Tracks s candles) {t : Tick}
    (passed : t.screen e.latest = none) : (e.evaluate t).2.Tracks s (candles ++ [t.candle]) where
  settings_eq := h.settings_eq
  follows := h.follows.observe valid t.candle
  history := h.history.push (h.newer passed)
  reached c hc := by
    refine ⟨t.candle.timestamp, rfl, ?_⟩
    rcases List.mem_append.mp hc with hc | hc
    · exact .inl (h.newer passed c hc)
    · exact .inr (congrArg Candle.timestamp (List.mem_singleton.mp hc))

theorem call (valid : s.faults = []) (h : e.Tracks s candles) (c : Call) :
    (e.call c).2.Tracks s (observedAfter candles (c, (e.call c).1)) := by
  cases c with
  | tick t commands =>
    have obeyed := h.obey commands
    rw [Engine.call, observedAfter]
    dsimp only
    rw [rejection?_tick]
    cases screened : t.screen (e.obey commands).2.latest with
    | some rejection =>
      rw [tick_of_rejected screened]
      exact obeyed
    | none =>
      rw [tick_of_passed screened]
      exact obeyed.evaluate valid screened
  | command c => exact h.after c
  | close id price closedAt =>
    obtain ⟨book, same⟩ := e.afterClose_eq id price closedAt
    rw [Engine.call, same]
    exact h.congr rfl rfl rfl
  | forget => exact h.forget valid

theorem run (valid : s.faults = []) (h : e.Tracks s candles) (calls : List Call) :
    (e.run calls).2.Tracks s ((e.run calls).1.foldl observedAfter candles) := by
  induction calls generalizing e candles with
  | nil => exact h
  | cons c cs ih => exact ih (h.call valid c)

end Tracks

/-- What was called of a new engine tells what its indicators have observed. -/
theorem tracks_run (built : new s = .ok e) (calls : List Call) :
    (e.run calls).2.Tracks s (observedCandles (e.run calls).1) := by
  obtain ⟨valid, rfl⟩ := new_eq_ok.mp built
  exact (tracks_fresh valid).run valid calls

/-! ## Lock-step -/

/-- What an engine keeps of the candles that its indicators have observed. -/
structure InLockStep (e : Engine) (s : Settings) (candles : List Candle) : Prop where
  /-- The history keeps the last of them. -/
  history : e.indicators.history.candles = lastItems s.historyCapacity candles
  ascending : e.indicators.history.candles.Pairwise fun a b => a.timestamp < b.timestamp
  reached : ∀ c ∈ e.indicators.history.candles, ∃ time, e.latest = some time ∧
    (c.timestamp < time ∨ c.timestamp = time)
  /-- The crossover keeps the closing prices of the history. -/
  closings : e.indicators.crossover.closings.items =
    e.indicators.history.candles.map Candle.closing
  /-- The trend has seen them all. -/
  seen : e.indicators.trend.seen = candles.length
  /-- The history accepts the candle of a tick that is not rejected, at the time it is pushed. -/
  accepts : ∀ t commands, (e.tick t commands).1.rejection? = none →
    ((e.obey commands).2.settled t).indicators.history.accepts t.candle = true

theorem Tracks.inLockStep (valid : s.faults = []) (h : e.Tracks s candles) :
    e.InLockStep s candles := by
  obtain ⟨-, -, room⟩ := Settings.averages_of_faults valid
  have history : e.indicators.history.candles = lastItems s.historyCapacity candles := by
    rw [h.history.candles_eq, max_eq_left (by omega)]
  have held : List.Sublist e.indicators.history.candles candles := by
    rw [history]
    exact List.drop_sublist _ _
  constructor
  case history => exact history
  case ascending => exact h.history.ascending.sublist held
  case reached => exact fun c hc => h.reached c (held.subset hc)
  case closings =>
    have closings := h.follows.crossover.holds
    rw [Recent.Holds, h.follows.crossover.capacity_eq, lastItems, List.length_map,
      ← List.map_drop] at closings
    rw [closings, history, lastItems]
  case seen => exact h.follows.trend
  case accepts =>
    intro t commands accepted
    rw [rejection?_tick] at accepted
    have obeyed := h.obey commands
    exact (obeyed.history.accepts_iff t.candle).mpr (obeyed.newer accepted)

/-- **The indicators stay in lock-step.** After any calls of a new engine the history holds the last
of the candles that were observed since the indicators last forgot, the crossover their closing
prices, and the trend has seen all of them. The history accepts every further candle. -/
theorem inLockStep_observedCandles (built : new s = .ok e) (calls : List Call) :
    (e.run calls).2.InLockStep s (observedCandles (e.run calls).1) :=
  (tracks_run built calls).inLockStep (new_eq_ok.mp built).1

/-- Settings whose history is as long as the longer average. -/
def tightSettings : Settings := { turningSettings with historyCapacity := 3 }

theorem new_tightSettings : new tightSettings = .ok (fresh tightSettings) :=
  new_eq_ok.mpr ⟨by decide +kernel, rfl⟩

/-- The candle that turns the falling market and three that rise after it. -/
def risingCandles : List Candle :=
  [turningCandle, hourly 4 110.0 112.5 109.5 112.0, hourly 5 112.0 114.5 111.5 114.0,
    hourly 6 114.0 116.5 113.5 116.0]

/-- The falling market, which is forgotten, and the rising one with a tick that is rejected. -/
def forgetfulCalls : List Call :=
  fallingCalls ++ .forget :: .tick repeatedTick [.pause] ::
    risingCandles.map fun c => .tick (flatTick c) []

theorem inLockStep_observedCandles_tight :
    new tightSettings = .ok (fresh tightSettings) ∧
    ((fresh tightSettings).run forgetfulCalls).2.InLockStep tightSettings risingCandles ∧
    ((fresh tightSettings).run forgetfulCalls).2.indicators.history.candles =
      risingCandles.tail := by
  have observed : observedCandles ((fresh tightSettings).run forgetfulCalls).1 = risingCandles := by
    decide +kernel
  have lockStep := inLockStep_observedCandles new_tightSettings forgetfulCalls
  rw [observed] at lockStep
  exact ⟨new_tightSettings, lockStep, lockStep.history⟩

end Engine

end TrendLadder
