import TrendLadder.Proofs.Engine.LockStep
import TrendLadder.Proofs.Engine.Sides

/-!
# The bar that opens a position

No position closes on the bar that opened it, nor on an earlier one: `closes_after_opening` says
that every open position was opened at the time of an evaluated tick, and that a tick closes only
positions that were opened before its candle.

1. The evaluated ticks of a run are in the order of time (`evaluated_ascending`). The engine
   compares a tick with the latest evaluated one, whose time no reset of the indicators forgets and
   no rejected tick moves.
2. A position carries the time of the tick that tells it opened, and what a tick tells closed was
   open before it. So the tick is later than all evaluated before it, that one among them.
-/

namespace TrendLadder

theorem evaluatedAt?_of_report {t : Tick} {commands : List Command} {r : TickReport}
    (accepted : r.rejection? = none) :
    evaluatedAt? (.tick t commands, .report r) = some t.candle.timestamp := by
  rw [evaluatedAt?, accepted]
  rfl

theorem le_of_getLast? {times : List Timestamp} (ascending : times.Pairwise (· < ·))
    {time latest : Timestamp} (mem : time ∈ times) (last : times.getLast? = some latest) :
    time < latest ∨ time = latest := by
  obtain ⟨earlier, rfl⟩ := List.getLast?_eq_some_iff.mp last
  rcases List.mem_append.mp mem with before | here
  · exact .inl ((List.pairwise_append.mp ascending).2.2 time before latest
      (List.mem_singleton_self latest))
  · exact .inr (List.mem_singleton.mp here)

namespace Engine

variable {s : Settings} {e e0 : Engine}

/-! ## The order of the evaluated ticks -/

theorem lt_of_evaluatedAt? {c : Call} {time latest : Timestamp}
    (evaluated : evaluatedAt? (c, (e.call c).1) = some time) (before : e.latest = some latest) :
    latest < time := by
  cases c with
  | tick t commands =>
    rw [call, evaluatedAt?, rejection?_tick] at evaluated
    cases screened : t.screen (e.obey commands).2.latest with
    | some rejection =>
      rw [screened] at evaluated
      cases evaluated
    | none =>
      rw [screened] at evaluated
      obtain rfl : t.candle.timestamp = time := Option.some.inj evaluated
      exact Tick.lt_of_screen screened ((e.latest_obey commands).trans before)
  | command c | close id price closedAt | forget => cases evaluated

/-- The time that the engine keeps is the one of the latest evaluated tick. -/
theorem latest_eq (built : new s = .ok e0) (calls : List Call) :
    (e0.run calls).2.latest = latestEvaluated (e0.run calls).1 := by
  obtain ⟨-, rfl⟩ := new_eq_ok.mp built
  exact (latest_run (fresh s) calls).trans (Option.or_none ..)

/-- **The clock of an engine never stands still or goes back.** Each evaluated tick of a run is
later than all evaluated before it, whatever is rejected or forgotten in between. -/
theorem evaluated_ascending (built : new s = .ok e0) (calls : List Call) :
    ((e0.run calls).1.filterMap evaluatedAt?).Pairwise (· < ·) := by
  induction calls using List.reverseRecOn with
  | nil => exact .nil
  | append_singleton calls c ascending =>
    have clock := latest_eq built calls
    rw [run_append, run, run]
    dsimp only
    generalize (e0.run calls).1 = log at ascending clock ⊢
    generalize (e0.run calls).2 = e at clock ⊢
    rw [List.filterMap_append, List.filterMap_cons, List.filterMap_nil]
    cases evaluated : evaluatedAt? (c, (e.call c).1) with
    | none =>
      rw [List.append_nil]
      exact ascending
    | some time =>
      refine List.pairwise_append.mpr ⟨ascending, List.pairwise_singleton _ _, ?_⟩
      intro earlier mem now here
      obtain rfl := List.mem_singleton.mp here
      -- the latest time of the log is the one that the tick was screened against
      obtain ⟨latest, last⟩ := Option.isSome_iff_exists.mp
        (List.getLast?_isSome.mpr (List.ne_nil_of_mem mem))
      have later : latest < now := lt_of_evaluatedAt? evaluated (clock.trans last)
      rcases le_of_getLast? ascending mem last with before | same
      · exact Timestamp.lt_trans before later
      · exact same ▸ later

/-! ## Openings and closings -/

theorem openedAt_mem (built : new s = .ok e0) (calls : List Call) {p : Position}
    (hp : p ∈ (e0.run calls).2.book.ledger.openPositions) :
    p.openedAt ∈ (e0.run calls).1.filterMap evaluatedAt? := by
  obtain ⟨t, commands, r, logged, told⟩ := opened_run built calls p hp
  obtain ⟨before, reached, rfl⟩ := Reached.of_mem_run built logged
  obtain ⟨opens, passed⟩ := opens_of_mem_openings reached told
  refine List.mem_filterMap.mpr ⟨_, logged, ?_⟩
  rw [evaluatedAt?_of_report ((rejection?_tick _ t commands).trans passed), opens.openedAt,
    opens.timestamp]

theorem openedAt_le_latest (built : new s = .ok e0) (calls : List Call) {p : Position}
    (hp : p ∈ (e0.run calls).2.book.ledger.openPositions) :
    ∃ latest, (e0.run calls).2.latest = some latest ∧
      (p.openedAt < latest ∨ p.openedAt = latest) := by
  have mem := openedAt_mem built calls hp
  obtain ⟨latest, last⟩ := Option.isSome_iff_exists.mp
    (List.getLast?_isSome.mpr (List.ne_nil_of_mem mem))
  exact ⟨latest, (latest_eq built calls).trans last,
    le_of_getLast? (evaluated_ascending built calls) mem last⟩

/-- **No position closes on or before the bar that opened it.** After any calls of a new engine
every open position carries the time of an evaluated tick, which is not after the latest one; and
what a logged tick tells closed was opened before the candle that closed it. -/
theorem closes_after_opening (built : new s = .ok e0) (calls : List Call) :
    (∀ p ∈ (e0.run calls).2.book.ledger.openPositions,
      (∃ x ∈ (e0.run calls).1, evaluatedAt? x = some p.openedAt) ∧
      ∃ latest, (e0.run calls).2.latest = some latest ∧
        (p.openedAt < latest ∨ p.openedAt = latest)) ∧
    ∀ t commands r, (.tick t commands, .report r) ∈ (e0.run calls).1 →
      ∀ closed, PositionEvent.closed closed ∈ r.events →
        closed.closedAt = t.candle.timestamp ∧ closed.record.openedAt < closed.closedAt := by
  refine ⟨fun p hp => ?_, fun t commands r logged closed told => ?_⟩
  · exact ⟨List.mem_filterMap.mp (openedAt_mem built calls hp), openedAt_le_latest built calls hp⟩
  · obtain ⟨before, reached, rfl⟩ := Reached.of_mem_run built logged
    obtain ⟨passed, p, hp, exit⟩ := exit_of_mem_closings reached
      (List.mem_filterMap.mpr ⟨_, told, rfl⟩)
    have openedAt : closed.record.openedAt = p.openedAt := by rw [exit.record]
    rw [openedAt, exit.closedAt]
    refine ⟨rfl, ?_⟩
    obtain ⟨latest, clock, opened | same⟩ := openedAt_le_latest built before hp
    · exact Timestamp.lt_trans opened (Tick.lt_of_screen passed clock)
    · exact same ▸ Tick.lt_of_screen passed clock

/-- A candle that falls through the stop of the bought position. -/
def stoppingCandle : Candle := hourly 4 110.0 110.2 108.5 108.8

/-- The calls after which that position is still held, although the indicators have forgotten the
market and a tick of an earlier bar has come. -/
def heldCalls : List Call := boughtCalls ++ [.forget, .tick repeatedTick []]

/-- The calls with the one that stops the position out. -/
def stoppedCalls : List Call := heldCalls ++ [.tick (flatTick stoppingCandle) []]

/-- The report that tells the position closed. -/
def stoppedReport : TickReport :=
  (((fresh turningSettings).run heldCalls).2.tick (flatTick stoppingCandle) []).1

/-- The position of the turn is stopped out on the next bar. -/
theorem closes_after_opening_stopped :
    new turningSettings = .ok (fresh turningSettings) ∧
    (.tick (flatTick stoppingCandle) [], .report stoppedReport) ∈
      ((fresh turningSettings).run stoppedCalls).1 ∧
    ∃ closed, PositionEvent.closed closed ∈ stoppedReport.events ∧
      closed.record.openedAt < closed.closedAt := by
  have logged : (.tick (flatTick stoppingCandle) [], .report stoppedReport) ∈
      ((fresh turningSettings).run stoppedCalls).1 := by
    rw [stoppedCalls, run_append]
    exact List.mem_append_right _ (List.mem_singleton_self _)
  have closes : stoppedReport.closings.length = 1 := by decide +kernel
  obtain ⟨closed, told⟩ := List.length_eq_one_iff.mp closes
  obtain ⟨event, mem, tells⟩ := List.mem_filterMap.mp (told ▸ List.mem_singleton_self closed)
  cases event with
  | opened p => cases tells
  | closed position =>
    refine ⟨new_turningSettings, logged, position, mem, ?_⟩
    exact ((closes_after_opening new_turningSettings stoppedCalls).2 _ _ _ logged _ mem).2

end Engine

end TrendLadder
