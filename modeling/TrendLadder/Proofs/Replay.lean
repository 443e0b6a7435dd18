import TrendLadder.Proofs.Engine.Baseline
import TrendLadder.Proofs.Market.DayBoundary
import TrendLadder.Replay

/-!
# The days of a replay

The day boundary of a replay sees every row, but only an evaluated row starts a day of the gate.
So an evaluated row that is not the first one starts a day exactly if its date is later than the
dates of all rows before it, evaluated or not (`startsDay_iff`): a row that is rejected uses up the
start of its day, and no later row of that day gets it (`startsDay_lost`).
-/

namespace TrendLadder

namespace Replay

/-- The rows that a replay evaluates. -/
def evaluatedRows (rs : ReplaySettings) (r : Replay) : List Candle → List Candle
  | [] => []
  | c :: cs =>
    let others := (r.step rs c).2.evaluatedRows rs cs
    if (r.step rs c).1.rejection? = none then c :: others else others

/-- A replay of an engine with some settings has seen some rows and evaluated some of them. -/
structure Follows (s : Settings) (r : Replay) (seen evaluated : List Candle) : Prop where
  reached : Engine.Reached s r.engine
  days : r.days.Covers (seen.map Candle.timestamp)
  seeded : evaluated ≠ [] → r.engine.book.gate.IsSeeded

theorem follows_start {s : Settings} {e : Engine} (built : Engine.new s = .ok e)
    (rs : ReplaySettings) : (start rs e).Follows s [] [] where
  reached := ⟨e, [], built, rfl⟩
  days := DayBoundary.covers_start
  seeded := fun none => absurd rfl none

section Step

variable {s : Settings} {r : Replay} {seen evaluated : List Candle}

theorem screen_of_evaluated {rs : ReplaySettings} {c : Candle}
    (accepted : (r.step rs c).1.rejection? = none) :
    (r.tickOf rs c).screen r.engine.latest = none := by
  rw [← accepted]
  exact (r.engine.rejection?_tick (r.tickOf rs c) []).symm

theorem engine_step {rs : ReplaySettings} {c : Candle}
    (accepted : (r.step rs c).1.rejection? = none) :
    (r.step rs c).2.engine = (r.engine.evaluate (r.tickOf rs c)).2 := by
  have passed : (r.tickOf rs c).screen (r.engine.obey []).2.latest = none :=
    screen_of_evaluated accepted
  show (r.engine.tick (r.tickOf rs c) []).2 = _
  rw [Engine.tick_of_passed passed]
  rfl

theorem Follows.step (h : r.Follows s seen evaluated) (rs : ReplaySettings) (c : Candle) :
    (r.step rs c).2.Follows s (seen ++ [c])
      (if (r.step rs c).1.rejection? = none then evaluated ++ [c] else evaluated) where
  reached := h.reached.call (.tick (r.tickOf rs c) [])
  days := by
    rw [List.map_append]
    exact h.days.observe c.timestamp
  seeded := by
    split
    · next accepted =>
      intro
      rw [engine_step accepted]
      exact Engine.seeded_evaluate h.reached.orderly
        (Tick.isSane_of_screen (screen_of_evaluated accepted))
    · intro some
      have kept := Engine.moves_call h.reached.orderly (.tick (r.tickOf rs c) [])
      exact kept.seeded (h.seeded some)

theorem Follows.run (rs : ReplaySettings) (rows : List Candle) :
    ∀ {r : Replay} {seen evaluated : List Candle}, r.Follows s seen evaluated →
      (r.run rs rows).2.Follows s (seen ++ rows) (evaluated ++ r.evaluatedRows rs rows) := by
  induction rows with
  | nil =>
    intro r seen evaluated h
    rw [evaluatedRows, List.append_nil, List.append_nil]
    exact h
  | cons c cs ih =>
    intro r seen evaluated h
    have stepped := ih (h.step rs c)
    rw [evaluatedRows, Replay.run]
    dsimp only
    split at stepped
    · next accepted =>
      rw [if_pos accepted]
      simpa using stepped
    · next rejected =>
      rw [if_neg rejected]
      simpa using stepped

/-- An evaluated row starts a day of a seeded gate exactly if the day boundary flags it. -/
theorem Follows.dailyStart_step (h : r.Follows s seen evaluated) (seeded : evaluated ≠ [])
    {rs : ReplaySettings} {c : Candle} (accepted : (r.step rs c).1.rejection? = none) :
    (r.step rs c).2.engine.book.gate.dailyStartBalance =
      if (r.days.observe c.timestamp).1 then some r.balance
      else r.engine.book.gate.dailyStartBalance := by
  rw [engine_step accepted]
  exact Engine.dailyStart_evaluate h.reached.orderly (h.seeded seeded)
    (Tick.isSane_of_screen (screen_of_evaluated accepted))

end Step

/-- **Where the day starts anew.** After an evaluated row that is not the first one evaluated, the
day starts at the balance of that row exactly if the date of the row is later than the dates of
all rows before it, rejected ones included, or if the balance is the one at which the day started
already. -/
theorem startsDay_iff {s : Settings} {e : Engine} (built : Engine.new s = .ok e)
    (rs : ReplaySettings) (rows : List Candle) (c : Candle)
    (before : (start rs e).evaluatedRows rs rows ≠ [])
    (accepted : ((((start rs e).run rs rows).2).step rs c).1.rejection? = none) :
    ((((start rs e).run rs rows).2).step rs c).2.engine.book.gate.dailyStartBalance =
        some ((start rs e).run rs rows).2.balance ↔
      (∀ row ∈ rows, row.timestamp.day < c.timestamp.day) ∨
        ((start rs e).run rs rows).2.engine.book.gate.dailyStartBalance =
          some ((start rs e).run rs rows).2.balance := by
  have follows := (follows_start built rs).run rs rows
  rw [List.nil_append, List.nil_append] at follows
  have rowsBefore : rows ≠ [] := by
    rintro rfl
    exact before rfl
  have flagged := follows.days.observe_iff c.timestamp
  rw [follows.dailyStart_step before accepted]
  split
  · next flag =>
    obtain ⟨-, later⟩ := flagged.mp flag
    exact iff_of_true rfl
      (.inl fun row hr => later row.timestamp (List.mem_map_of_mem hr))
  · next unflagged =>
    refine ⟨.inr, fun h => h.resolve_left fun later => unflagged (flagged.mpr ⟨?_, ?_⟩)⟩
    · exact mt List.map_eq_nil_iff.mp rowsBefore
    · intro t ht
      obtain ⟨row, hr, rfl⟩ := List.mem_map.mp ht
      exact later row hr

/-- A trade that ends with a loss on its day. -/
def losingRows : List Candle :=
  fallingCandles ++ [turningCandle, hourly 4 110.0 110.2 108.5 108.8]

/-- A row of the next day whose high is below its low. -/
def brokenRow : Candle := hourly 24 108.8 100.0 120.0 108.8

/-- A row of the next day. -/
def nextDayRow : Candle := hourly 25 108.8 109.0 108.0 108.5

def replayed (rows : List Candle) : Replay :=
  ((start .standard (.fresh turningSettings)).run .standard rows).2

theorem startsDay_iff_losing :
    Engine.new turningSettings = .ok (.fresh turningSettings) ∧
    (start .standard (.fresh turningSettings)).evaluatedRows .standard losingRows ≠ [] ∧
    ((replayed losingRows).step .standard nextDayRow).1.rejection? = none ∧
    ((replayed losingRows).step .standard nextDayRow).2.engine.book.gate.dailyStartBalance =
      some (replayed losingRows).balance := by
  have before :
      (start .standard (.fresh turningSettings)).evaluatedRows .standard losingRows ≠ [] := by
    decide +kernel
  have accepted : ((replayed losingRows).step .standard nextDayRow).1.rejection? = none := by
    decide +kernel
  have later : ∀ row ∈ losingRows, row.timestamp.day < nextDayRow.timestamp.day := by
    decide +kernel
  have starts := startsDay_iff new_turningSettings .standard losingRows nextDayRow before accepted
  refine ⟨new_turningSettings, before, accepted, ?_⟩
  unfold replayed
  exact starts.mpr (.inl later)

/-- The rejected row uses up the start of its day: the next row, the first of the day that is
evaluated, leaves the start of the day at the balance before the loss. -/
theorem startsDay_lost :
    Engine.new turningSettings = .ok (.fresh turningSettings) ∧
    ((start .standard (.fresh turningSettings)).evaluatedRows .standard
      (losingRows ++ [brokenRow])).getLast? = some (hourly 4 110.0 110.2 108.5 108.8) ∧
    (hourly 4 110.0 110.2 108.5 108.8).timestamp.day < nextDayRow.timestamp.day ∧
    ((replayed (losingRows ++ [brokenRow])).step .standard nextDayRow).1.rejection? = none ∧
    ((replayed (losingRows ++ [brokenRow])).step .standard
      nextDayRow).2.engine.book.gate.dailyStartBalance ≠
        some (replayed (losingRows ++ [brokenRow])).balance :=
  ⟨new_turningSettings, by decide +kernel, by decide +kernel, by decide +kernel,
    by decide +kernel⟩

end Replay

end TrendLadder
