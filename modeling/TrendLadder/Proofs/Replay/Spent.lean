import TrendLadder.Proofs.Replay

/-!
# Replays whose account is spent

A replay whose balance is not finite or not above zero has come to its end (`Replay.IsSpent`). The
screen rejects every later candle, for its account if for nothing else, so the engine stays as it is
and no position is left that could move the balance (`Replay.step_of_spent`). The reports go on, but
all of them are rejections (`Replay.spent_for_good`).
-/

namespace TrendLadder

namespace Replay

/-- The balance is none that a tick can be evaluated with. -/
def IsSpent (r : Replay) : Prop := r.balance.isFinite = false ∨ r.balance ≤ 0.0

/-- The report on a candle that an engine rejects. -/
structure Rejects (e : Engine) (c : Candle) (report : TickReport) : Prop where
  timestamp_eq : report.timestamp = c.timestamp
  rejected : report.rejection?.isSome = true
  decision_eq : report.decision = .none
  events_eq : report.events = []
  snapshot_eq : report.snapshot = e.snapshot

variable {r : Replay}

theorem IsSpent.not_isSane (spent : r.IsSpent) : ¬(Account.flat r.balance).isSane = true := by
  intro sane
  have positive := Account.isPositive_balance sane
  obtain ⟨finite, above⟩ := Bool.and_eq_true_iff.mp positive
  rcases spent with infinite | below
  · exact Bool.false_ne_true (infinite.symm.trans finite)
  · exact float_not_lt_of_le below (of_decide_eq_true above)

/-- The screen rejects every candle of a spent replay. -/
theorem IsSpent.exists_rejection (spent : r.IsSpent) (rs : ReplaySettings) (c : Candle)
    (latest : Option Timestamp) : ∃ rejection, (r.tickOf rs c).screen latest = some rejection := by
  refine Option.ne_none_iff_exists'.mp fun passed => ?_
  have sane : (r.tickOf rs c).account.isSane = true := Tick.isSane_of_screen passed
  exact spent.not_isSane sane

/-- A step of a spent replay changes nothing but the latest date that was seen. -/
theorem step_of_spent (spent : r.IsSpent) (rs : ReplaySettings) (c : Candle) :
    Rejects r.engine c (r.step rs c).1 ∧ (r.step rs c).2.engine = r.engine ∧
      (r.step rs c).2.balance = r.balance := by
  obtain ⟨rejection, screened⟩ := spent.exists_rejection rs c (r.engine.obey []).2.latest
  rw [step, Engine.tick_of_rejected screened]
  exact ⟨⟨rfl, rfl, rfl, rfl, rfl⟩, rfl, rfl⟩

theorem run_of_spent (spent : r.IsSpent) (rs : ReplaySettings) (rows : List Candle) :
    List.Forall₂ (Rejects r.engine) rows (r.run rs rows).1 ∧
      (r.run rs rows).2.engine = r.engine ∧ (r.run rs rows).2.balance = r.balance := by
  induction rows generalizing r with
  | nil => exact ⟨.nil, rfl, rfl⟩
  | cons c rows ih =>
    obtain ⟨rejects, engine, balance⟩ := step_of_spent spent rs c
    have still : (r.step rs c).2.IsSpent := by
      rw [IsSpent, balance]
      exact spent
    obtain ⟨others, engine', balance'⟩ := ih still
    rw [engine] at others engine'
    exact ⟨.cons rejects others, engine', balance'.trans balance⟩

theorem run_append (r : Replay) (rs : ReplaySettings) (rows later : List Candle) :
    r.run rs (rows ++ later) =
      ((r.run rs rows).1 ++ ((r.run rs rows).2.run rs later).1,
        ((r.run rs rows).2.run rs later).2) := by
  induction rows generalizing r with
  | nil => rfl
  | cons c rows ih =>
    rw [List.cons_append, run, run, ih]
    rfl

/-- **A spent account stays spent.** If the balance of a replay is not finite or not above zero
after some rows, then every later report is a rejection without a decision and without events, and
the balance and the engine, with its ladder, its gate and its open positions, stay as they are to
the end. -/
theorem spent_for_good (rs : ReplaySettings) (e : Engine) (rows later : List Candle)
    (spent : ((start rs e).run rs rows).2.IsSpent) :
    ∃ rejections,
      ((start rs e).run rs (rows ++ later)).1 = ((start rs e).run rs rows).1 ++ rejections ∧
      List.Forall₂ (Rejects ((start rs e).run rs rows).2.engine) later rejections ∧
      ((start rs e).run rs (rows ++ later)).2.balance = ((start rs e).run rs rows).2.balance ∧
      ((start rs e).run rs (rows ++ later)).2.engine = ((start rs e).run rs rows).2.engine := by
  obtain ⟨rejections, engine, balance⟩ := run_of_spent spent rs later
  rw [run_append]
  exact ⟨_, rfl, rejections, balance, engine⟩

/-- An account of half a cent, less than the first trade loses. -/
def scantSettings : ReplaySettings := { ReplaySettings.standard with balance := 0.005 }

/-- The loss of the day before spends the account, and the next day is rejected. -/
theorem spent_for_good_scant :
    ((start scantSettings (.fresh turningSettings)).run scantSettings losingRows).2.IsSpent ∧
    ((start scantSettings (.fresh turningSettings)).run scantSettings
        (losingRows ++ [nextDayRow])).2.engine =
      ((start scantSettings (.fresh turningSettings)).run scantSettings losingRows).2.engine := by
  have spent :
      ((start scantSettings (.fresh turningSettings)).run scantSettings losingRows).2.IsSpent :=
    .inr (by decide +kernel)
  obtain ⟨-, -, -, -, engine⟩ :=
    spent_for_good scantSettings (.fresh turningSettings) losingRows [nextDayRow] spent
  exact ⟨spent, engine⟩

end Replay

end TrendLadder
