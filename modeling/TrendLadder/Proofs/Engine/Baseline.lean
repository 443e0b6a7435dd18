import TrendLadder.Proofs.Engine.Run
import TrendLadder.Proofs.RiskGate.State

/-!
# The baselines of the gate

An evaluated tick sees to it that the gate is seeded. From then on the start balance of the day
moves only with a tick that starts a day (`dailyStart_evaluate`).
-/

namespace TrendLadder

namespace Book

theorem Move.seeded {b next : Book} (m : b.Move next) (h : b.gate.IsSeeded) :
    next.gate.IsSeeded := by
  cases m with
  | pause | resume | skip | insert => exact h
  | startDay balance => exact h.startDay balance
  | update a => exact h.update a
  | close done =>
    obtain ⟨p, -, -, rfl⟩ := close_eq_ok_iff.mp done
    exact h

theorem Moves.seeded {b next : Book} (h : b.Moves next) :
    b.gate.IsSeeded → next.gate.IsSeeded :=
  h.induct Move.seeded

end Book

namespace Engine

variable {e : Engine} {t : Tick}

theorem seeded_enter (sane : t.account.isSane = true) : (e.enter t).book.gate.IsSeeded :=
  RiskGate.isSeeded_update sane

theorem dailyStart_enter (seeded : e.book.gate.IsSeeded) (sane : t.account.isSane = true) :
    (e.enter t).book.gate.dailyStartBalance =
      if t.newDay then some t.account.balance else e.book.gate.dailyStartBalance := by
  unfold enter
  dsimp only
  split
  · rw [(seeded.startDay _).dailyStart_update, RiskGate.dailyStart_startDay sane]
  · exact seeded.dailyStart_update t.account

/-- Closes add to the profits of the gate and leave the rest of it alone. -/
theorem gate_settle (orderly : e.book.ledger.Orderly) (c : Candle) :
    ∃ profits, (e.settle c).2.book.gate = { e.book.gate with profits := profits } := by
  unfold settle
  dsimp only
  rw [Book.take_eq_closeEach orderly]
  refine Book.closeEach_induct
    (P := fun b => ∃ profits, b.gate = { e.book.gate with profits := profits }) ?_ _ ⟨_, rfl⟩
  rintro b next id price closed done ⟨profits, same⟩
  obtain ⟨p, -, -, rfl⟩ := Book.close_eq_ok_iff.mp done
  refine ⟨profits.push closed.profit, ?_⟩
  show b.gate.recordProfit closed.profit = _
  rw [same]
  rfl

theorem dailyStart_settle (orderly : e.book.ledger.Orderly) (c : Candle) :
    (e.settle c).2.book.gate.dailyStartBalance = e.book.gate.dailyStartBalance := by
  obtain ⟨profits, same⟩ := gate_settle orderly c
  rw [same]

/-- An evaluated tick starts the day at its balance if it starts a day and otherwise leaves the
start of the day as it is, once the gate is seeded. -/
theorem dailyStart_evaluate (orderly : e.book.ledger.Orderly) (seeded : e.book.gate.IsSeeded)
    (sane : t.account.isSane = true) :
    (e.evaluate t).2.book.gate.dailyStartBalance =
      if t.newDay then some t.account.balance else e.book.gate.dailyStartBalance := by
  have settled := dailyStart_settle ((e.moves_enter t).orderly orderly) t.candle
  rw [dailyStart_enter seeded sane] at settled
  exact settled

theorem seeded_evaluate (orderly : e.book.ledger.Orderly) (sane : t.account.isSane = true) :
    (e.evaluate t).2.book.gate.IsSeeded := by
  have settled := moves_settle ((e.moves_enter t).orderly orderly) t.candle
  exact settled.seeded (seeded_enter sane)

end Engine

end TrendLadder
