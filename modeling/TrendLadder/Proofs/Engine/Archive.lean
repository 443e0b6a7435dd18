import TrendLadder.Proofs.Engine.Exits
import TrendLadder.Proofs.RiskGate.State

/-!
# The archive and the profits of the gate

A close archives the position in the ledger and hands its profit to the gate. Both keep the latest
hundred, by capacities of their own. `archive_eq_profits` says that after any run the two agree and
are what the replies tell closed (`closedPositions`), and that every archived position is marked as
its profit says.

1. `Book.Remembers` is the invariant: archive and profits hold the same list of closed positions.
   A close adds one to it; whatever else happens to a book leaves both alone (`Remembers.of_eq`).
2. The list is the one that the replies tell, call by call (`remembers_call`), so the two stay in
   step however much either of them forgets.
-/

namespace TrendLadder

/-! ## What a closed position says -/

/-- The outcome and the marks of a closed position are those of its profit, which is the one of its
exit price. A profit that is no number is neither a gain nor a loss. -/
structure ClosedPosition.IsFinished (closed : ClosedPosition) : Prop where
  profit : closed.profit = closed.record.profitAt closed.exitPrice
  win : closed.outcome = .win ↔ 0.0 < closed.profit
  loss : closed.outcome = .loss ↔ closed.profit < 0.0
  breakeven : closed.outcome = .breakeven ↔ ¬0.0 < closed.profit ∧ ¬closed.profit < 0.0
  isProfit : closed.record.isProfit = true ↔ closed.outcome = .win
  isComplete : closed.record.isComplete = true
  exitPrice : closed.record.exitPrice = some closed.exitPrice

theorem TradeOutcome.ofProfit_eq_breakeven {profit : Float} :
    ofProfit profit = .breakeven ↔ ¬0.0 < profit ∧ ¬profit < 0.0 := by
  rw [← ofProfit_eq_win, ← ofProfit_eq_loss]
  cases ofProfit profit <;> simp

theorem Book.isFinished_finish (b : Book) (p : Position) (price : Float) (closedAt : Timestamp) :
    (b.finish p price closedAt).IsFinished where
  profit := rfl
  win := TradeOutcome.ofProfit_eq_win
  loss := TradeOutcome.ofProfit_eq_loss
  breakeven := TradeOutcome.ofProfit_eq_breakeven
  isProfit := decide_eq_true_iff.trans TradeOutcome.ofProfit_eq_win.symm
  isComplete := rfl
  exitPrice := rfl

/-- The positions that a reply tells closed. -/
def Reply.closings : Reply → List ClosedPosition
  | .report r => r.closings
  | .closed (.ok position) => [position]
  | .closed (.error _) => []
  | .obeyed _ => []
  | .done => []

/-- The positions that a log tells closed. -/
def closedPositions (log : List (Call × Reply)) : List ClosedPosition :=
  log.flatMap fun x => x.2.closings

namespace Book

/-! ## What is kept in step -/

/-- The archive and the profits of the gate hold the latest of some closed positions. -/
structure Remembers (b : Book) (closed : List ClosedPosition) : Prop where
  archiveRoom : b.ledger.archive.capacity = archiveCapacity
  profitRoom : b.gate.profits.capacity = profitCapacity
  archive : b.ledger.archive.Holds closed
  profits : b.gate.profits.Holds (closed.map ClosedPosition.profit)
  finished : ∀ c ∈ closed, c.IsFinished

variable {b next : Book} {closed : List ClosedPosition}

theorem Remembers.of_eq (h : b.Remembers closed) (archive : next.ledger.archive = b.ledger.archive)
    (profits : next.gate.profits = b.gate.profits) : next.Remembers closed where
  archiveRoom := archive ▸ h.archiveRoom
  profitRoom := profits ▸ h.profitRoom
  archive := archive ▸ h.archive
  profits := profits ▸ h.profits
  finished := h.finished

theorem Remembers.close (h : b.Remembers closed) {id : PositionId} {price : Float}
    {closedAt : Timestamp} {done : ClosedPosition}
    (closes : b.close id price closedAt = .ok (done, next)) :
    next.Remembers (closed ++ [done]) := by
  obtain ⟨p, -, finished, rfl⟩ := close_eq_ok_iff.mp closes
  constructor
  case archiveRoom => exact h.archiveRoom
  case profitRoom => exact h.profitRoom
  case archive =>
    refine h.archive.push ?_ done
    rw [h.archiveRoom]
    decide
  case profits =>
    rw [List.map_append]
    refine h.profits.push ?_ done.profit
    rw [h.profitRoom]
    decide
  case finished =>
    intro c hc
    rcases List.mem_append.mp hc with earlier | now
    · exact h.finished c earlier
    · rw [List.mem_singleton.mp now, finished]
      exact b.isFinished_finish p price closedAt

theorem Remembers.closeEach (closedAt : Timestamp) (exits : List (PositionId × Float)) :
    ∀ {b : Book} {closed : List ClosedPosition}, b.Remembers closed →
      (b.closeEach closedAt exits).2.Remembers (closed ++ (b.closeEach closedAt exits).1) := by
  induction exits with
  | nil =>
    intro b closed h
    rw [Book.closeEach, List.append_nil]
    exact h
  | cons x xs ih =>
    intro b closed h
    rw [Book.closeEach]
    cases closes : b.close x.1 x.2 closedAt with
    | error e => exact ih h
    | ok r =>
      have others := ih (h.close closes)
      rwa [List.append_assoc] at others

theorem Remembers.take (h : b.Remembers closed) (orderly : b.ledger.Orderly) (c : Candle) :
    (b.take c).2.Remembers (closed ++ (b.take c).1) := by
  rw [take_eq_closeEach orderly]
  exact h.closeEach c.timestamp (b.ledger.exits c)

end Book

namespace Engine

variable {s : Settings} {e : Engine} {closed : List ClosedPosition}

theorem remembers_fresh (s : Settings) : (fresh s).book.Remembers [] where
  archiveRoom := rfl
  profitRoom := rfl
  archive := Recent.holds_empty archiveCapacity
  profits := Recent.holds_empty profitCapacity
  finished := by intro c hc; cases hc

theorem remembers_obey (h : e.book.Remembers closed) (cs : List Command) :
    (e.obey cs).2.book.Remembers closed := by
  refine obey_induct (P := fun x => x.book.Remembers closed) (fun {x} c h => ?_) h cs
  obtain ⟨ladder, pattern, ignores, after⟩ := x.after_eq c
  rw [after]
  exact h.of_eq rfl rfl

theorem remembers_enter (h : e.book.Remembers closed) (t : Tick) :
    (e.enter t).book.Remembers closed := by
  refine h.of_eq rfl ?_
  unfold enter
  dsimp only
  rw [RiskGate.profits_update]
  split
  · exact RiskGate.profits_startDay e.book.gate t.account.balance
  · rfl

theorem remembers_acted (h : e.book.Remembers closed) (t : Tick) (sig : Signal) :
    (e.acted (e.act t sig)).book.Remembers closed := by
  refine h.of_eq ?_ rfl
  show (e.act t sig).ledger.archive = e.book.ledger.archive
  rcases e.act_cases t sig with ⟨-, same, -⟩ | ⟨p, -, acts⟩
  · rw [same]
  · rw [acts]
    rfl

theorem remembers_evaluate (h : e.book.Remembers closed) (orderly : e.book.ledger.Orderly)
    (t : Tick) : (e.evaluate t).2.book.Remembers
      (closed ++ (e.evaluate t).1.events.filterMap PositionEvent.closed?) := by
  have entered := remembers_enter h t
  have settled : (e.settled t).book.Remembers _ :=
    entered.take ((e.moves_enter t).orderly orderly) t.candle
  rw [closings_evaluate]
  exact remembers_acted settled t (e.signalOn t)

theorem remembers_call (h : e.book.Remembers closed) (orderly : e.book.ledger.Orderly)
    (c : Call) : (e.call c).2.book.Remembers (closed ++ (e.call c).1.closings) := by
  cases c with
  | tick t commands =>
    have obeyed := remembers_obey h commands
    cases screened : t.screen (e.obey commands).2.latest with
    | some rejection =>
      rw [call, tick_of_rejected screened]
      exact (List.append_nil closed).symm ▸ obeyed
    | none =>
      rw [call, tick_of_passed screened]
      exact remembers_evaluate obeyed ((e.moves_obey commands).orderly orderly) t
  | command c => exact (List.append_nil closed).symm ▸ remembers_obey h [c]
  | close id price closedAt =>
    rw [call, afterClose, close]
    cases closes : e.book.close id price closedAt with
    | error error => exact (List.append_nil closed).symm ▸ h
    | ok r => exact h.close closes
  | forget => exact (List.append_nil closed).symm ▸ h

theorem remembers_run {e0 : Engine} (built : new s = .ok e0) (calls : List Call) :
    (e0.run calls).2.book.Remembers (closedPositions (e0.run calls).1) := by
  refine run_induct (P := fun log e => e.book.Remembers (closedPositions log))
    built ?start ?step calls
  case start =>
    obtain ⟨-, rfl⟩ := new_eq_ok.mp built
    exact remembers_fresh s
  case step =>
    intro log e c reached h
    rw [closedPositions, List.flatMap_append, List.flatMap_singleton]
    exact remembers_call h reached.orderly c

/-- **The archive and the profits of the gate tell the same.** After any calls of a new engine the
archive holds the last hundred positions that the replies tell closed, the gate remembers their
profits in the same order, and each of them is finished as its profit says. -/
theorem archive_eq_profits {e0 : Engine} (built : new s = .ok e0) (calls : List Call) :
    (e0.run calls).2.book.ledger.archive.items =
      lastItems 100 (closedPositions (e0.run calls).1) ∧
    (e0.run calls).2.book.ledger.archive.items.map ClosedPosition.profit =
      (e0.run calls).2.book.gate.state.profits ∧
    (e0.run calls).2.book.gate.state.profits.length =
      min 100 (closedPositions (e0.run calls).1).length ∧
    ∀ c ∈ (e0.run calls).2.book.ledger.archive.items, c.IsFinished := by
  have h := remembers_run built calls
  generalize (e0.run calls).2.book = b at h ⊢
  generalize closedPositions (e0.run calls).1 = closed at h ⊢
  have archive : b.ledger.archive.items = lastItems 100 closed := by
    rw [h.archive, h.archiveRoom, archiveCapacity]
  have profits : b.gate.state.profits = lastItems 100 (closed.map ClosedPosition.profit) := by
    show b.gate.profits.items = _
    rw [h.profits, h.profitRoom, profitCapacity]
  refine ⟨archive, ?_, ?_, ?_⟩
  · rw [archive, profits, lastItems, lastItems, List.map_drop, List.length_map]
  · rw [profits, length_lastItems, List.length_map]
  · intro c hc
    rw [archive] at hc
    exact h.finished c (List.mem_of_mem_drop hc)

/-- The position that the turn of the falling market opens, closed by the host at a price that is
no number. -/
def misclosedCalls : List Call :=
  fallingCalls ++ [.tick (flatTick turningCandle) [], .close 1 (0.0 / 0.0) ⟨1709521200, 0⟩]

/-- The position is archived as one that gained and lost nothing. -/
theorem archive_eq_profits_misclosed :
    new turningSettings = .ok (fresh turningSettings) ∧
    ∃ closed, closedPositions ((fresh turningSettings).run misclosedCalls).1 = [closed] ∧
      closed.outcome = .breakeven ∧
      ((fresh turningSettings).run misclosedCalls).2.book.gate.state.profits = [closed.profit] := by
  obtain ⟨archive, profits, -, finished⟩ :=
    archive_eq_profits new_turningSettings misclosedCalls
  have one : (closedPositions ((fresh turningSettings).run misclosedCalls).1).length = 1 := by
    decide +kernel
  obtain ⟨closed, told⟩ := List.length_eq_one_iff.mp one
  have archived : lastItems 100 [closed] = [closed] := rfl
  rw [told, archived] at archive
  rw [archive] at profits finished
  have noGain : ∀ c ∈ closedPositions ((fresh turningSettings).run misclosedCalls).1,
      ¬0.0 < c.profit ∧ ¬c.profit < 0.0 := by
    decide +kernel
  rw [told] at noGain
  have here := List.mem_singleton_self closed
  exact ⟨new_turningSettings, closed, told,
    (finished closed here).breakeven.mpr (noGain closed here), profits.symm⟩

end Engine

end TrendLadder
