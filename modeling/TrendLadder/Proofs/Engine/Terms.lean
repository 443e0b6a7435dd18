import TrendLadder.Proofs.Engine.Archive
import TrendLadder.Proofs.Engine.Sides

/-!
# The terms of a position

The terms of a position are what was agreed when it was opened: its number, its side and size, the
prices, the level of the ladder and the time. `terms_frozen` says that everything a host ever sees
of a position has the terms with which it was told opened, whatever commands, resets, other
positions and moves of the ladder come in between. Only the marks of the exit differ.

1. Whatever can be seen of a run goes back to an opening told before it (`Traces`). An open position
   is the one that was told opened, a close sets marks and nothing else, and the archive holds what
   was told closed.
2. The numbers of the openings ascend (`openings_ascending`), because the ledger never issues a
   number twice. So records of one number go back to one opening.
-/

namespace TrendLadder

/-- What is agreed on when a position is opened. -/
structure PositionTerms where
  id : PositionId
  direction : Direction
  lots : Float
  openPrice : Float
  stopLoss : Float
  takeProfit : Float
  levelAtOpen : Nat
  openedAt : Timestamp
deriving DecidableEq

/-- The terms of a position, which are all of it but the marks of its exit. -/
def Position.terms (p : Position) : PositionTerms where
  id := p.id
  direction := p.direction
  lots := p.lots
  openPrice := p.openPrice
  stopLoss := p.stopLoss
  takeProfit := p.takeProfit
  levelAtOpen := p.levelAtOpen
  openedAt := p.openedAt

/-! ## What a host sees -/

/-- The positions that a reply tells opened. -/
def Reply.openings : Reply → List Position
  | .report r => r.openings
  | .obeyed _ => []
  | .closed _ => []
  | .done => []

/-- The positions that a reply lists as open. -/
def Reply.listed : Reply → List Position
  | .report r => r.snapshot.openPositions
  | .obeyed _ => []
  | .closed _ => []
  | .done => []

/-- All records of positions in a reply. -/
def Reply.records (reply : Reply) : List Position :=
  reply.openings ++ reply.closings.map ClosedPosition.record ++ reply.listed

/-- The positions that a log tells opened. -/
def openedPositions (log : List (Call × Reply)) : List Position :=
  log.flatMap fun x => x.2.openings

/-- The records of positions that an engine shows, the open ones and the archived ones. -/
def Engine.records (e : Engine) : List Position :=
  e.snapshot.openPositions ++ e.book.ledger.archive.items.map ClosedPosition.record

/-- Some record of a position is seen in a run: a reply tells it, or the engine shows it between two
calls. -/
inductive Engine.Sees (e0 : Engine) (calls : List Call) (p : Position) : Prop
  | told {c : Call} {reply : Reply} (logged : (c, reply) ∈ (e0.run calls).1)
    (record : p ∈ reply.records)
  | shown {before later : List Call} (split : calls = before ++ later)
    (record : p ∈ (e0.run before).2.records)

/-! ## Numbers are issued once -/

theorem Book.Move.issued_le {b next : Book} (m : b.Move next) :
    b.ledger.issued ≤ next.ledger.issued := by
  cases m with
  | pause | resume | skip | startDay | update => exact Nat.le_refl _
  | close done =>
    obtain ⟨p, -, -, rfl⟩ := close_eq_ok_iff.mp done
    exact Nat.le_refl _
  | insert opened =>
    obtain ⟨direction, -, -, -, -, -, rfl⟩ := Ledger.openFor_eq_ok.mp opened
    exact Nat.le_succ _

theorem Book.Moves.issued_le {b next : Book} (h : b.Moves next) :
    b.ledger.issued ≤ next.ledger.issued :=
  h.induct (P := fun x => b.ledger.issued ≤ x.ledger.issued) (fun m le => le.trans m.issued_le)
    (Nat.le_refl _)

namespace Engine

variable {s : Settings} {e e0 : Engine} {calls : List Call}

/-- A call opens no position, or one under a number that was not issued before. -/
theorem openings_call (h : Reached s e) (c : Call) :
    (e.call c).1.openings = [] ∨ ∃ p, (e.call c).1.openings = [p] ∧
      e.book.ledger.issued < p.id ∧ p.id = (e.call c).2.book.ledger.issued := by
  cases c with
  | tick t commands =>
    cases screened : t.screen (e.obey commands).2.latest with
    | some rejection =>
      rw [call, tick_of_rejected screened]
      exact .inl rfl
    | none =>
      have obeyed := e.moves_obey commands
      have moved := obeyed.trans (moves_settled (obeyed.orderly h.orderly) t)
      rw [call, tick_of_passed screened]
      show ((e.obey commands).2.evaluate t).1.events.filterMap PositionEvent.opened? = [] ∨ ∃ p,
        ((e.obey commands).2.evaluate t).1.events.filterMap PositionEvent.opened? = [p] ∧ _ ∧
        p.id = ((e.obey commands).2.actionOn t).ledger.issued
      rw [openings_evaluate, actionOn]
      rcases ((e.obey commands).2.settled t).act_cases t ((e.obey commands).2.signalOn t) with
        ⟨idle, -, -⟩ | ⟨p, opened, acts⟩
      · rw [idle]
        exact .inl rfl
      · obtain ⟨direction, -, -, -, -, made, -⟩ := Ledger.openFor_eq_ok.mp opened
        rw [acts]
        refine .inr ⟨p, rfl, ?_, ?_⟩ <;> rw [made]
        · exact Nat.lt_succ_of_le moved.issued_le
        · rfl
  | command c | close id price closedAt | forget => exact .inl rfl

/-- The positions of a run are opened under ascending numbers, up to the latest one issued. -/
theorem openings_issued (built : new s = .ok e0) (calls : List Call) :
    (openedPositions (e0.run calls).1).Pairwise (·.id < ·.id) ∧
    ∀ p ∈ openedPositions (e0.run calls).1, p.id ≤ (e0.run calls).2.book.ledger.issued := by
  refine run_induct (P := fun log e => (openedPositions log).Pairwise (·.id < ·.id) ∧
    ∀ p ∈ openedPositions log, p.id ≤ e.book.ledger.issued) built ?start ?step calls
  case start => exact ⟨.nil, by intro p hp; cases hp⟩
  case step =>
    intro log e c reached ⟨ascending, issued⟩
    have grows : e.book.ledger.issued ≤ (e.call c).2.book.ledger.issued :=
      (moves_call reached.orderly c).issued_le
    rw [openedPositions, List.flatMap_append, List.flatMap_singleton]
    rcases openings_call reached c with idle | ⟨p, one, fresh, last⟩
    · rw [idle, List.append_nil]
      exact ⟨ascending, fun q hq => (issued q hq).trans grows⟩
    · rw [one]
      refine ⟨List.pairwise_append.mpr ⟨ascending, List.pairwise_singleton _ _, ?_⟩, ?_⟩
      · intro q hq r hr
        rw [List.mem_singleton.mp hr]
        exact Nat.lt_of_le_of_lt (issued q hq) fresh
      · intro q hq
        rcases List.mem_append.mp hq with earlier | now
        · exact (issued q earlier).trans grows
        · rw [List.mem_singleton.mp now]
          exact Nat.le_of_eq last

/-! ## Back to the opening -/

/-- A record goes back to an opening that the log tells, with the same terms. -/
def Traces (log : List (Call × Reply)) (p : Position) : Prop :=
  ∃ opened ∈ openedPositions log, p.terms = opened.terms

theorem Traces.append {log : List (Call × Reply)} {p : Position} (h : Traces log p)
    (more : List (Call × Reply)) : Traces (log ++ more) p := by
  obtain ⟨opened, mem, same⟩ := h
  refine ⟨opened, ?_, same⟩
  rw [openedPositions, List.flatMap_append]
  exact List.mem_append_left _ mem

theorem Traces.of_before {before later : List Call} {p : Position}
    (h : Traces (e0.run before).1 p) : Traces (e0.run (before ++ later)).1 p := by
  rw [run_append]
  exact h.append _

theorem traces_open (built : new s = .ok e0) (calls : List Call) {p : Position}
    (hp : p ∈ (e0.run calls).2.book.ledger.openPositions) : Traces (e0.run calls).1 p := by
  obtain ⟨t, commands, r, logged, told⟩ := opened_run built calls p hp
  exact ⟨p, List.mem_flatMap.mpr ⟨_, logged, told⟩, rfl⟩

/-- What a reply tells closed was open before and keeps its terms. -/
theorem open_of_mem_closings (h : Reached s e) {c : Call} {closed : ClosedPosition}
    (told : closed ∈ (e.call c).1.closings) :
    ∃ p ∈ e.book.ledger.openPositions, closed.record.terms = p.terms := by
  cases c with
  | tick t commands =>
    obtain ⟨-, p, hp, exit⟩ := exit_of_mem_closings h told
    exact ⟨p, hp, by rw [exit.record]; rfl⟩
  | close id price closedAt =>
    rw [call, close] at told
    cases done : e.book.close id price closedAt with
    | error error =>
      rw [done] at told
      cases told
    | ok r =>
      rw [done] at told
      obtain rfl := List.mem_singleton.mp told
      obtain ⟨p, found, finished, -⟩ := Book.close_eq_ok_iff.mp done
      exact ⟨p, List.mem_of_find?_eq_some found, by rw [finished]; rfl⟩
  | command c | forget => cases told

theorem traces_closed (built : new s = .ok e0) (calls : List Call) {closed : ClosedPosition}
    (told : closed ∈ closedPositions (e0.run calls).1) :
    Traces (e0.run calls).1 closed.record := by
  obtain ⟨⟨c, reply⟩, logged, told⟩ := List.mem_flatMap.mp told
  obtain ⟨before, later, rfl, rfl⟩ := mem_run logged
  obtain ⟨p, hp, same⟩ := open_of_mem_closings ⟨e0, before, built, rfl⟩ told
  obtain ⟨opened, mem, terms⟩ := traces_open built before hp
  exact Traces.of_before ⟨opened, mem, same.trans terms⟩

theorem traces_shown (built : new s = .ok e0) (calls : List Call) {p : Position}
    (record : p ∈ (e0.run calls).2.records) : Traces (e0.run calls).1 p := by
  rcases List.mem_append.mp record with held | archived
  · exact traces_open built calls held
  · obtain ⟨closed, kept, rfl⟩ := List.mem_map.mp archived
    rw [(remembers_run built calls).archive] at kept
    exact traces_closed built calls (List.mem_of_mem_drop kept)

theorem traces_told (built : new s = .ok e0) {c : Call} {reply : Reply} {p : Position}
    (logged : (c, reply) ∈ (e0.run calls).1) (record : p ∈ reply.records) :
    Traces (e0.run calls).1 p := by
  rcases List.mem_append.mp record with told | listed
  · rcases List.mem_append.mp told with opened | closed
    · exact ⟨p, List.mem_flatMap.mpr ⟨_, logged, opened⟩, rfl⟩
    · obtain ⟨position, closings, rfl⟩ := List.mem_map.mp closed
      exact traces_closed built calls (List.mem_flatMap.mpr ⟨_, logged, closings⟩)
  · obtain ⟨before, later, rfl, replied⟩ := mem_run logged
    cases reply with
    | obeyed changed | closed result | done => cases listed
    | report r =>
      -- the snapshot of a report shows the engine after the call
      have listed : p ∈ r.snapshot.openPositions := listed
      rw [snapshot_of_report replied.symm] at listed
      have after : (e0.run (before ++ [c])).2 = ((e0.run before).2.call c).2 := by
        rw [run_append]
        rfl
      have traced : Traces (e0.run (before ++ [c])).1 p :=
        traces_open built (before ++ [c]) (after ▸ listed)
      have longer : before ++ c :: later = before ++ [c] ++ later := by simp
      rw [longer]
      exact traced.of_before

theorem Sees.traces (built : new s = .ok e0) {p : Position} (seen : e0.Sees calls p) :
    Traces (e0.run calls).1 p := by
  cases seen with
  | told logged record => exact traces_told built logged record
  | shown split record =>
    rw [split]
    exact (traces_shown built _ record).of_before

/-- Records of one number go back to one opening. -/
theorem terms_eq_of_traces (built : new s = .ok e0) {p q : Position}
    (hp : Traces (e0.run calls).1 p) (hq : Traces (e0.run calls).1 q) (same : p.id = q.id) :
    p.terms = q.terms := by
  obtain ⟨a, ha, pa⟩ := hp
  obtain ⟨b, hb, qb⟩ := hq
  have ids : a.id = b.id :=
    calc a.id = p.id := (congrArg PositionTerms.id pa).symm
      _ = q.id := same
      _ = b.id := congrArg PositionTerms.id qb
  have ascending := (openings_issued built calls).1
  have found := Ledger.find?_of_mem ascending ha
  rw [ids, Ledger.find?_of_mem ascending hb] at found
  rw [pa, qb, Option.some.inj found]

/-- **The terms of a position are frozen.** In every run of a new engine positions are opened under
ascending numbers, every record that is seen has the terms of an opening that was told, and any two
records of one number have the same terms. -/
theorem terms_frozen (built : new s = .ok e0) (calls : List Call) :
    (openedPositions (e0.run calls).1).Pairwise (·.id < ·.id) ∧
    (∀ p, e0.Sees calls p →
      ∃ opened ∈ openedPositions (e0.run calls).1, p.terms = opened.terms) ∧
    ∀ p q, e0.Sees calls p → e0.Sees calls q → p.id = q.id → p.terms = q.terms := by
  refine ⟨(openings_issued built calls).1, fun p seen => seen.traces built, ?_⟩
  intro p q hp hq same
  exact terms_eq_of_traces built (hp.traces built) (hq.traces built) same

/-- The calls that open a position, move the ladder below it, and close it at a gain. -/
def gainedCalls : List Call :=
  boughtCalls ++
    [.command (.skipToLevel 3), .command .pause, .forget, .close 1 111.0 ⟨1709521200, 0⟩]

/-- The position as it is archived. -/
def gainedPosition : Position :=
  { boughtPosition with isComplete := true, isProfit := true, exitPrice := some 111.0 }

/-- The position is archived under the terms with which it was open. -/
theorem terms_frozen_gained :
    new turningSettings = .ok (fresh turningSettings) ∧
    (fresh turningSettings).Sees gainedCalls boughtPosition ∧
    (fresh turningSettings).Sees gainedCalls gainedPosition ∧
    boughtPosition.id = gainedPosition.id ∧ boughtPosition ≠ gainedPosition ∧
    boughtPosition.terms = gainedPosition.terms := by
  have held : boughtPosition ∈ ((fresh turningSettings).run boughtCalls).2.records := by
    decide +kernel
  have archived : gainedPosition ∈ ((fresh turningSettings).run gainedCalls).2.records := by
    decide +kernel
  have first : (fresh turningSettings).Sees gainedCalls boughtPosition := .shown rfl held
  have last : (fresh turningSettings).Sees gainedCalls gainedPosition :=
    .shown (List.append_nil _).symm archived
  exact ⟨new_turningSettings, first, last, rfl, by decide +kernel,
    (terms_frozen new_turningSettings gainedCalls).2.2 _ _ first last rfl⟩

end Engine

end TrendLadder
