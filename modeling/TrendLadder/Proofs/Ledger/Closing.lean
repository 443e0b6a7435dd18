import Mathlib.Data.List.Basic
import TrendLadder.Ledger.Basic

/-!
# Closing the positions that a candle completes

A ledger is `Orderly` if the numbers of its open positions ascend up to the latest one issued and
no open position has an exit. On an orderly ledger a candle closes the positions that it completes
one by one, each at its exit price (`take_eq_closeEach`): the marks that the candle leaves on them
in between are not seen. Every operation of the book keeps the ledger orderly.
-/

namespace TrendLadder

namespace Position

/-- A position without an exit. -/
def IsLive (p : Position) : Prop := p.isComplete = false ∧ p.exitPrice = none

theorem IsLive.completesOn_eq {p : Position} (h : p.IsLive) (c : Candle) :
    p.completesOn c = (p.exitOn c).isSome := by
  rw [completesOn, h.1, Bool.not_false, Bool.true_and]

theorem IsLive.evaluate_of_some {p : Position} (h : p.IsLive) {c : Candle} {price : Float}
    (hx : p.exitOn c = some price) : p.evaluate c = p.exitAt price := by
  rw [evaluate, h.1, hx]
  rfl

theorem IsLive.evaluate_of_none {p : Position} (h : p.IsLive) {c : Candle}
    (hx : p.exitOn c = none) : p.evaluate c = p := by
  rw [evaluate, h.1, hx]
  rfl

@[simp] theorem id_evaluate (p : Position) (c : Candle) : (p.evaluate c).id = p.id := by
  unfold evaluate
  split
  · rfl
  · cases p.exitOn c <;> rfl

/-- The number of a position with the price at which a candle makes it exit. -/
def numberedExit (p : Position) (c : Candle) : Option (PositionId × Float) :=
  (p.exitOn c).map fun price => (p.id, price)

theorem numberedExit_of_some {p : Position} {c : Candle} {price : Float}
    (hx : p.exitOn c = some price) : p.numberedExit c = some (p.id, price) := by
  rw [numberedExit, hx, Option.map_some]

end Position

namespace Ledger

/-- The open positions are numbered in ascending order up to the latest number issued, and none
of them has an exit. -/
structure Orderly (l : Ledger) : Prop where
  ascending : l.openPositions.Pairwise (·.id < ·.id)
  issued : ∀ p ∈ l.openPositions, p.id ≤ l.issued
  live : ∀ p ∈ l.openPositions, p.IsLive

theorem orderly_new (policy : PositionSettings) : (Ledger.new policy).Orderly where
  ascending := .nil
  issued := by intro p hp; cases hp
  live := by intro p hp; cases hp

/-- Ascending numbers tell positions apart. -/
theorem find?_of_mem {l : List Position} (ascending : l.Pairwise (·.id < ·.id)) {p : Position}
    (hp : p ∈ l) : l.find? (·.id = p.id) = some p := by
  induction l with
  | nil => cases hp
  | cons q qs ih =>
    obtain ⟨lt, rest⟩ := List.pairwise_cons.mp ascending
    rcases List.mem_cons.mp hp with rfl | hm
    · exact List.find?_cons_of_pos (decide_eq_true rfl)
    · have hne : q.id ≠ p.id := Nat.ne_of_lt (lt p hm)
      rw [List.find?_cons_of_neg (by simpa using hne)]
      exact ih rest hm

theorem Orderly.find?_eq {l : Ledger} (h : l.Orderly) {p : Position} (hp : p ∈ l.openPositions) :
    l.find? p.id = some p :=
  find?_of_mem h.ascending hp

theorem Orderly.of_sublist {l m : Ledger} (h : l.Orderly)
    (sub : m.openPositions.Sublist l.openPositions) (issued : l.issued ≤ m.issued) :
    m.Orderly where
  ascending := h.ascending.sublist sub
  issued := by
    intro p hp
    exact Nat.le_trans (h.issued p (sub.subset hp)) issued
  live := by
    intro p hp
    exact h.live p (sub.subset hp)

theorem Orderly.insert {l : Ledger} (h : l.Orderly) {p : Position} (id : p.id = l.issued + 1)
    (live : p.IsLive) : (l.insert p).Orderly where
  ascending := by
    refine List.pairwise_append.mpr ⟨h.ascending, List.pairwise_singleton _ _, ?_⟩
    intro q hq r hr
    rw [List.mem_singleton] at hr
    rw [hr, id]
    exact Nat.lt_succ_of_le (h.issued q hq)
  issued := by
    intro q hq
    show q.id ≤ l.issued + 1
    rcases List.mem_append.mp hq with hq | hq
    · exact Nat.le_succ_of_le (h.issued q hq)
    · rw [List.mem_singleton] at hq
      exact Nat.le_of_eq (hq ▸ id)
  live := by
    intro q hq
    rcases List.mem_append.mp hq with hq | hq
    · exact h.live q hq
    · rw [List.mem_singleton] at hq
      exact hq ▸ live

/-- The exits that a candle makes the open positions take, in the order of their numbers. -/
def exits (l : Ledger) (c : Candle) : List (PositionId × Float) :=
  l.openPositions.filterMap (·.numberedExit c)

theorem Orderly.evaluate_eq {l : Ledger} (h : l.Orderly) {c : Candle}
    (none : ∀ p ∈ l.openPositions, p.exitOn c = none) : l.evaluate c = l := by
  have hm : l.openPositions.map (·.evaluate c) = l.openPositions.map id :=
    List.map_congr_left fun p hp => (h.live p hp).evaluate_of_none (none p hp)
  rw [evaluate, hm, List.map_id]

end Ledger

namespace Book

/-- Closes positions at given prices in turn. -/
def closeEach (b : Book) (closedAt : Timestamp) :
    List (PositionId × Float) → List ClosedPosition × Book
  | [] => ([], b)
  | (id, price) :: exits =>
    match b.close id price closedAt with
    | .ok (closed, next) =>
      let others := next.closeEach closedAt exits
      (closed :: others.1, others.2)
    | .error _ => b.closeEach closedAt exits

/-- The book with the marks that a candle leaves on the open positions. -/
def marked (b : Book) (c : Candle) : Book := { b with ledger := b.ledger.evaluate c }

theorem close_eq_ok {b : Book} {id : PositionId} {p : Position} (h : b.ledger.find? id = some p)
    (price : Float) (closedAt : Timestamp) :
    b.close id price closedAt =
      .ok (b.finish p price closedAt, b.settle id (b.finish p price closedAt)) := by
  rw [close, h]

theorem close_eq_ok_iff {b next : Book} {id : PositionId} {price : Float} {closedAt : Timestamp}
    {closed : ClosedPosition} :
    b.close id price closedAt = .ok (closed, next) ↔ ∃ p, b.ledger.find? id = some p ∧
      closed = b.finish p price closedAt ∧ next = b.settle id closed := by
  cases hf : b.ledger.find? id with
  | none =>
    rw [close, hf]
    exact ⟨nofun, fun ⟨_, h, _⟩ => nomatch h⟩
  | some p =>
    rw [close_eq_ok hf, Except.ok.injEq, Prod.mk.injEq]
    constructor
    · rintro ⟨rfl, rfl⟩
      exact ⟨p, rfl, rfl, rfl⟩
    · rintro ⟨q, hq, rfl, rfl⟩
      cases hq
      exact ⟨rfl, rfl⟩

theorem close_eq_error {b : Book} {id : PositionId} (h : b.ledger.find? id = none)
    (price : Float) (closedAt : Timestamp) :
    b.close id price closedAt = .error (.unknownPosition id) := by
  rw [close, h]

theorem close_eq_error_iff {b : Book} {id : PositionId} {price : Float} {closedAt : Timestamp}
    {e : LedgerError} : b.close id price closedAt = .error e ↔
      b.ledger.find? id = none ∧ e = .unknownPosition id := by
  unfold close
  cases b.ledger.find? id <;> simp [eq_comm]

section Completed

variable {b : Book} {id : PositionId} {closedAt : Timestamp}

theorem closeCompleted_eq_close {p : Position} {price : Float} (found : b.ledger.find? id = some p)
    (complete : p.exitPrice = some price) (closedAt : Timestamp) :
    b.closeCompleted id closedAt = b.close id price closedAt := by
  unfold closeCompleted
  rw [found]
  dsimp only
  rw [complete]

theorem closeCompleted_eq_error_iff {e : LedgerError} :
    b.closeCompleted id closedAt = .error e ↔
      b.ledger.find? id = none ∧ e = .unknownPosition id ∨
        ∃ p, b.ledger.find? id = some p ∧ p.exitPrice = none ∧ e = .notComplete id := by
  unfold closeCompleted
  cases found : b.ledger.find? id with
  | none => simp [eq_comm]
  | some p =>
    cases complete : p.exitPrice with
    | none => simp [complete, eq_comm]
    | some price => simp [complete, close_eq_ok found]

theorem closeCompleted_eq_ok_iff {r : ClosedPosition × Book} :
    b.closeCompleted id closedAt = .ok r ↔ ∃ p price, b.ledger.find? id = some p ∧
      p.exitPrice = some price ∧ b.close id price closedAt = .ok r := by
  constructor
  · intro done
    have kept (e : LedgerError) : b.closeCompleted id closedAt ≠ .error e := by
      rw [done]
      exact nofun
    cases found : b.ledger.find? id with
    | none => exact absurd (closeCompleted_eq_error_iff.mpr (.inl ⟨found, rfl⟩)) (kept _)
    | some p =>
      cases complete : p.exitPrice with
      | none =>
        exact absurd (closeCompleted_eq_error_iff.mpr (.inr ⟨p, found, complete, rfl⟩)) (kept _)
      | some price =>
        exact ⟨p, price, rfl, complete, closeCompleted_eq_close found complete closedAt ▸ done⟩
  · rintro ⟨p, price, found, complete, done⟩
    rw [closeCompleted_eq_close found complete, done]

end Completed

theorem find?_marked (b : Book) (c : Candle) (id : PositionId) :
    (b.marked c).ledger.find? id = (b.ledger.find? id).map (·.evaluate c) := by
  show (b.ledger.openPositions.map (·.evaluate c)).find? _ = _
  rw [List.find?_map]
  congr 2
  funext p
  exact congrArg (fun n => decide (n = id)) (Position.id_evaluate p c)

theorem settle_marked (b : Book) (c : Candle) (id : PositionId) (closed : ClosedPosition) :
    (b.marked c).settle id closed = (b.settle id closed).marked c := by
  have hf : (b.ledger.openPositions.map (·.evaluate c)).filter (·.id ≠ id) =
      (b.ledger.openPositions.filter (·.id ≠ id)).map (·.evaluate c) := by
    rw [List.filter_map]
    congr 2
    funext p
    exact congrArg (fun n => decide (n ≠ id)) (Position.id_evaluate p c)
  unfold settle marked Ledger.archived Ledger.evaluate
  dsimp only
  rw [hf]

/-- A marked position is closed at the price that the candle gave it, as if it were not marked. -/
theorem closeCompleted_marked {b : Book} (h : b.ledger.Orderly) {c : Candle} {p : Position}
    (hp : p ∈ b.ledger.openPositions) {price : Float} (hx : p.exitOn c = some price)
    (closedAt : Timestamp) :
    (b.marked c).closeCompleted p.id closedAt =
      .ok (b.finish p price closedAt, (b.settle p.id (b.finish p price closedAt)).marked c) := by
  have hf : (b.marked c).ledger.find? p.id = some (p.exitAt price) := by
    rw [find?_marked, h.find?_eq hp, Option.map_some, (h.live p hp).evaluate_of_some hx]
  have finished : (b.marked c).finish (p.exitAt price) price closedAt = b.finish p price closedAt :=
    rfl
  rw [← settle_marked, ← finished, ← close_eq_ok hf, closeCompleted, hf]
  rfl

theorem orderly_settle {b : Book} (h : b.ledger.Orderly) (id : PositionId)
    (closed : ClosedPosition) : (b.settle id closed).ledger.Orderly :=
  h.of_sublist List.filter_sublist (Nat.le_refl _)

/-- Closing marked positions in turn closes them at their exits. -/
theorem closeAll_marked {c : Candle} (closedAt : Timestamp) (ps : List Position) :
    ∀ {b : Book}, b.ledger.Orderly → ps.Pairwise (·.id < ·.id) →
      (∀ p ∈ ps, p ∈ b.ledger.openPositions ∧ (p.exitOn c).isSome) →
      (b.marked c).closeAll closedAt (ps.map Position.id) =
        (b.closeEach closedAt (ps.filterMap (·.numberedExit c))).map id (·.marked c) := by
  induction ps with
  | nil => exact fun _ _ _ => rfl
  | cons p ps ih =>
    intro b h ascending exit
    obtain ⟨lt, rest⟩ := List.pairwise_cons.mp ascending
    obtain ⟨hp, hx⟩ := exit p List.mem_cons_self
    obtain ⟨price, hx⟩ := Option.isSome_iff_exists.mp hx
    have next : ∀ q ∈ ps, q ∈ (b.settle p.id (b.finish p price closedAt)).ledger.openPositions ∧
        (q.exitOn c).isSome := by
      intro q hq
      obtain ⟨hq2, hx2⟩ := exit q (List.mem_cons_of_mem p hq)
      have hne : q.id ≠ p.id := (Nat.ne_of_lt (lt q hq)).symm
      exact ⟨List.mem_filter.mpr ⟨hq2, decide_eq_true hne⟩, hx2⟩
    have closed := ih (orderly_settle h p.id (b.finish p price closedAt)) rest next
    have exits : (p :: ps).filterMap (·.numberedExit c) =
        (p.id, price) :: ps.filterMap (·.numberedExit c) :=
      List.filterMap_cons_some (Position.numberedExit_of_some hx)
    rw [List.map_cons, closeAll, closeCompleted_marked h hp hx, exits, closeEach,
      close_eq_ok (h.find?_eq hp)]
    dsimp only
    rw [closed]
    rfl

/-- After closing positions in turn, those with other numbers are open. -/
theorem openPositions_closeEach (closedAt : Timestamp) (exits : List (PositionId × Float)) :
    ∀ b : Book, (b.closeEach closedAt exits).2.ledger.openPositions =
      b.ledger.openPositions.filter (·.id ∉ exits.map Prod.fst) := by
  induction exits with
  | nil =>
    intro b
    exact (List.filter_eq_self.mpr fun _ _ => by simp).symm
  | cons x xs ih =>
    intro b
    obtain ⟨id, price⟩ := x
    rw [closeEach]
    cases hf : b.ledger.find? id with
    | some p =>
      rw [close_eq_ok hf]
      dsimp only
      rw [ih]
      show (b.ledger.openPositions.filter _).filter _ = _
      rw [List.filter_filter]
      refine List.filter_congr fun q _ => ?_
      rw [Bool.eq_iff_iff]
      simp only [List.map_cons, List.mem_cons, not_or, decide_eq_true_eq, Bool.and_eq_true,
        and_comm]
    | none =>
      rw [close_eq_error hf]
      dsimp only
      rw [ih]
      refine List.filter_congr fun q hq => ?_
      have hne : q.id ≠ id := by simpa using List.find?_eq_none.mp hf q hq
      simp [hne]

theorem closeEach_induct {P : Book → Prop} {closedAt : Timestamp}
    (step : ∀ {b next : Book} {id : PositionId} {price : Float} {closed : ClosedPosition},
      b.close id price closedAt = .ok (closed, next) → P b → P next)
    (exits : List (PositionId × Float)) : ∀ {b : Book}, P b → P (b.closeEach closedAt exits).2 := by
  induction exits with
  | nil => exact fun h => h
  | cons x xs ih =>
    intro b h
    rw [closeEach]
    cases hc : b.close x.1 x.2 closedAt with
    | ok r => exact ih (step hc h)
    | error e => exact ih h

theorem orderly_close {b next : Book} {id : PositionId} {price : Float} {closedAt : Timestamp}
    {closed : ClosedPosition} (hc : b.close id price closedAt = .ok (closed, next))
    (h : b.ledger.Orderly) : next.ledger.Orderly := by
  obtain ⟨p, -, -, rfl⟩ := close_eq_ok_iff.mp hc
  exact orderly_settle h id closed

theorem orderly_closeEach {b : Book} (h : b.ledger.Orderly) (closedAt : Timestamp)
    (exits : List (PositionId × Float)) : (b.closeEach closedAt exits).2.ledger.Orderly :=
  closeEach_induct (P := fun b => b.ledger.Orderly) orderly_close exits h

/-- What is open after the exits of a candle does not exit on it. -/
theorem exitOn_of_mem_closeEach {b : Book} {c : Candle} {p : Position}
    (hp : p ∈ (b.closeEach c.timestamp (b.ledger.exits c)).2.ledger.openPositions) :
    p.exitOn c = none := by
  rw [openPositions_closeEach] at hp
  obtain ⟨hm, hn⟩ := List.mem_filter.mp hp
  by_contra hx
  obtain ⟨price, hx⟩ := Option.ne_none_iff_exists'.mp hx
  have : (p.id, price) ∈ b.ledger.exits c :=
    List.mem_filterMap.mpr ⟨p, hm, Position.numberedExit_of_some hx⟩
  exact of_decide_eq_true hn (List.mem_map_of_mem this)

/-- **A candle closes what it completes.** The positions that exit on the candle are closed in
the order of their numbers, each at its exit. -/
theorem take_eq_closeEach {b : Book} (h : b.ledger.Orderly) (c : Candle) :
    b.take c = b.closeEach c.timestamp (b.ledger.exits c) := by
  have ids : b.ledger.completedBy c =
      (b.ledger.openPositions.filter fun p => (p.exitOn c).isSome).map Position.id := by
    unfold Ledger.completedBy
    congr 1
    exact List.filter_congr fun p hp => (h.live p hp).completesOn_eq c
  have exits : (b.ledger.openPositions.filter fun p => (p.exitOn c).isSome).filterMap
      (·.numberedExit c) = b.ledger.exits c := by
    rw [List.filterMap_filter]
    unfold Ledger.exits
    congr 1
    funext p
    unfold Position.numberedExit
    cases p.exitOn c <;> rfl
  have closed := closeAll_marked c.timestamp
    (b.ledger.openPositions.filter fun p => (p.exitOn c).isSome) h
    (h.ascending.sublist List.filter_sublist) fun p hp => List.mem_filter.mp hp
  rw [← ids, exits] at closed
  have unmarked : (b.closeEach c.timestamp (b.ledger.exits c)).2.marked c =
      (b.closeEach c.timestamp (b.ledger.exits c)).2 := by
    rw [marked, (orderly_closeEach h _ _).evaluate_eq fun p hp => exitOn_of_mem_closeEach hp]
  show (b.marked c).closeAll c.timestamp (b.ledger.completedBy c) = _
  rw [closed]
  exact Prod.ext rfl unmarked

end Book

end TrendLadder
