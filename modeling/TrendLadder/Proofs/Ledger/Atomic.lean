import TrendLadder.Proofs.Ledger.Lifecycle

/-!
# Operations on a book are all or nothing

Opening and closing a position change a book in several steps, and what can fail is asked for
between them: a close takes the position out of the ledger before it is known to have been there,
then moves the ladder, then tells the gate, and archives the position last. `Book.Steps` are
operations in which a failure keeps whatever was done before it, and `allOrNothing` says that there
is never anything to keep: an operation that fails leaves the book as it was, and one that succeeds
changes what it has to and nothing else.

The proof is that the steps, put together, are the operations of the book (`on_openFor`, `on_close`,
`on_closeCompleted`), which make a new book only once they have succeeded.
-/

namespace TrendLadder

theorem Recent.items_push_of_capacity {α : Type} {r : Recent α} {n : Nat} (bounded : r.capacity = n)
    (x : α) :
    (r.push x).items = (if r.items.length = n then r.items.tail else r.items) ++ [x] := by
  rw [push, bounded]

namespace Ledger

/-- Nothing is taken out of the ledger where the position is not open. -/
theorem filter_of_find?_eq_none {l : Ledger} {id : PositionId} (absent : l.find? id = none) :
    l.openPositions.filter (·.id ≠ id) = l.openPositions := by
  refine List.filter_eq_self.mpr fun p isOpen => ?_
  simpa using List.find?_eq_none.mp absent p isOpen

theorem find?_archived_self (l : Ledger) (id : PositionId) (closed : ClosedPosition) :
    (l.archived id closed).find? id = none := by
  refine List.find?_eq_none.mpr fun p isOpen => ?_
  simpa using (List.mem_filter.mp isOpen).2

theorem find?_archived_other {l : Ledger} {id other : PositionId} (apart : other ≠ id)
    (closed : ClosedPosition) : (l.archived id closed).find? other = l.find? other := by
  show (l.openPositions.filter (·.id ≠ id)).find? (·.id = other) = _
  rw [List.find?_filter]
  unfold find?
  congr 1
  funext p
  by_cases same : p.id = other <;> simp [same, apart]

end Ledger

namespace Book

variable {ε α : Type}

/-! ## Steps -/

/-- An operation on a book in steps. A failure keeps what was done before it. -/
abbrev Steps (ε α : Type) : Type := ExceptT ε (StateM Book) α

namespace Steps

/-- The result of an operation, and the book after it. -/
def on (b : Book) (op : Steps ε α) : Except ε α × Book := op.run.run b

section Sequence

variable {β : Type} (b : Book)

@[simp] theorem on_pure (x : α) : on b (pure x : Steps ε α) = (.ok x, b) := rfl

@[simp] theorem on_throw (e : ε) : on b (throw e : Steps ε α) = (.error e, b) := rfl

@[simp] theorem on_get : on b (get : Steps ε Book) = (.ok b, b) := rfl

@[simp] theorem on_modifyGet (f : Book → α × Book) :
    on b (modifyGet f : Steps ε α) = (.ok (f b).1, (f b).2) := rfl

/-- What follows a step is done on the book that the step leaves, unless the step failed. -/
@[simp] theorem on_bind (op : Steps ε α) (f : α → Steps ε β) :
    on b (op >>= f) =
      match on b op with
      | (.ok x, next) => on next (f x)
      | (.error e, next) => (.error e, next) := by
  unfold on
  rw [ExceptT.run_bind, StateT.run_bind]
  rcases StateT.run (ExceptT.run op) b with ⟨e | x, next⟩ <;> rfl

end Sequence

/-- Takes a position out of the ledger, if it is open. -/
def remove (id : PositionId) : Steps ε (Option Position) :=
  modifyGet fun b => (b.ledger.find? id,
    { b with ledger :=
      { b.ledger with openPositions := b.ledger.openPositions.filter (·.id ≠ id) } })

def move (outcome : TradeOutcome) : Steps ε LevelTransition :=
  modifyGet fun b => (b.ladder.transition (b.ladder.applyOutcome outcome),
    { b with ladder := b.ladder.applyOutcome outcome })

/-- Tells the gate of a profit. -/
def remember (profit : Float) : Steps ε Unit :=
  modifyGet fun b => ((), { b with gate := b.gate.recordProfit profit })

/-- Archives a closed position. -/
def keep (closed : ClosedPosition) : Steps ε Unit :=
  modifyGet fun b =>
    ((), { b with ledger := { b.ledger with archive := b.ledger.archive.push closed } })

/-- Hands out the next number. -/
def takeNumber : Steps ε PositionId :=
  modifyGet fun b => (b.ledger.issued + 1,
    { b with ledger := { b.ledger with issued := b.ledger.issued + 1 } })

/-- Adds an open position. -/
def add (p : Position) : Steps ε Unit :=
  modifyGet fun b =>
    ((), { b with ledger := { b.ledger with openPositions := b.ledger.openPositions ++ [p] } })

def openFor (s : Signal) (a : Account) (q : Quote) : Steps OpenRejection Position := do
  let b ← get
  match s.direction? with
  | none => throw .noDirection
  | some direction =>
    match b.gate.authorize a q b.ladder.paused with
    | .error violation => throw (.risk violation)
    | .ok () =>
      if b.ledger.policy.limit ≤ b.ledger.openCount then
        throw (.positionLimit b.ledger.openCount b.ledger.policy.limit)
      else if b.ladder.lotSize ≤ 0.0 then throw .zeroLots
      else
        let id ← takeNumber
        let p := { b.ledger.nextPosition s direction b.ladder with id := id }
        add p
        return p

def close (id : PositionId) (exitPrice : Float) (closedAt : Timestamp) :
    Steps LedgerError ClosedPosition := do
  match ← remove id with
  | none => throw (.unknownPosition id)
  | some p =>
    let profit := p.profitAt exitPrice
    let outcome := TradeOutcome.ofProfit profit
    let transition ← move outcome
    remember profit
    let closed : ClosedPosition :=
      ⟨p.exitAt exitPrice, exitPrice, profit, outcome, transition, closedAt⟩
    keep closed
    return closed

def closeCompleted (id : PositionId) (closedAt : Timestamp) :
    Steps LedgerError ClosedPosition := do
  let b ← get
  match b.ledger.find? id with
  | none => throw (.unknownPosition id)
  | some p =>
    match p.exitPrice with
    | none => throw (.notComplete id)
    | some exitPrice => close id exitPrice closedAt

end Steps

/-! ## The operations on the whole -/

/-- The result of an operation and the book after it, where a failed one leaves it as it is. -/
def attempt (b : Book) : Except ε (α × Book) → Except ε α × Book
  | .ok (x, next) => (.ok x, next)
  | .error e => (.error e, b)

open Steps (on)

variable {b : Book} {id : PositionId}

theorem on_close (b : Book) (id : PositionId) (exitPrice : Float) (closedAt : Timestamp) :
    on b (Steps.close id exitPrice closedAt) = b.attempt (b.close id exitPrice closedAt) := by
  rw [Steps.close, Steps.on_bind, Steps.remove, Steps.on_modifyGet]
  cases found : b.ledger.find? id with
  | none =>
    rw [close_eq_error found]
    simp only [Ledger.filter_of_find?_eq_none found, Steps.on_throw, attempt]
  | some p =>
    rw [close_eq_ok found]
    simp only [Steps.move, Steps.remember, Steps.keep, Steps.on_bind, Steps.on_modifyGet,
      Steps.on_pure, attempt]
    rfl

theorem on_closeCompleted (b : Book) (id : PositionId) (closedAt : Timestamp) :
    on b (Steps.closeCompleted id closedAt) = b.attempt (b.closeCompleted id closedAt) := by
  rw [Steps.closeCompleted, Steps.on_bind, Steps.on_get, closeCompleted]
  dsimp only
  cases b.ledger.find? id with
  | none => rfl
  | some p =>
    dsimp only
    cases p.exitPrice with
    | none => rfl
    | some price => exact on_close b id price closedAt

theorem on_openFor (b : Book) (s : Signal) (a : Account) (q : Quote) :
    on b (Steps.openFor s a q) = b.attempt ((b.ledger.openFor s b.ladder b.gate a q).map
      fun r => (r.1, { b with ledger := r.2 })) := by
  rw [Steps.openFor, Steps.on_bind, Steps.on_get, Ledger.openFor]
  dsimp only
  cases s.direction? with
  | none => rfl
  | some direction =>
    cases b.gate.authorize a q b.ladder.paused with
    | error violation => rfl
    | ok =>
      dsimp only
      split
      · rfl
      · split
        · rfl
        · simp only [Steps.takeNumber, Steps.add, Steps.on_bind, Steps.on_modifyGet, Steps.on_pure]
          rfl

/-! ## Results -/

/-- What closing a position at a price does to a book: what became of the position, the ladder, the
gate and the archive, and that the rest of the book is as it was. -/
structure Settles (b : Book) (id : PositionId) (exitPrice : Float) (closed : ClosedPosition)
    (next : Book) : Prop where
  position : ∃ p, b.ledger.find? id = some p ∧ closed.record = p.exitAt exitPrice ∧
    closed.profit = p.profitAt exitPrice
  removed : next.ledger.find? id = none
  others : ∀ other, other ≠ id → next.ledger.find? other = b.ledger.find? other
  openPositions : next.ledger.openPositions = b.ledger.openPositions.filter (·.id ≠ id)
  issued : next.ledger.issued = b.ledger.issued
  policy : next.ledger.policy = b.ledger.policy
  outcome : closed.outcome = .ofProfit closed.profit
  ladder : next.ladder = b.ladder.applyOutcome closed.outcome
  transition : closed.transition = ⟨b.ladder.level, next.ladder.level⟩
  /-- Nothing in the gate has changed but the profits that it remembers. -/
  gate : next.gate = { b.gate with profits := b.gate.profits.push closed.profit }
  profits : b.gate.profits.capacity = profitCapacity →
    next.gate.profits.items = (if b.gate.profits.items.length = 100
      then b.gate.profits.items.tail else b.gate.profits.items) ++ [closed.profit]
  archive : next.ledger.archive = b.ledger.archive.push closed
  /-- Of a hundred archived positions the oldest makes room. -/
  archived : b.ledger.archive.capacity = archiveCapacity →
    next.ledger.archive.items = (if b.ledger.archive.items.length = 100
      then b.ledger.archive.items.tail else b.ledger.archive.items) ++ [closed]

theorem settles_of_close {next : Book} {exitPrice : Float} {closedAt : Timestamp}
    {closed : ClosedPosition} (done : b.close id exitPrice closedAt = .ok (closed, next)) :
    b.Settles id exitPrice closed next := by
  obtain ⟨p, found, rfl, rfl⟩ := close_eq_ok_iff.mp done
  constructor
  case position => exact ⟨p, found, rfl, rfl⟩
  case removed => exact Ledger.find?_archived_self ..
  case others => exact fun other apart => Ledger.find?_archived_other apart _
  case profits => exact fun bounded => Recent.items_push_of_capacity bounded _
  case archived => exact fun bounded => Recent.items_push_of_capacity bounded _
  all_goals rfl

/-- Operations on a book either fail and leave it as it is, or do all that they have to. -/
structure AllOrNothing (b : Book) : Prop where
  /-- The steps are those of the operations of the book. -/
  steps : (∀ s a q, on b (Steps.openFor s a q) =
      b.attempt ((b.ledger.openFor s b.ladder b.gate a q).map
        fun r => (r.1, { b with ledger := r.2 }))) ∧
    (∀ id exitPrice closedAt,
      on b (Steps.close id exitPrice closedAt) = b.attempt (b.close id exitPrice closedAt)) ∧
    ∀ id closedAt,
      on b (Steps.closeCompleted id closedAt) = b.attempt (b.closeCompleted id closedAt)
  refused : ∀ s a q e next, on b (Steps.openFor s a q) = (.error e, next) → next = b
  opened : ∀ s a q p next, on b (Steps.openFor s a q) = (.ok p, next) →
    p.id = b.ledger.issued + 1 ∧ next = { b with ledger := b.ledger.insert p }
  unclosed : ∀ id exitPrice closedAt e next,
    on b (Steps.close id exitPrice closedAt) = (.error e, next) →
      next = b ∧ b.ledger.find? id = none ∧ e = .unknownPosition id
  closed : ∀ id exitPrice closedAt closed next,
    on b (Steps.close id exitPrice closedAt) = (.ok closed, next) →
      b.Settles id exitPrice closed next
  incomplete : ∀ id closedAt e next,
    on b (Steps.closeCompleted id closedAt) = (.error e, next) →
      next = b ∧ (b.ledger.find? id = none ∧ e = .unknownPosition id ∨
        ∃ p, b.ledger.find? id = some p ∧ p.exitPrice = none ∧ e = .notComplete id)
  completed : ∀ id closedAt closed next,
    on b (Steps.closeCompleted id closedAt) = (.ok closed, next) →
      ∃ p exitPrice, b.ledger.find? id = some p ∧ p.exitPrice = some exitPrice ∧
        b.Settles id exitPrice closed next
  /-- A completed position is closed at the price that completed it. -/
  atExit : ∀ id closedAt p exitPrice, b.ledger.find? id = some p →
    p.exitPrice = some exitPrice →
      on b (Steps.closeCompleted id closedAt) = on b (Steps.close id exitPrice closedAt)
  /-- An open position can be closed at any price. -/
  closable : ∀ id exitPrice closedAt p, b.ledger.find? id = some p →
    ∃ closed next, on b (Steps.close id exitPrice closedAt) = (.ok closed, next)

/-- An attempt that fails leaves the book as it is. -/
theorem attempt_eq_error {r : Except ε (α × Book)} {e : ε} {next : Book} :
    b.attempt r = (.error e, next) ↔ r = .error e ∧ next = b := by
  cases r <;> simp [attempt, eq_comm]

theorem attempt_eq_ok {r : Except ε (α × Book)} {x : α} {next : Book} :
    b.attempt r = (.ok x, next) ↔ r = .ok (x, next) := by
  cases r <;> simp [attempt, Prod.ext_iff]

/-- **Operations on a book are all or nothing**, and touch nothing but their own position. -/
theorem allOrNothing (b : Book) : b.AllOrNothing := by
  constructor
  case steps => exact ⟨b.on_openFor, b.on_close, b.on_closeCompleted⟩
  case refused =>
    intro s a q e next failed
    rw [on_openFor, attempt_eq_error] at failed
    exact failed.2
  case opened =>
    intro s a q p next done
    rw [on_openFor, attempt_eq_ok] at done
    cases opened : b.ledger.openFor s b.ladder b.gate a q with
    | error e =>
      rw [opened] at done
      cases done
    | ok r =>
      obtain ⟨direction, -, -, -, -, numbered, inserted⟩ := Ledger.openFor_eq_ok.mp opened
      rw [opened] at done
      cases done
      rw [inserted, numbered]
      exact ⟨rfl, rfl⟩
  case unclosed =>
    intro id exitPrice closedAt e next failed
    rw [on_close, attempt_eq_error] at failed
    obtain ⟨failed, rfl⟩ := failed
    obtain ⟨absent, named⟩ := close_eq_error_iff.mp failed
    exact ⟨rfl, absent, named⟩
  case closed =>
    intro id exitPrice closedAt closed next done
    rw [on_close, attempt_eq_ok] at done
    exact settles_of_close done
  case incomplete =>
    intro id closedAt e next failed
    rw [on_closeCompleted, attempt_eq_error] at failed
    obtain ⟨failed, rfl⟩ := failed
    exact ⟨rfl, closeCompleted_eq_error_iff.mp failed⟩
  case completed =>
    intro id closedAt closed next done
    rw [on_closeCompleted, attempt_eq_ok] at done
    obtain ⟨p, exitPrice, found, complete, done⟩ := closeCompleted_eq_ok_iff.mp done
    exact ⟨p, exitPrice, found, complete, settles_of_close done⟩
  case atExit =>
    intro id closedAt p exitPrice found complete
    rw [on_closeCompleted, on_close, closeCompleted_eq_close found complete]
  case closable =>
    intro id exitPrice closedAt p found
    exact ⟨_, _, by rw [on_close, attempt_eq_ok, close_eq_ok found]⟩

end Book

end TrendLadder
