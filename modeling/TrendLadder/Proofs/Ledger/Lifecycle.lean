import Mathlib.Data.List.Nodup
import TrendLadder.Proofs.Ledger.Moves
import TrendLadder.Proofs.Recent

/-!
# The life of a position

A ledger is asked to open, to update and to close, with any ladder and gate each time, and its
replies tell the positions that it opened and closed. `lifecycle_run` says what the replies and the
ledger have to do with each other after any calls, refused ones among them: positions are numbered
1, 2, 3 and so on, each of them is open or was closed once, and the archive holds the latest closed
ones. The proof rests on one fact that every call keeps (`Ledger.Accounts`): the numbers of the open
positions and those of the closed ones are together the numbers handed out.
-/

namespace TrendLadder

/-- What can be asked of a ledger. -/
inductive LedgerCall where
  | openFor (s : Signal) (ladder : Ladder) (gate : RiskGate) (a : Account) (q : Quote)
  | update (c : Candle)
  | close (id : PositionId) (price : Float) (closedAt : Timestamp) (ladder : Ladder)
      (gate : RiskGate)
  | closeCompleted (id : PositionId) (closedAt : Timestamp) (ladder : Ladder) (gate : RiskGate)

/-- What the ledger answers. -/
inductive LedgerReply where
  | opened (result : Except OpenRejection Position)
  | completed (ids : List PositionId)
  | closed (result : Except LedgerError ClosedPosition)

namespace LedgerReply

/-- The position that a reply tells opened. -/
def opened? : LedgerReply → Option Position
  | .opened (.ok p) => some p
  | _ => none

/-- The position that a reply tells closed. -/
def closed? : LedgerReply → Option ClosedPosition
  | .closed (.ok position) => some position
  | _ => none

/-- The numbers handed out, in the order in which the positions opened. -/
def openedIds (replies : List LedgerReply) : List PositionId :=
  (replies.filterMap opened?).map Position.id

/-- The closed positions in the order in which they closed. -/
def closings (replies : List LedgerReply) : List ClosedPosition := replies.filterMap closed?

/-- The numbers of the closed positions. -/
def closedIds (replies : List LedgerReply) : List PositionId :=
  (closings replies).map (·.record.id)

theorem openedIds_append (xs ys : List LedgerReply) :
    openedIds (xs ++ ys) = openedIds xs ++ openedIds ys := by
  simp [openedIds]

theorem closings_append (xs ys : List LedgerReply) :
    closings (xs ++ ys) = closings xs ++ closings ys := by
  simp [closings]

end LedgerReply

open LedgerReply (openedIds closings closedIds openedIds_append closings_append)
open scoped List

namespace Ledger

/-! ## Calls -/

/-- What a close on a book is to its ledger; a failed one changes nothing. -/
def settled (l : Ledger) (result : Except LedgerError (ClosedPosition × Book)) :
    LedgerReply × Ledger :=
  match result with
  | .ok (closed, next) => (.closed (.ok closed), next.ledger)
  | .error e => (.closed (.error e), l)

/-- Answers a call. -/
def call (l : Ledger) : LedgerCall → LedgerReply × Ledger
  | .openFor s ladder gate a q =>
    match l.openFor s ladder gate a q with
    | .ok (p, next) => (.opened (.ok p), next)
    | .error e => (.opened (.error e), l)
  | .update c => (.completed (l.update c).1, (l.update c).2)
  | .close id price closedAt ladder gate =>
    l.settled ((Book.mk ladder gate l).close id price closedAt)
  | .closeCompleted id closedAt ladder gate =>
    l.settled ((Book.mk ladder gate l).closeCompleted id closedAt)

/-- Answers calls in turn. -/
def run (l : Ledger) : List LedgerCall → List LedgerReply × Ledger
  | [] => ([], l)
  | c :: cs =>
    let answered := l.call c
    let others := answered.2.run cs
    (answered.1 :: others.1, others.2)

/-- The numbers of the open positions. -/
def openIds (l : Ledger) : List PositionId := l.openPositions.map Position.id

section Numbers

variable {l : Ledger} {id : PositionId}

theorem find?_eq_none_iff : l.find? id = none ↔ id ∉ l.openIds := by
  simp [find?, openIds]

theorem id_of_find? {p : Position} (found : l.find? id = some p) : p.id = id := by
  simpa using List.find?_some found

theorem mem_openIds_of_find? {p : Position} (found : l.find? id = some p) : id ∈ l.openIds := by
  rw [← id_of_find? found]
  exact List.mem_map_of_mem (List.mem_of_find?_eq_some found)

theorem openIds_insert (l : Ledger) (p : Position) :
    (l.insert p).openIds = l.openIds ++ [p.id] := by
  simp [openIds, insert]

theorem openIds_evaluate (l : Ledger) (c : Candle) : (l.evaluate c).openIds = l.openIds := by
  simp [openIds, evaluate]

/-- Where numbers are not used twice, archiving a position removes its number once. -/
theorem openIds_archived (distinct : l.openIds.Nodup) (id : PositionId) (closed : ClosedPosition) :
    (l.archived id closed).openIds = l.openIds.erase id := by
  have same : (l.archived id closed).openIds = l.openIds.filter (· ≠ id) := by
    unfold openIds archived
    rw [List.filter_map]
    rfl
  rw [same, distinct.erase_eq_filter]
  refine List.filter_congr fun n _ => ?_
  by_cases h : n = id <;> simp [h]

end Numbers

theorem closeCompleted_eq_error {b : Book} {id : PositionId} (h : b.ledger.find? id = none)
    (closedAt : Timestamp) : b.closeCompleted id closedAt = .error (.unknownPosition id) := by
  rw [Book.closeCompleted, h]

/-- A position that is closed was open and is archived under its number. -/
theorem settled_of_close {l : Ledger} {ladder : Ladder} {gate : RiskGate} {id : PositionId}
    {price : Float} {closedAt : Timestamp} {r : ClosedPosition × Book}
    (done : (Book.mk ladder gate l).close id price closedAt = .ok r) :
    l.settled (.ok r) = (.closed (.ok r.1), l.archived r.1.record.id r.1) ∧
      r.1.record.id ∈ l.openIds := by
  obtain ⟨closed, next⟩ := r
  obtain ⟨p, found, recorded, rfl⟩ := Book.close_eq_ok_iff.mp done
  have numbered : closed.record.id = id := by
    have same : closed.record.id = p.id := by rw [recorded]; rfl
    rw [same, id_of_find? found]
  rw [numbered]
  exact ⟨rfl, mem_openIds_of_find? found⟩

/-- What a call can do: leave the positions as they are but for the marks of a candle, open a
position under the next number if there is room for it, or archive an open one. -/
theorem call_cases (l : Ledger) (c : LedgerCall) :
    ((l.call c).1.opened? = none ∧ (l.call c).1.closed? = none ∧
      ((l.call c).2 = l ∨ ∃ candle, (l.call c).2 = l.evaluate candle)) ∨
    (∃ p, l.call c = (.opened (.ok p), l.insert p) ∧ p.id = l.issued + 1 ∧
      l.openCount < l.policy.limit) ∨
    ∃ closed, l.call c = (.closed (.ok closed), l.archived closed.record.id closed) ∧
      closed.record.id ∈ l.openIds := by
  cases c with
  | openFor s ladder gate a q =>
    rw [call]
    cases opened : l.openFor s ladder gate a q with
    | error e => exact .inl ⟨rfl, rfl, .inl rfl⟩
    | ok r =>
      obtain ⟨p, next⟩ := r
      obtain ⟨direction, -, -, room, -, numbered, rfl⟩ := openFor_eq_ok.mp opened
      exact .inr (.inl ⟨p, rfl, congrArg Position.id numbered, room⟩)
  | update candle => exact .inl ⟨rfl, rfl, .inr ⟨candle, rfl⟩⟩
  | close id price closedAt ladder gate =>
    rw [call]
    cases done : (Book.mk ladder gate l).close id price closedAt with
    | error e => exact .inl ⟨rfl, rfl, .inl rfl⟩
    | ok r => exact .inr (.inr ⟨r.1, settled_of_close done⟩)
  | closeCompleted id closedAt ladder gate =>
    rw [call]
    cases done : (Book.mk ladder gate l).closeCompleted id closedAt with
    | error e => exact .inl ⟨rfl, rfl, .inl rfl⟩
    | ok r =>
      obtain ⟨-, price, -, -, done⟩ := Book.closeCompleted_eq_ok_iff.mp done
      exact .inr (.inr ⟨r.1, settled_of_close done⟩)

/-! ## What every call keeps -/

/-- A ledger accounts for the replies that it has given. -/
structure Accounts (policy : PositionSettings) (l : Ledger) (replies : List LedgerReply) :
    Prop where
  policy_eq : l.policy = policy
  opened : openedIds replies = List.range' 1 l.issued
  split : (l.openIds ++ closedIds replies).Perm (openedIds replies)
  room : l.openCount ≤ policy.limit
  capacity : l.archive.capacity = archiveCapacity
  archive : l.archive.Holds (closings replies)

theorem accounts_new (policy : PositionSettings) : (Ledger.new policy).Accounts policy [] where
  policy_eq := rfl
  opened := rfl
  split := .nil
  room := Nat.zero_le _
  capacity := rfl
  archive := Recent.holds_empty archiveCapacity

namespace Accounts

variable {policy : PositionSettings} {l : Ledger} {replies : List LedgerReply}

theorem nodup_opened (h : l.Accounts policy replies) : (openedIds replies).Nodup := by
  rw [h.opened]
  exact List.nodup_range'

theorem nodup (h : l.Accounts policy replies) : (l.openIds ++ closedIds replies).Nodup :=
  h.split.nodup_iff.mpr h.nodup_opened

theorem idle (h : l.Accounts policy replies) {reply : LedgerReply} (opened : reply.opened? = none)
    (closed : reply.closed? = none) : l.Accounts policy (replies ++ [reply]) := by
  have opens : openedIds (replies ++ [reply]) = openedIds replies := by
    simp [openedIds, opened]
  have closes : closings (replies ++ [reply]) = closings replies := by
    simp [closings, closed]
  obtain ⟨policy_eq, numbers, split, room, capacity, archive⟩ := h
  refine ⟨policy_eq, ?_, ?_, room, capacity, ?_⟩
  · rw [opens, numbers]
  · rwa [closedIds, closes, opens]
  · rwa [closes]

theorem evaluate (h : l.Accounts policy replies) (c : Candle) :
    (l.evaluate c).Accounts policy replies where
  policy_eq := h.policy_eq
  opened := h.opened
  split := by
    rw [openIds_evaluate]
    exact h.split
  room := by
    have same : (l.evaluate c).openCount = l.openCount := List.length_map _
    exact same ▸ h.room
  capacity := h.capacity
  archive := h.archive

theorem insert (h : l.Accounts policy replies) {p : Position} (numbered : p.id = l.issued + 1)
    (room : l.openCount < l.policy.limit) :
    (l.insert p).Accounts policy (replies ++ [.opened (.ok p)]) := by
  have opens : openedIds (replies ++ [.opened (.ok p)]) = openedIds replies ++ [p.id] := by
    rw [openedIds_append]
    rfl
  have closes : closings (replies ++ [.opened (.ok p)]) = closings replies := by
    rw [closings_append]
    exact List.append_nil _
  constructor
  case policy_eq => exact h.policy_eq
  case opened =>
    show _ = List.range' 1 (l.issued + 1)
    rw [opens, h.opened, numbered, List.range'_concat, Nat.one_mul, Nat.add_comm 1]
  case split =>
    rw [openIds_insert, closedIds, closes, opens]
    calc l.openIds ++ [p.id] ++ closedIds replies
        = l.openIds ++ ([p.id] ++ closedIds replies) := List.append_assoc _ _ _
      _ ~ l.openIds ++ (closedIds replies ++ [p.id]) := List.perm_append_comm.append_left _
      _ = l.openIds ++ closedIds replies ++ [p.id] := (List.append_assoc _ _ _).symm
      _ ~ openedIds replies ++ [p.id] := h.split.append_right _
  case room =>
    have count : (l.insert p).openCount = l.openCount + 1 := by simp [openCount, Ledger.insert]
    rw [count, ← h.policy_eq]
    exact room
  case capacity => exact h.capacity
  case archive =>
    rw [closes]
    exact h.archive

theorem archived (h : l.Accounts policy replies) {closed : ClosedPosition}
    (wasOpen : closed.record.id ∈ l.openIds) :
    (l.archived closed.record.id closed).Accounts policy
      (replies ++ [.closed (.ok closed)]) := by
  have opens : openedIds (replies ++ [.closed (.ok closed)]) = openedIds replies := by
    rw [openedIds_append]
    exact List.append_nil _
  have closes : closings (replies ++ [.closed (.ok closed)]) = closings replies ++ [closed] := by
    rw [closings_append]
    rfl
  constructor
  case policy_eq => exact h.policy_eq
  case opened =>
    rw [opens]
    exact h.opened
  case split =>
    have distinct : l.openIds.Nodup := h.nodup.of_append_left
    rw [openIds_archived distinct, closedIds, closes, opens, List.map_append]
    -- the number moves from the open ones to the closed ones
    calc l.openIds.erase closed.record.id ++ (closedIds replies ++ [closed.record.id])
        ~ closed.record.id :: (l.openIds.erase closed.record.id ++ closedIds replies) := by
          rw [← List.append_assoc]
          exact List.perm_append_singleton _ _
      _ = closed.record.id :: l.openIds.erase closed.record.id ++ closedIds replies := rfl
      _ ~ l.openIds ++ closedIds replies := (List.perm_cons_erase wasOpen).symm.append_right _
      _ ~ openedIds replies := h.split
  case room =>
    have fewer : (l.archived closed.record.id closed).openCount ≤ l.openCount :=
      List.length_filter_le _ _
    exact Nat.le_trans fewer h.room
  case capacity => exact h.capacity
  case archive =>
    rw [closes]
    refine h.archive.push ?_ closed
    rw [h.capacity]
    decide

theorem call (h : l.Accounts policy replies) (c : LedgerCall) :
    (l.call c).2.Accounts policy (replies ++ [(l.call c).1]) := by
  rcases l.call_cases c with ⟨opened, closed, same⟩ | ⟨p, done, numbered, room⟩ | ⟨x, done, wasOpen⟩
  · rcases same with same | ⟨candle, same⟩
    · rw [same]
      exact h.idle opened closed
    · rw [same]
      exact (h.evaluate candle).idle opened closed
  · rw [done]
    exact h.insert numbered room
  · rw [done]
    exact h.archived wasOpen

theorem run (h : l.Accounts policy replies) (calls : List LedgerCall) :
    (l.run calls).2.Accounts policy (replies ++ (l.run calls).1) := by
  induction calls generalizing l replies with
  | nil =>
    rw [Ledger.run, List.append_nil]
    exact h
  | cons c cs ih =>
    have called := ih (h.call c)
    rwa [List.append_assoc] at called

/-- A number that was handed out is that of one open position or that of one closed one. -/
theorem count_openIds_add (h : l.Accounts policy replies) {id : PositionId}
    (handed : id ∈ openedIds replies) :
    l.openIds.count id + (closedIds replies).count id = 1 := by
  rw [← List.count_append, h.split.count_eq]
  exact List.count_eq_one_of_mem h.nodup_opened handed

theorem mem_openIds_iff (h : l.Accounts policy replies) {id : PositionId} :
    id ∈ l.openIds ↔ id ∈ openedIds replies ∧ id ∉ closedIds replies := by
  rw [← h.split.mem_iff, List.mem_append]
  constructor
  · exact fun isOpen => ⟨.inl isOpen, fun closed =>
      (List.nodup_append.mp h.nodup).2.2 id isOpen id closed rfl⟩
  · exact fun ⟨known, notClosed⟩ => known.resolve_right notClosed

end Accounts

/-! ## The lifecycle -/

/-- What the replies of a ledger and the ledger have to do with each other. -/
structure Lifecycle (policy : PositionSettings) (l : Ledger) (replies : List LedgerReply) :
    Prop where
  /-- Positions are numbered from one in the order in which they open. -/
  numbered : openedIds replies = List.range' 1 (openedIds replies).length
  /-- Each of them is open under its number or was closed once, and not both. -/
  once : ∀ id ∈ openedIds replies,
    ((∃ p, l.find? id = some p ∧ p.id = id) ∧ (closedIds replies).count id = 0) ∨
      (l.find? id = none ∧ (closedIds replies).count id = 1)
  /-- No other number is that of an open or of a closed position. -/
  known : ∀ id, id ∉ openedIds replies → l.find? id = none ∧ id ∉ closedIds replies
  /-- What is not open, before it opened or after it was closed, can not be closed. -/
  unknown : ∀ id, id ∉ openedIds replies ∨ id ∈ closedIds replies →
    ∀ price closedAt ladder gate,
      (l.call (.close id price closedAt ladder gate)).1 =
          .closed (.error (.unknownPosition id)) ∧
        (l.call (.closeCompleted id closedAt ladder gate)).1 =
          .closed (.error (.unknownPosition id))
  room : l.openCount ≤ policy.limit
  archive : l.archive.items = lastItems 100 (closings replies)
  size_archive : l.archive.size = min 100 (closings replies).length

/-- **No position is lost, duplicated or numbered again.** Whatever a ledger was asked, its
replies and its positions follow the lifecycle. -/
theorem lifecycle_run (policy : PositionSettings) (calls : List LedgerCall) :
    ((Ledger.new policy).run calls).2.Lifecycle policy ((Ledger.new policy).run calls).1 := by
  have h := (accounts_new policy).run calls
  rw [List.nil_append] at h
  generalize ((Ledger.new policy).run calls).1 = replies at h ⊢
  generalize ((Ledger.new policy).run calls).2 = l at h ⊢
  have kept : l.archive.items = lastItems 100 (closings replies) := by
    rw [h.archive, h.capacity, archiveCapacity]
  constructor
  case numbered => simp [h.opened]
  case once =>
    intro id handed
    have total := h.count_openIds_add handed
    cases found : l.find? id with
    | none =>
      have absent := List.count_eq_zero.mpr (find?_eq_none_iff.mp found)
      exact .inr ⟨rfl, by omega⟩
    | some p =>
      have present := List.count_pos_iff.mpr (mem_openIds_of_find? found)
      exact .inl ⟨⟨p, rfl, id_of_find? found⟩, by omega⟩
  case known =>
    intro id fresh
    rw [find?_eq_none_iff, h.mem_openIds_iff]
    refine ⟨fun isOpen => fresh isOpen.1, fun closed => fresh ?_⟩
    exact h.split.mem_iff.mp (List.mem_append_right _ closed)
  case unknown =>
    intro id notOpen price closedAt ladder gate
    have missing : l.find? id = none := by
      rw [find?_eq_none_iff, h.mem_openIds_iff]
      tauto
    rw [call, call, Book.close_eq_error missing, closeCompleted_eq_error missing]
    exact ⟨rfl, rfl⟩
  case room => exact h.room
  case archive => exact kept
  case size_archive => rw [Recent.size, kept, length_lastItems]

end Ledger

end TrendLadder
