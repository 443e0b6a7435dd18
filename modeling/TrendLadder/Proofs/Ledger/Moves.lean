import Mathlib.Logic.Relation
import TrendLadder.Proofs.Ledger.Closing
import TrendLadder.Proofs.Settings.Valid

/-!
# The moves of a book

Everything that happens to a book is a sequence of a few moves (`Book.Move`), so that what each
move keeps is kept by a whole run (`Book.Moves.induct`). The ledger stays orderly in that way, and
the book stays under its settings (`Book.Under`).
-/

namespace TrendLadder

namespace Book

/-- One change of the ladder, of the gate or of the positions. -/
inductive Move (b : Book) : Book → Prop
  | pause : Move b { b with ladder := b.ladder.pause }
  | resume : Move b { b with ladder := b.ladder.resume }
  | skip {level : Nat} {ladder : Ladder} (skipped : b.ladder.skipTo level = .ok ladder) :
      Move b { b with ladder := ladder }
  | startDay (balance : Float) : Move b { b with gate := b.gate.startDay balance }
  | update (a : Account) : Move b { b with gate := b.gate.update a }
  | close {id : PositionId} {price : Float} {closedAt : Timestamp} {closed : ClosedPosition}
      {next : Book} (done : b.close id price closedAt = .ok (closed, next)) : Move b next
  | insert {s : Signal} {a : Account} {q : Quote} {p : Position} {ledger : Ledger}
      (opened : b.ledger.openFor s b.ladder b.gate a q = .ok (p, ledger)) :
      Move b { b with ledger := ledger }

/-- Any number of changes. -/
def Moves : Book → Book → Prop := Relation.ReflTransGen Move

theorem Moves.refl (b : Book) : b.Moves b := Relation.ReflTransGen.refl

theorem Moves.of_move {b next : Book} (m : b.Move next) : b.Moves next :=
  Relation.ReflTransGen.single m

theorem Moves.trans {b c d : Book} (h : b.Moves c) (h2 : c.Moves d) : b.Moves d :=
  Relation.ReflTransGen.trans h h2

theorem Moves.induct {P : Book → Prop} (step : ∀ {b next : Book}, b.Move next → P b → P next)
    {b next : Book} (h : b.Moves next) (hb : P b) : P next := by
  induction h with
  | refl => exact hb
  | tail _ m ih => exact step m ih

theorem moves_closeEach (b : Book) (closedAt : Timestamp) (exits : List (PositionId × Float)) :
    b.Moves (b.closeEach closedAt exits).2 :=
  closeEach_induct (P := b.Moves) (fun done h => h.trans (.of_move (.close done))) exits (.refl b)

end Book

namespace Ledger

variable {l next : Ledger} {s : Signal} {direction : Direction} {ladder : Ladder} {gate : RiskGate}
  {a : Account} {q : Quote} {p : Position}

theorem openFor_of_breaches (asked : s.direction? = some direction)
    (bs : gate.breaches a q ladder.paused ≠ []) :
    l.openFor s ladder gate a q = .error (.risk ⟨gate.breaches a q ladder.paused⟩) := by
  have refused : gate.authorize a q ladder.paused = .error ⟨gate.breaches a q ladder.paused⟩ :=
    RiskGate.authorize_eq_error.mpr ⟨bs, rfl⟩
  rw [openFor, asked, refused]

theorem openFor_of_no_breach (asked : s.direction? = some direction)
    (pass : gate.breaches a q ladder.paused = []) :
    l.openFor s ladder gate a q =
      if l.policy.limit ≤ l.openCount then .error (.positionLimit l.openCount l.policy.limit)
      else if ladder.lotSize ≤ 0.0 then .error .zeroLots
      else .ok (l.nextPosition s direction ladder,
        l.insert (l.nextPosition s direction ladder)) := by
  rw [openFor, asked, RiskGate.authorize_eq_ok.mpr pass]

theorem openFor_eq_ok :
    l.openFor s ladder gate a q = .ok (p, next) ↔ ∃ direction, s.direction? = some direction ∧
      gate.breaches a q ladder.paused = [] ∧ l.openCount < l.policy.limit ∧
      ¬ladder.lotSize ≤ 0.0 ∧ p = l.nextPosition s direction ladder ∧ next = l.insert p := by
  constructor
  · intro h
    cases asked : s.direction? with
    | none =>
      rw [openFor, asked] at h
      cases h
    | some direction =>
      by_cases pass : gate.breaches a q ladder.paused = []
      · rw [openFor_of_no_breach asked pass] at h
        split at h
        · cases h
        · next room =>
          split at h
          · cases h
          · next lots =>
            cases h
            exact ⟨direction, rfl, pass, Nat.lt_of_not_le room, lots, rfl, rfl⟩
      · rw [openFor_of_breaches asked pass] at h
        cases h
  · rintro ⟨direction, asked, pass, room, lots, rfl, rfl⟩
    rw [openFor_of_no_breach asked pass, if_neg (Nat.not_le_of_lt room), if_neg lots]

theorem breaches_of_openFor {v : RiskViolation}
    (refused : l.openFor s ladder gate a q = .error (.risk v)) :
    v.breaches = gate.breaches a q ladder.paused := by
  cases asked : s.direction? with
  | none =>
    rw [openFor, asked] at refused
    cases refused
  | some direction =>
    by_cases pass : gate.breaches a q ladder.paused = []
    · rw [openFor_of_no_breach asked pass] at refused
      split at refused
      · cases refused
      · split at refused <;> cases refused
    · rw [openFor_of_breaches asked pass] at refused
      cases refused
      rfl

end Ledger

namespace Book

theorem Move.orderly {b next : Book} (m : b.Move next) (h : b.ledger.Orderly) :
    next.ledger.Orderly := by
  cases m with
  | pause | resume | skip | startDay | update => exact h
  | close done => exact orderly_close done h
  | insert opened =>
    obtain ⟨direction, -, -, -, -, rfl, rfl⟩ := Ledger.openFor_eq_ok.mp opened
    exact h.insert rfl ⟨rfl, rfl⟩

theorem Moves.orderly {b next : Book} (h : b.Moves next) : b.ledger.Orderly → next.ledger.Orderly :=
  h.induct Move.orderly

/-- The limits, the policy and the lots of a book are those of its settings. -/
structure Under (s : Settings) (b : Book) : Prop where
  limits : b.gate.limits = s.risk
  policy : b.ledger.policy = s.positions
  lots : b.ladder.lots = s.ladder.lots

theorem Move.under {s : Settings} {b next : Book} (m : b.Move next) (h : b.Under s) :
    next.Under s := by
  obtain ⟨limits, policy, lots⟩ := h
  cases m with
  | pause | resume => exact ⟨limits, policy, lots⟩
  | skip skipped =>
    obtain ⟨-, -, rfl⟩ := Ladder.skipTo_eq_ok.mp skipped
    exact ⟨limits, policy, lots⟩
  | startDay balance =>
    refine ⟨?_, policy, lots⟩
    unfold RiskGate.startDay
    split <;> exact limits
  | update a =>
    refine ⟨?_, policy, lots⟩
    unfold RiskGate.update RiskGate.setBaseline
    split
    · split <;> exact limits
    · exact limits
  | close done =>
    obtain ⟨p, -, -, rfl⟩ := close_eq_ok_iff.mp done
    exact ⟨limits, policy, (Ladder.lots_applyOutcome _ _).trans lots⟩
  | insert opened =>
    obtain ⟨direction, -, -, -, -, -, rfl⟩ := Ledger.openFor_eq_ok.mp opened
    exact ⟨limits, policy, lots⟩

theorem Moves.under {s : Settings} {b next : Book} (h : b.Moves next) : b.Under s → next.Under s :=
  h.induct Move.under

theorem Under.size_eq {s : Settings} {b : Book} (h : b.Under s) : b.ladder.size = s.ladder.size :=
  congrArg List.length h.lots

/-- A ladder of valid settings that is not paused has lots at every level. -/
theorem Under.lotSize_pos {s : Settings} {b : Book} (h : b.Under s) (valid : s.faults = [])
    (running : b.ladder.paused = false) : 0.0 < b.ladder.lotSize := by
  obtain ⟨nonempty, -, -, positive, -⟩ :=
    LadderSettings.faults_eq_nil.mp (Settings.sections_of_faults valid).2.2
  have inside : b.ladder.clamp b.ladder.level < b.ladder.lots.length := by
    have : 0 < b.ladder.lots.length := h.lots ▸ nonempty
    unfold Ladder.clamp Ladder.size
    omega
  have entry : b.ladder.lotSize = b.ladder.lots[b.ladder.clamp b.ladder.level] := by
    rw [Ladder.lotSize, Ladder.lotsAt, if_neg (by rw [running]; exact Bool.false_ne_true),
      List.getElem?_eq_getElem inside, Option.getD_some]
  rw [entry]
  refine lt_of_isPositive (positive _ ?_)
  rw [← h.lots]
  exact List.getElem_mem inside

end Book

end TrendLadder
