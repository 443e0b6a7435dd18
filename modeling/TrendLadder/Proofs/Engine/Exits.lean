import Mathlib.Data.List.Forall2
import TrendLadder.Proofs.Engine.Entry

/-!
# Exits

Which positions a tick closes, and at which price. A candle touches a position if it reaches the
stop or the target (`Position.IsTouched`); `exits_tick` says that at every reached state no open
position has an exit, and that a tick closes exactly the open positions that its candle touches, in
the order of their numbers and each at the level touched. The close of a completed position, which
may fail on a book, is never refused there (`Book.ClosesAll`).
-/

namespace TrendLadder

/-! ## What a candle touches -/

namespace Position

variable {p : Position} {c : Candle}

def ReachesStop (p : Position) (c : Candle) : Prop :=
  match p.direction with
  | .buy => c.low ≤ p.stopLoss
  | .sell => p.stopLoss ≤ c.high

def ReachesTarget (p : Position) (c : Candle) : Prop :=
  match p.direction with
  | .buy => p.takeProfit ≤ c.high
  | .sell => c.low ≤ p.takeProfit

instance : Decidable (p.ReachesStop c) := by
  unfold ReachesStop
  cases p.direction <;> infer_instance

instance : Decidable (p.ReachesTarget c) := by
  unfold ReachesTarget
  cases p.direction <;> infer_instance

/-- The candle reaches a level of the position. -/
def IsTouched (p : Position) (c : Candle) : Prop := p.ReachesStop c ∨ p.ReachesTarget c

instance : Decidable (p.IsTouched c) := inferInstanceAs (Decidable (_ ∨ _))

/-- The level that a candle touches, the stop if it reaches both. -/
def touchedLevel (p : Position) (c : Candle) : Float :=
  if p.ReachesStop c then p.stopLoss else p.takeProfit

theorem exitOn_of_stop (stop : p.ReachesStop c) : p.exitOn c = some p.stopLoss := by
  unfold ReachesStop at stop
  unfold exitOn
  cases asked : p.direction <;> rw [asked] at stop <;> exact if_pos stop

theorem exitOn_of_target (stop : ¬p.ReachesStop c) (target : p.ReachesTarget c) :
    p.exitOn c = some p.takeProfit := by
  unfold ReachesStop at stop
  unfold ReachesTarget at target
  unfold exitOn
  cases asked : p.direction <;> rw [asked] at stop target <;>
    exact (if_neg stop).trans (if_pos target)

theorem exitOn_of_touched (touched : p.IsTouched c) : p.exitOn c = some (p.touchedLevel c) := by
  unfold touchedLevel
  split
  · next stop => exact exitOn_of_stop stop
  · next stop => exact exitOn_of_target stop (touched.resolve_left stop)

theorem exitOn_of_untouched (untouched : ¬p.IsTouched c) : p.exitOn c = none := by
  obtain ⟨stop, target⟩ := not_or.mp untouched
  unfold ReachesStop at stop
  unfold ReachesTarget at target
  unfold exitOn
  cases asked : p.direction <;> rw [asked] at stop target <;>
    exact (if_neg stop).trans (if_neg target)

end Position

/-- A closed position is what a candle makes of an open one that it touches. -/
structure ClosedPosition.IsExit (closed : ClosedPosition) (c : Candle) (p : Position) : Prop where
  exitPrice : closed.exitPrice = p.touchedLevel c
  profit : closed.profit = (closed.exitPrice - p.openPrice) * p.direction.sign * p.lots
  win : closed.outcome = .win ↔ 0.0 < closed.profit
  loss : closed.outcome = .loss ↔ closed.profit < 0.0
  /-- Only the marks of the exit are new in the record. -/
  record : closed.record = { p with
    isComplete := true
    isProfit := 0.0 < closed.profit
    exitPrice := some closed.exitPrice }
  closedAt : closed.closedAt = c.timestamp

theorem TradeOutcome.ofProfit_eq_win {profit : Float} :
    ofProfit profit = .win ↔ 0.0 < profit := by
  unfold ofProfit
  split
  · next gain => exact iff_of_true rfl gain
  · next gain =>
    refine iff_of_false ?_ gain
    split <;> exact nofun

theorem TradeOutcome.ofProfit_eq_loss {profit : Float} :
    ofProfit profit = .loss ↔ profit < 0.0 := by
  unfold ofProfit
  split
  · next gain => exact iff_of_false nofun (float_lt_asymm gain)
  · split
    · next loss => exact iff_of_true rfl loss
    · next loss => exact iff_of_false nofun loss

namespace Book

variable {b : Book} {c : Candle}

theorem isExit_finish (b : Book) (c : Candle) (p : Position) :
    (b.finish p (p.touchedLevel c) c.timestamp).IsExit c p where
  exitPrice := rfl
  profit := rfl
  win := TradeOutcome.ofProfit_eq_win
  loss := TradeOutcome.ofProfit_eq_loss
  record := rfl
  closedAt := rfl

/-- Closing completed positions in turn is refused for none of them. -/
def ClosesAll (b : Book) (closedAt : Timestamp) : List PositionId → Prop
  | [] => True
  | id :: ids => ∃ closed next, b.closeCompleted id closedAt = .ok (closed, next) ∧
      next.ClosesAll closedAt ids

/-- No close is refused when the book takes a candle. -/
def TakesAll (b : Book) (c : Candle) : Prop :=
  ClosesAll { b with ledger := (b.ledger.update c).2 } c.timestamp (b.ledger.update c).1

/-! ## Closing what is touched -/

theorem mem_openPositions_settle {p q : Position} (hq : q ∈ b.ledger.openPositions)
    (other : q.id ≠ p.id) (closed : ClosedPosition) :
    q ∈ (b.settle p.id closed).ledger.openPositions :=
  List.mem_filter.mpr ⟨hq, decide_eq_true other⟩

theorem closesAll_marked (closedAt : Timestamp) (ps : List Position) :
    ∀ {b : Book}, b.ledger.Orderly → ps.Pairwise (·.id < ·.id) →
      (∀ p ∈ ps, p ∈ b.ledger.openPositions ∧ p.IsTouched c) →
      (b.marked c).ClosesAll closedAt (ps.map Position.id) := by
  induction ps with
  | nil => exact fun _ _ _ => trivial
  | cons p ps ih =>
    intro b orderly ascending touched
    obtain ⟨lt, rest⟩ := List.pairwise_cons.mp ascending
    obtain ⟨hp, hx⟩ := touched p List.mem_cons_self
    refine ⟨_, _, closeCompleted_marked orderly hp (Position.exitOn_of_touched hx) closedAt,
      ih (orderly_settle orderly p.id _) rest fun q hq => ?_⟩
    obtain ⟨hq2, hx2⟩ := touched q (List.mem_cons_of_mem p hq)
    exact ⟨mem_openPositions_settle hq2 (Nat.ne_of_gt (lt q hq)) _, hx2⟩

theorem completedBy_eq (h : b.ledger.Orderly) (c : Candle) :
    b.ledger.completedBy c =
      (b.ledger.openPositions.filter (·.IsTouched c)).map Position.id := by
  unfold Ledger.completedBy
  congr 1
  refine List.filter_congr fun p hp => ?_
  rw [(h.live p hp).completesOn_eq]
  by_cases touched : p.IsTouched c
  · rw [Position.exitOn_of_touched touched, decide_eq_true touched]
    rfl
  · rw [Position.exitOn_of_untouched touched, decide_eq_false touched]
    rfl

theorem takesAll (h : b.ledger.Orderly) (c : Candle) : b.TakesAll c := by
  show (b.marked c).ClosesAll c.timestamp (b.ledger.completedBy c)
  rw [completedBy_eq h]
  refine closesAll_marked c.timestamp _ h (h.ascending.sublist List.filter_sublist) fun p hp => ?_
  obtain ⟨hp, touched⟩ := List.mem_filter.mp hp
  exact ⟨hp, of_decide_eq_true touched⟩

/-- The exits of open positions close the touched ones among them, in their order. -/
theorem isExit_closeEach (ps : List Position) :
    ∀ {b : Book}, b.ledger.Orderly → ps.Pairwise (·.id < ·.id) →
      (∀ p ∈ ps, p ∈ b.ledger.openPositions) →
      List.Forall₂ (fun p closed => closed.IsExit c p) (ps.filter (·.IsTouched c))
        (b.closeEach c.timestamp (ps.filterMap (·.numberedExit c))).1 := by
  induction ps with
  | nil => exact fun _ _ _ => .nil
  | cons p ps ih =>
    intro b orderly ascending isOpen
    obtain ⟨lt, rest⟩ := List.pairwise_cons.mp ascending
    by_cases touched : p.IsTouched c
    · have kept : (p :: ps).filter (·.IsTouched c) = p :: ps.filter (·.IsTouched c) :=
        List.filter_cons_of_pos (decide_eq_true touched)
      have exits : (p :: ps).filterMap (·.numberedExit c) =
          (p.id, p.touchedLevel c) :: ps.filterMap (·.numberedExit c) :=
        List.filterMap_cons_some
          (Position.numberedExit_of_some (Position.exitOn_of_touched touched))
      rw [kept, exits, closeEach, close_eq_ok (orderly.find?_eq (isOpen p List.mem_cons_self))]
      refine .cons (b.isExit_finish c p) (ih (orderly_settle orderly p.id _) rest fun q hq => ?_)
      exact mem_openPositions_settle (isOpen q (List.mem_cons_of_mem p hq))
        (Nat.ne_of_gt (lt q hq)) _
    · have dropped : (p :: ps).filter (·.IsTouched c) = ps.filter (·.IsTouched c) :=
        List.filter_cons_of_neg (mt of_decide_eq_true touched)
      have exits : (p :: ps).filterMap (·.numberedExit c) = ps.filterMap (·.numberedExit c) := by
        refine List.filterMap_cons_none ?_
        rw [Position.numberedExit, Position.exitOn_of_untouched touched, Option.map_none]
      rw [dropped, exits]
      exact ih orderly rest fun q hq => isOpen q (List.mem_cons_of_mem p hq)

theorem isExit_take (h : b.ledger.Orderly) (c : Candle) :
    List.Forall₂ (fun p closed => closed.IsExit c p)
      (b.ledger.openPositions.filter (·.IsTouched c)) (b.take c).1 := by
  rw [take_eq_closeEach h]
  exact isExit_closeEach _ h h.ascending fun _ hp => hp

theorem openPositions_take (h : b.ledger.Orderly) (c : Candle) :
    (b.take c).2.ledger.openPositions =
      b.ledger.openPositions.filter fun p => ¬p.IsTouched c := by
  rw [take_eq_closeEach h, openPositions_closeEach]
  refine List.filter_congr fun p hp => decide_eq_decide.mpr ?_
  refine not_congr ⟨fun exits => ?_, fun touched => ?_⟩
  · -- Another position would exit under the same number, which open positions do not share.
    obtain ⟨⟨id, price⟩, exit, rfl⟩ := List.mem_map.mp exits
    obtain ⟨q, hq, numbered⟩ := List.mem_filterMap.mp exit
    by_contra untouched
    have numbers : q.id = p.id := by
      obtain ⟨level, -, same⟩ := Option.map_eq_some_iff.mp numbered
      exact congrArg Prod.fst same
    have same : q = p := by
      have found := h.find?_eq hq
      rw [numbers, h.find?_eq hp] at found
      exact (Option.some.inj found).symm
    rw [same, Position.numberedExit, Position.exitOn_of_untouched untouched] at numbered
    cases numbered
  · exact List.mem_map.mpr ⟨(p.id, p.touchedLevel c), List.mem_filterMap.mpr
      ⟨p, hp, Position.numberedExit_of_some (Position.exitOn_of_touched touched)⟩, rfl⟩

end Book

/-! ## The report of a tick -/

theorem exists_of_mem_forall₂ {α β : Type} {R : α → β → Prop} {xs : List α} {ys : List β}
    (h : List.Forall₂ R xs ys) {y : β} (hy : y ∈ ys) : ∃ x ∈ xs, R x y := by
  induction h with
  | nil => cases hy
  | cons related _ ih =>
    rcases List.mem_cons.mp hy with rfl | hy
    · exact ⟨_, List.mem_cons_self, related⟩
    · obtain ⟨x, hx, related⟩ := ih hy
      exact ⟨x, List.mem_cons_of_mem _ hx, related⟩

/-- The position that an event tells closed. -/
def PositionEvent.closed? : PositionEvent → Option ClosedPosition
  | .opened _ => none
  | .closed position => some position

/-- The positions that a report tells closed. -/
def TickReport.closings (r : TickReport) : List ClosedPosition :=
  r.events.filterMap PositionEvent.closed?

/-- A report tells the exits of the positions open before a candle, and those after it are the
others and what was opened. -/
structure TickReport.Exits (r : TickReport) (c : Candle) (before after : List Position) :
    Prop where
  /-- So none of them is closed twice. -/
  ascending : before.Pairwise (·.id < ·.id)
  closed : List.Forall₂ (fun p closed => closed.IsExit c p) (before.filter (·.IsTouched c))
    r.closings
  kept : after = (before.filter fun p => ¬p.IsTouched c) ++ r.openings

namespace Engine

variable {s : Settings} {e : Engine}

theorem ledger_obey (e : Engine) (cs : List Command) :
    (e.obey cs).2.book.ledger = e.book.ledger := by
  refine obey_induct (P := fun x => x.book.ledger = e.book.ledger) (fun {x} c same => ?_) rfl cs
  obtain ⟨ladder, pattern, ignores, after⟩ := x.after_eq c
  rw [after]
  exact same

theorem closings_evaluate (e : Engine) (t : Tick) :
    (e.evaluate t).1.events.filterMap PositionEvent.closed? =
      ((e.enter t).book.take t.candle).1 := by
  have opened : ((e.actionOn t).opened.map PositionEvent.opened).toList.filterMap
      PositionEvent.closed? = [] := by
    cases (e.actionOn t).opened <;> rfl
  have closed : PositionEvent.closed? ∘ PositionEvent.closed = some := rfl
  show (_ ++ _ : List PositionEvent).filterMap _ = _
  rw [List.filterMap_append, List.filterMap_map, closed, List.filterMap_some]
  exact (congrArg (_ ++ ·) opened).trans (List.append_nil _)

theorem openPositions_evaluate (e : Engine) (t : Tick) :
    (e.evaluate t).2.book.ledger.openPositions =
      ((e.enter t).book.take t.candle).2.ledger.openPositions ++
        (e.evaluate t).1.events.filterMap PositionEvent.opened? := by
  show (e.actionOn t).ledger.openPositions = (e.settled t).book.ledger.openPositions ++ _
  rw [openings_evaluate, actionOn]
  rcases (e.settled t).act_cases t (e.signalOn t) with ⟨none, same, -⟩ | ⟨p, -, acts⟩
  · rw [none, same]
    exact (List.append_nil _).symm
  · rw [acts]
    rfl

/-- What a tick tells closed is an open position that its candle made exit, and the tick was not
rejected. -/
theorem exit_of_mem_closings (h : Reached s e) {t : Tick} {commands : List Command}
    {closed : ClosedPosition} (told : closed ∈ (e.tick t commands).1.closings) :
    t.screen e.latest = none ∧
    ∃ p ∈ e.book.ledger.openPositions, closed.IsExit t.candle p := by
  have positions : ((e.obey commands).2.enter t).book.ledger = e.book.ledger :=
    e.ledger_obey commands
  rw [← e.latest_obey commands]
  cases screened : t.screen (e.obey commands).2.latest with
  | some rejection =>
    rw [tick_of_rejected screened] at told
    cases told
  | none =>
    rw [tick_of_passed screened] at told
    have told : closed ∈ ((e.obey commands).2.evaluate t).1.events.filterMap
        PositionEvent.closed? := told
    rw [closings_evaluate] at told
    have exits := Book.isExit_take (positions.symm ▸ h.orderly) t.candle
    obtain ⟨p, hp, exit⟩ := exists_of_mem_forall₂ exits told
    rw [positions] at hp
    exact ⟨rfl, p, List.mem_of_mem_filter hp, exit⟩

/-- **A tick closes what its candle touches.** At every reached state no open position has an exit.
A tick that is not rejected closes exactly the open positions that its candle touches, and none of
the closes that this takes is refused. -/
theorem exits_tick (h : Reached s e) :
    (∀ p ∈ e.book.ledger.openPositions, p.isComplete = false ∧ p.exitPrice = none) ∧
    ∀ t commands, (e.tick t commands).1.rejection? = none →
      (e.tick t commands).1.Exits t.candle e.book.ledger.openPositions
        (e.tick t commands).2.book.ledger.openPositions ∧
      ((e.obey commands).2.enter t).book.TakesAll t.candle := by
  refine ⟨h.orderly.live, fun t commands accepted => ?_⟩
  have positions : ((e.obey commands).2.enter t).book.ledger = e.book.ledger :=
    e.ledger_obey commands
  have orderly : ((e.obey commands).2.enter t).book.ledger.Orderly := by
    rw [positions]
    exact h.orderly
  rw [rejection?_tick] at accepted
  rw [tick_of_passed accepted]
  refine ⟨⟨h.orderly.ascending, ?_, ?_⟩, Book.takesAll orderly t.candle⟩
  · have exits := Book.isExit_take orderly t.candle
    rw [positions, ← closings_evaluate] at exits
    exact exits
  · have kept := Book.openPositions_take orderly t.candle
    rw [positions] at kept
    show ((e.obey commands).2.evaluate t).2.book.ledger.openPositions = _
    rw [openPositions_evaluate, kept]
    rfl

/-- The engine with the position that the turn of the falling market opens. -/
def boughtEngine : Engine := (fallenEngine.call (.tick (flatTick turningCandle) [])).2

/-- The position that it opens. -/
def boughtPosition : Position where
  id := 1
  direction := .buy
  lots := 0.01
  openPrice := 110.0
  stopLoss := 109.0
  takeProfit := 112.0
  levelAtOpen := 0
  openedAt := turningCandle.timestamp
  isComplete := false
  isProfit := false
  exitPrice := none

/-- A candle that reaches both of its levels. -/
def wideCandle : Candle := hourly 4 110.0 113.0 108.0 110.0

/-- The position is closed at its stop, although its target is reached as well. -/
theorem exits_tick_wide :
    Reached turningSettings boughtEngine ∧
    (boughtEngine.tick (flatTick wideCandle) []).1.rejection? = none ∧
    boughtEngine.book.ledger.openPositions = [boughtPosition] ∧
    boughtPosition.ReachesTarget wideCandle ∧
    ∃ closed, (boughtEngine.tick (flatTick wideCandle) []).1.closings = [closed] ∧
      closed.exitPrice = 109.0 ∧ closed.outcome = .loss := by
  have reached : Reached turningSettings boughtEngine := by
    rw [boughtEngine]
    exact reached_fallenEngine.call (.tick (flatTick turningCandle) [])
  have accepted : (boughtEngine.tick (flatTick wideCandle) []).1.rejection? = none := by
    decide +kernel
  have bought : boughtEngine.book.ledger.openPositions = [boughtPosition] := by decide +kernel
  refine ⟨reached, accepted, bought, by decide +kernel, ?_⟩
  obtain ⟨-, exits, -⟩ := ((exits_tick reached).2 (flatTick wideCandle) [] accepted).1
  have touched : [boughtPosition].filter (·.IsTouched (flatTick wideCandle).candle) =
      [boughtPosition] := by
    decide +kernel
  rw [bought, touched] at exits
  obtain ⟨closed, rest, exit, none, closings⟩ := List.forall₂_cons_left_iff.mp exits
  rw [List.forall₂_nil_left_iff.mp none] at closings
  have level : closed.exitPrice = 109.0 := exit.exitPrice.trans (by decide +kernel)
  have losing : boughtPosition.profitAt 109.0 < 0.0 := by decide +kernel
  refine ⟨closed, closings, level, exit.loss.mpr ?_⟩
  rw [exit.profit, level]
  exact losing

end Engine

end TrendLadder
