import TrendLadder.Ledger.Basic
import TrendLadder.Proofs.Mirror.Market

/-!
# Mirrored trades

A signal and its mirror image ask for opposite trades at negated prices, of the same lots and with
the same confidence. Opposite positions exit on mirrored candles together and at the same profit,
so they move the ladder alike and the risk gate sees the same account.
-/

namespace TrendLadder

/-! ## Signals -/

theorem Direction.sign_opposite (d : Direction) : Opposite d.sign d.opposite.sign := by
  cases d
  · exact .refl _
  · exact .inl (by decide +kernel)

/-- The signal for the other direction. -/
def SignalType.opposite : SignalType → SignalType
  | .none => .none
  | .buy => .sell
  | .sell => .buy

theorem SignalType.direction?_opposite (t : SignalType) :
    t.opposite.direction? = t.direction?.map Direction.opposite := by
  cases t <;> rfl

theorem SignalType.ofDirection_opposite (d : Direction) :
    ofDirection d.opposite = (ofDirection d).opposite := by
  cases d <;> rfl

structure PriceLevels.Mirrors (a b : PriceLevels) : Prop where
  entry : Opposite a.entry b.entry
  stopLoss : Opposite a.stopLoss b.stopLoss
  takeProfit : Opposite a.takeProfit b.takeProfit

theorem priceLevels_mirror (d : Direction) {x y : Float} (closing : Opposite x y) (point : Float)
    (pricing : PricingSettings) (rewardRatio : Float) :
    (priceLevels d x point pricing rewardRatio).Mirrors
      (priceLevels d.opposite y point pricing rewardRatio) := by
  have sign := d.sign_opposite
  have entry : Opposite (x + d.sign * pricing.entryOffsetPoints * point)
      (y + d.opposite.sign * pricing.entryOffsetPoints * point) :=
    closing.add ((sign.mul (.refl _)).mul (.refl _))
  have stop := entry.sub ((sign.mul (.refl pricing.stopLossPoints)).mul (.refl point))
  exact ⟨entry, stop, entry.add ((sign.mul (entry.sub stop).abs).mul (.refl _))⟩

structure Signal.Mirrors (a b : Signal) : Prop where
  type : b.type = a.type.opposite
  price : Opposite a.price b.price
  stopLoss : Opposite a.stopLoss b.stopLoss
  takeProfit : Opposite a.takeProfit b.takeProfit
  lots : b.lots = a.lots
  confidence : b.confidence = a.confidence
  timestamp : b.timestamp = a.timestamp

theorem Signal.mirrors_none (timestamp : Timestamp) :
    (Signal.none timestamp).Mirrors (.none timestamp) :=
  ⟨rfl, zero_opposite, zero_opposite, zero_opposite, rfl, rfl, rfl⟩

theorem agreedDirection_mirror (c : Candle) {a b : TrendReading} (trend : a.Mirrors b)
    (cross : Option Cross) : agreedDirection c.mirror b (cross.map Cross.opposite) =
      (agreedDirection c a cross).map Direction.opposite := by
  have closing : Opposite c.closing c.mirror.closing := .refl _
  have above : b.value < c.mirror.closing ↔ c.closing < a.value :=
    (closing.lt_iff trend.value).symm
  have below : c.mirror.closing < b.value ↔ a.value < c.closing :=
    (trend.value.lt_iff closing).symm
  unfold agreedDirection
  rw [trend.isContinuous, trend.direction]
  simp only [above, below]
  cases a.isContinuous with
  | true => rfl
  | false =>
    rw [if_neg Bool.false_ne_true, if_neg Bool.false_ne_true]
    cases a.direction <;> rcases cross with _ | _ | _ <;> try rfl
    case up.some.bullish =>
      dsimp only [TrendDirection.opposite, Option.map_some, Cross.opposite]
      split <;> rfl
    case down.some.bearish =>
      dsimp only [TrendDirection.opposite, Option.map_some, Cross.opposite]
      split <;> rfl

theorem Verdict.Mirrors.agrees {a b : Verdict} (h : a.Mirrors b) (d : Direction) :
    b.agrees d.opposite = a.agrees d := by
  cases h with
  | @valid x y golden =>
    show decide (some y.direction = some d.opposite) = decide (some x.direction = some d)
    rw [golden.direction]
    cases x.direction <;> cases d <;> rfl
  | rejected fs gs => rfl

theorem SignalSettings.direction?_mirror (s : SignalSettings) (c : Candle) {a b : TrendReading}
    (trend : a.Mirrors b) (cross : Option Cross) {x y : Verdict} (pattern : x.Mirrors y) :
    s.direction? c.mirror b (cross.map Cross.opposite) y =
      (s.direction? c a cross x).map Direction.opposite := by
  unfold SignalSettings.direction?
  rw [agreedDirection_mirror c trend]
  cases agreedDirection c a cross with
  | none => rfl
  | some d =>
    simp only [Option.map_some, Option.filter_some, pattern.agrees]
    split <;> rfl

theorem compose_mirror (s : SignalSettings) (pricing : PricingSettings) (c : Candle)
    {a b : Readings} (h : a.Mirrors b) (sizing : Sizing) :
    ExceptRel Signal.Mirrors (compose s pricing c a sizing)
      (compose s pricing c.mirror b sizing) := by
  obtain ⟨readTrend, readCross, pattern⟩ := a
  obtain ⟨readTrend2, readCross2, pattern2⟩ := b
  obtain ⟨trends, crosses, patterns⟩ := h
  unfold compose
  cases trends with
  | error e => exact .error e
  | ok trend =>
    cases crosses with
    | error e => exact .error e
    | @ok cross cross2 same =>
      subst same
      dsimp only [bind, Except.bind]
      rw [s.direction?_mirror c trend cross patterns]
      cases s.direction? c _ cross pattern with
      | none => exact .ok (Signal.mirrors_none _)
      | some d =>
        have levels := priceLevels_mirror d (.refl (-c.closing)) sizing.point pricing
          sizing.rewardRatio
        refine .ok ⟨SignalType.ofDirection_opposite d, levels.entry, levels.stopLoss,
          levels.takeProfit, rfl, ?_, rfl⟩
        exact congrArg s.weights.confidence (patterns.agrees d)

/-! ## Positions -/

structure Position.Mirrors (a b : Position) : Prop where
  id : b.id = a.id
  direction : b.direction = a.direction.opposite
  lots : b.lots = a.lots
  openPrice : Opposite a.openPrice b.openPrice
  stopLoss : Opposite a.stopLoss b.stopLoss
  takeProfit : Opposite a.takeProfit b.takeProfit
  levelAtOpen : b.levelAtOpen = a.levelAtOpen
  openedAt : b.openedAt = a.openedAt
  isComplete : b.isComplete = a.isComplete
  isProfit : b.isProfit = a.isProfit
  exitPrice : Option.Rel Opposite a.exitPrice b.exitPrice

structure ClosedPosition.Mirrors (a b : ClosedPosition) : Prop where
  record : a.record.Mirrors b.record
  exitPrice : Opposite a.exitPrice b.exitPrice
  profit : Alike a.profit b.profit
  outcome : b.outcome = a.outcome
  transition : b.transition = a.transition
  closedAt : b.closedAt = a.closedAt

inductive PositionEvent.Mirrors : PositionEvent → PositionEvent → Prop
  | opened {a b : Position} (h : a.Mirrors b) : Mirrors (.opened a) (.opened b)
  | closed {a b : ClosedPosition} (h : a.Mirrors b) : Mirrors (.closed a) (.closed b)

namespace Position.Mirrors

variable {a b : Position}

theorem profitAt (h : a.Mirrors b) {x y : Float} (price : Opposite x y) :
    Alike (a.profitAt x) (b.profitAt y) := by
  unfold Position.profitAt
  rw [h.direction, h.lots]
  exact ((price.sub h.openPrice).mul_opposite a.direction.sign_opposite).mul (.refl _)

theorem exitOn (h : a.Mirrors b) (c : Candle) :
    Option.Rel Opposite (a.exitOn c) (b.exitOn c.mirror) := by
  have low : Opposite c.low c.mirror.high := .refl _
  have high : Opposite c.high c.mirror.low := .refl _
  have direction := h.direction
  unfold Position.exitOn
  cases side : a.direction with
  | buy =>
    have stop : b.stopLoss ≤ c.mirror.high ↔ c.low ≤ a.stopLoss := (low.le_iff h.stopLoss).symm
    have target : c.mirror.low ≤ b.takeProfit ↔ a.takeProfit ≤ c.high :=
      (h.takeProfit.le_iff high).symm
    rw [side, Direction.opposite] at direction
    rw [direction]
    simp only [stop, target]
    split
    · exact .some h.stopLoss
    · split
      · exact .some h.takeProfit
      · exact .none
  | sell =>
    have stop : c.mirror.low ≤ b.stopLoss ↔ a.stopLoss ≤ c.high := (h.stopLoss.le_iff high).symm
    have target : b.takeProfit ≤ c.mirror.high ↔ c.low ≤ a.takeProfit :=
      (low.le_iff h.takeProfit).symm
    rw [side, Direction.opposite] at direction
    rw [direction]
    simp only [stop, target]
    split
    · exact .some h.stopLoss
    · split
      · exact .some h.takeProfit
      · exact .none

theorem exitAt (h : a.Mirrors b) {x y : Float} (price : Opposite x y) :
    (a.exitAt x).Mirrors (b.exitAt y) where
  id := h.id
  direction := h.direction
  lots := h.lots
  openPrice := h.openPrice
  stopLoss := h.stopLoss
  takeProfit := h.takeProfit
  levelAtOpen := h.levelAtOpen
  openedAt := h.openedAt
  isComplete := rfl
  isProfit := decide_eq_decide.mpr (Alike.lt_iff (.refl _) (h.profitAt price)).symm
  exitPrice := .some price

theorem completesOn (h : a.Mirrors b) (c : Candle) :
    b.completesOn c.mirror = a.completesOn c := by
  have exits := h.exitOn c
  unfold Position.completesOn
  rw [h.isComplete]
  generalize a.exitOn c = x, b.exitOn c.mirror = y at exits ⊢
  cases exits <;> rfl

theorem evaluate (h : a.Mirrors b) (c : Candle) : (a.evaluate c).Mirrors (b.evaluate c.mirror) := by
  have exits := h.exitOn c
  unfold Position.evaluate
  rw [h.isComplete]
  split
  · exact h
  · generalize a.exitOn c = x, b.exitOn c.mirror = y at exits ⊢
    cases exits with
    | none => exact h
    | some price => exact h.exitAt price

end Position.Mirrors

theorem TradeOutcome.ofProfit_alike {x y : Float} (h : Alike x y) : ofProfit y = ofProfit x := by
  have won : 0.0 < y ↔ 0.0 < x := (Alike.lt_iff (.refl _) h).symm
  have lost : y < 0.0 ↔ x < 0.0 := (h.lt_iff (.refl _)).symm
  unfold ofProfit
  simp only [won, lost]

/-! ## Ledger and gate -/

namespace Ledger

structure Mirrors (a b : Ledger) : Prop where
  policy : b.policy = a.policy
  issued : b.issued = a.issued
  openPositions : List.Forall₂ Position.Mirrors a.openPositions b.openPositions
  archive : Recent.Rel ClosedPosition.Mirrors a.archive b.archive

namespace Mirrors

variable {a b : Ledger}

theorem new (policy : PositionSettings) : (Ledger.new policy).Mirrors (.new policy) :=
  ⟨rfl, rfl, .nil, .empty _⟩

theorem find? (h : a.Mirrors b) (id : PositionId) :
    Option.Rel Position.Mirrors (a.find? id) (b.find? id) := by
  have positions := h.openPositions
  unfold Ledger.find?
  generalize a.openPositions = ps, b.openPositions = qs at positions ⊢
  induction positions with
  | nil => exact .none
  | @cons p q ps qs first _ ih =>
    rw [List.find?_cons, List.find?_cons, first.id]
    split
    · exact .some first
    · exact ih

theorem insert (h : a.Mirrors b) {p q : Position} (hp : p.Mirrors q) :
    (a.insert p).Mirrors (b.insert q) :=
  ⟨h.policy, congrArg (· + 1) h.issued, List.rel_append h.openPositions (.cons hp .nil),
    h.archive⟩

theorem archived (h : a.Mirrors b) (id : PositionId) {x y : ClosedPosition} (closed : x.Mirrors y) :
    (a.archived id x).Mirrors (b.archived id y) := by
  refine ⟨h.policy, h.issued, ?_, h.archive.push closed⟩
  refine List.rel_filter ?_ h.openPositions
  intro p q same
  dsimp only
  rw [same.id]

theorem completedBy (h : a.Mirrors b) (c : Candle) : b.completedBy c.mirror = a.completedBy c := by
  have completed : List.Forall₂ Position.Mirrors (a.openPositions.filter (·.completesOn c))
      (b.openPositions.filter (·.completesOn c.mirror)) := by
    refine List.rel_filter (fun p q same => ?_) h.openPositions
    dsimp only
    rw [same.completesOn c]
  have ids := List.rel_map (P := Eq) (fun _ _ same => same.id.symm) completed
  exact (List.forall₂_eq_eq_eq ▸ ids).symm

theorem update (h : a.Mirrors b) (c : Candle) :
    (b.update c.mirror).1 = (a.update c).1 ∧ (a.update c).2.Mirrors (b.update c.mirror).2 :=
  ⟨h.completedBy c, h.policy, h.issued,
    List.rel_map (fun _ _ hp => hp.evaluate c) h.openPositions, h.archive⟩

end Mirrors

end Ledger

namespace RiskGate

/-- Gates that have seen the same of the account and the same profits. -/
def Mirrors (a b : RiskGate) : Prop :=
  ∃ profits, Recent.Rel Alike a.profits profits ∧ b = { a with profits := profits }

namespace Mirrors

variable {a b : RiskGate}

theorem new (limits : RiskSettings) : (RiskGate.new limits).Mirrors (.new limits) :=
  ⟨_, .empty _, rfl⟩

theorem authorize (h : a.Mirrors b) (account : Account) (q : Quote) (paused : Bool) :
    b.authorize account q paused = a.authorize account q paused := by
  obtain ⟨profits, -, rfl⟩ := h
  rfl

theorem startDay (h : a.Mirrors b) (balance : Float) :
    (a.startDay balance).Mirrors (b.startDay balance) := by
  obtain ⟨profits, same, rfl⟩ := h
  unfold RiskGate.startDay
  split <;> exact ⟨profits, same, rfl⟩

theorem update (h : a.Mirrors b) (account : Account) :
    (a.update account).Mirrors (b.update account) := by
  obtain ⟨profits, same, rfl⟩ := h
  unfold RiskGate.update setBaseline
  dsimp only
  split
  · split <;> exact ⟨profits, same, rfl⟩
  · exact ⟨profits, same, rfl⟩

theorem recordProfit (h : a.Mirrors b) {x y : Float} (profit : Alike x y) :
    (a.recordProfit x).Mirrors (b.recordProfit y) := by
  obtain ⟨profits, same, rfl⟩ := h
  exact ⟨_, same.push profit, rfl⟩

end Mirrors

end RiskGate

/-- Signals that are mirror images open mirrored positions or are refused for the same reason. -/
theorem Ledger.Mirrors.openFor {a b : Ledger} (h : a.Mirrors b) {s t : Signal}
    (signal : s.Mirrors t) (ladder : Ladder) {g k : RiskGate} (gate : g.Mirrors k)
    (account : Account) (q : Quote) :
    ExceptRel (fun x y => x.1.Mirrors y.1 ∧ x.2.Mirrors y.2)
      (a.openFor s ladder g account q) (b.openFor t ladder k account q) := by
  have direction : t.direction? = s.direction?.map Direction.opposite := by
    unfold Signal.direction?
    rw [signal.type, SignalType.direction?_opposite]
  have count : b.openCount = a.openCount := h.openPositions.length_eq.symm
  unfold Ledger.openFor
  rw [direction, gate.authorize, h.policy, count]
  cases s.direction? with
  | none => exact .error _
  | some d =>
    cases g.authorize account q ladder.paused with
    | error violation => exact .error _
    | ok passed =>
      dsimp only [Option.map_some]
      split
      · exact .error _
      · split
        · exact .error _
        · have position : (a.nextPosition s d ladder).Mirrors
              (b.nextPosition t d.opposite ladder) :=
            ⟨congrArg (· + 1) h.issued, rfl, rfl, signal.price, signal.stopLoss, signal.takeProfit,
              rfl, signal.timestamp, rfl, rfl, .none⟩
          exact .ok ⟨position, h.insert position⟩

/-! ## Book -/

namespace Book

structure Mirrors (a b : Book) : Prop where
  ladder : b.ladder = a.ladder
  gate : a.gate.Mirrors b.gate
  ledger : a.ledger.Mirrors b.ledger

namespace Mirrors

variable {a b : Book}

theorem finish (h : a.Mirrors b) {p q : Position} (hp : p.Mirrors q) {x y : Float}
    (price : Opposite x y) (closedAt : Timestamp) :
    (a.finish p x closedAt).Mirrors (b.finish q y closedAt) := by
  have profit := hp.profitAt price
  have outcome := TradeOutcome.ofProfit_alike profit
  refine ⟨hp.exitAt price, price, profit, outcome, ?_, rfl⟩
  unfold Book.finish
  dsimp only
  rw [h.ladder, outcome]

theorem settle (h : a.Mirrors b) (id : PositionId) {x y : ClosedPosition} (closed : x.Mirrors y) :
    (a.settle id x).Mirrors (b.settle id y) := by
  refine ⟨?_, h.gate.recordProfit closed.profit, h.ledger.archived id closed⟩
  unfold Book.settle
  rw [h.ladder, closed.outcome]

theorem close (h : a.Mirrors b) (id : PositionId) {x y : Float} (price : Opposite x y)
    (closedAt : Timestamp) :
    ExceptRel (fun r s => r.1.Mirrors s.1 ∧ r.2.Mirrors s.2)
      (a.close id x closedAt) (b.close id y closedAt) := by
  have found := h.ledger.find? id
  unfold Book.close
  generalize a.ledger.find? id = p, b.ledger.find? id = q at found ⊢
  cases found with
  | none => exact .error _
  | some hp =>
    have closed := h.finish hp price closedAt
    exact .ok ⟨closed, h.settle id closed⟩

theorem closeCompleted (h : a.Mirrors b) (id : PositionId) (closedAt : Timestamp) :
    ExceptRel (fun r s => r.1.Mirrors s.1 ∧ r.2.Mirrors s.2)
      (a.closeCompleted id closedAt) (b.closeCompleted id closedAt) := by
  have found := h.ledger.find? id
  unfold Book.closeCompleted
  generalize a.ledger.find? id = p, b.ledger.find? id = q at found ⊢
  cases found with
  | none => exact .error _
  | @some p q hp =>
    have exits := hp.exitPrice
    dsimp only
    generalize p.exitPrice = x, q.exitPrice = y at exits ⊢
    cases exits with
    | none => exact .error _
    | some price => exact h.close id price closedAt

theorem closeAll (h : a.Mirrors b) (closedAt : Timestamp) (ids : List PositionId) :
    List.Forall₂ ClosedPosition.Mirrors (a.closeAll closedAt ids).1 (b.closeAll closedAt ids).1 ∧
      (a.closeAll closedAt ids).2.Mirrors (b.closeAll closedAt ids).2 := by
  induction ids generalizing a b with
  | nil => exact ⟨.nil, h⟩
  | cons id ids ih =>
    have first := h.closeCompleted id closedAt
    rw [Book.closeAll, Book.closeAll]
    generalize a.closeCompleted id closedAt = x, b.closeCompleted id closedAt = y at first ⊢
    cases first with
    | error e => exact ih h
    | ok done => exact ⟨.cons done.1 (ih done.2).1, (ih done.2).2⟩

/-- **A mirrored candle closes the mirrored positions.** -/
theorem take (h : a.Mirrors b) (c : Candle) :
    List.Forall₂ ClosedPosition.Mirrors (a.take c).1 (b.take c.mirror).1 ∧
      (a.take c).2.Mirrors (b.take c.mirror).2 := by
  have update := h.ledger.update c
  have updated : Book.Mirrors { a with ledger := (a.ledger.update c).2 }
      { b with ledger := (b.ledger.update c.mirror).2 } := ⟨h.ladder, h.gate, update.2⟩
  unfold Book.take
  rw [update.1]
  exact updated.closeAll c.timestamp _

end Mirrors

end Book

end TrendLadder
