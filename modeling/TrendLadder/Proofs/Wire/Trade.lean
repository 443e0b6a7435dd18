import TrendLadder.Ledger.Codec
import TrendLadder.Pattern.Codec
import TrendLadder.Proofs.Wire.Market
import TrendLadder.Signal.Codec

/-!
# Trades on the wire

Signals, verdicts, positions and their events, the ladder and the gate are conveyed by their
document forms if they are sendable. A value of several kinds is tagged with its kind, so that it
is conveyed if the fields of that kind convey it to the reader of the tag (`conveys_tagged`,
`conveys_kind`).
-/

namespace TrendLadder

open Value

variable (depth : ℕ)

/-! ## Signals -/

theorem SignalType.conveys (type : SignalType) :
    Conveys depth type.encode SignalType.decode type := by
  cases type <;> exact ⟨isPlain_text _, rfl⟩

namespace Signal

/-- The doubles of a signal are finite and its timestamp is plain. -/
structure IsSendable (s : Signal) : Prop where
  price : s.price.isFinite = true
  stopLoss : s.stopLoss.isFinite = true
  takeProfit : s.takeProfit.isFinite = true
  lots : s.lots.isFinite = true
  confidence : s.confidence.isFinite = true
  timestamp : s.timestamp.IsPlain

theorem conveys {s : Signal} (h : s.IsSendable) :
    Conveys (depth + 1) s.encode Signal.decode s := by
  have type := SignalType.conveys depth s.type
  have timestamp := Timestamp.conveys depth h.timestamp
  refine conveys_record rfl (by decide) ?_ ?_
  · simp [isPlain_real, h.price, h.stopLoss, h.takeProfit, h.lots, h.confidence, type.plain,
      timestamp.plain]
  · simp [type.read, timestamp.read]

end Signal

/-! ## Verdicts -/

namespace GoldenCandle

/-- The doubles of a golden candle are finite and its timestamp is plain. -/
structure IsSendable (g : GoldenCandle) : Prop where
  timestamp : g.timestamp.IsPlain
  body : g.body.isFinite = true
  upperWick : g.upperWick.isFinite = true
  lowerWick : g.lowerWick.isFinite = true

theorem conveys {g : GoldenCandle} (h : g.IsSendable) :
    Conveys (depth + 1) g.encode GoldenCandle.decode g := by
  have timestamp := Timestamp.conveys depth h.timestamp
  have direction := Direction.conveys depth g.direction
  refine conveys_record rfl (by decide) ?_ ?_
  · simp [isPlain_real, h.body, h.upperWick, h.lowerWick, timestamp.plain, direction.plain]
  · simp [timestamp.read, direction.read]

end GoldenCandle

namespace Flaw

/-- The doubles of a failed check are finite, and a volume has 64 bits. -/
def IsSendable : Flaw → Prop
  | .bodyTooSmall body min => body.isFinite = true ∧ min.isFinite = true
  | .bodyTooLarge body max => body.isFinite = true ∧ max.isFinite = true
  | .upperWickTooLong wick limit => wick.isFinite = true ∧ limit.isFinite = true
  | .lowerWickTooLong wick limit => wick.isFinite = true ∧ limit.isFinite = true
  | .trendMismatch _ _ => True
  | .volumeTooLow volume required => volume < 2 ^ 64 ∧ required.isFinite = true
  | .noPreviousVolume => True

instance : DecidablePred Flaw.IsSendable
  | .bodyTooSmall x y | .bodyTooLarge x y | .upperWickTooLong x y | .lowerWickTooLong x y =>
    inferInstanceAs (Decidable (x.isFinite = true ∧ y.isFinite = true))
  | .volumeTooLow volume required =>
    inferInstanceAs (Decidable (volume < 2 ^ 64 ∧ required.isFinite = true))
  | .trendMismatch _ _ | .noPreviousVolume => isTrue trivial

theorem conveys_mismatch (candle : Option Direction) (trend : TrendDirection) :
    Conveys (depth + 1)
      (.record [("candle", ofOption Direction.encode candle), ("trend", trend.encode)]) mismatch
      (.trendMismatch candle trend) := by
  have candle : Conveys depth (ofOption Direction.encode candle) (nullable Direction.decode)
      candle :=
    conveys_option (by rintro (_ | _) <;> exact nofun) fun d _ => d.conveys depth
  have trend := trend.conveys depth
  refine conveys_record rfl (by decide) ?_ ?_
  · simp [candle.plain, trend.plain]
  · simp [candle.read, trend.read]

theorem conveys {f : Flaw} (h : f.IsSendable) :
    Conveys (depth + 1) f.encode Flaw.decode f := by
  cases f with
  | bodyTooSmall x y | bodyTooLarge x y | upperWickTooLong x y | lowerWickTooLong x y =>
    exact conveys_kind rfl (by simp)
      (conveys_pair (by decide) (conveys_real h.1) (conveys_real h.2))
  | trendMismatch candle trend =>
    exact conveys_kind rfl (by simp) (conveys_mismatch depth candle trend)
  | volumeTooLow volume required =>
    exact conveys_kind rfl (by simp)
      (conveys_pair (by decide) (conveys_nat depth (by decide) h.1) (conveys_real h.2))
  | noPreviousVolume =>
    exact conveys_kind rfl (by simp) ⟨isPlain_record (by simp), rfl⟩

end Flaw

namespace Verdict

def IsSendable : Verdict → Prop
  | .valid golden => golden.IsSendable
  | .rejected flaws => ∀ f ∈ flaws, f.IsSendable

theorem conveys {v : Verdict} (h : v.IsSendable) :
    Conveys (depth + 3) v.encode Verdict.decode v := by
  cases v with
  | valid golden =>
    have body := (GoldenCandle.conveys (depth + 1) h).map Verdict.valid
    exact ⟨isPlain_record (by simpa using body.plain), body.read⟩
  | rejected flaws =>
    have flaws : Conveys (depth + 2) (.list true (flaws.map Flaw.encode)) (list? Flaw.decode)
        flaws := conveys_list fun f hf => Flaw.conveys depth (h f hf)
    have body := flaws.map Verdict.rejected
    exact ⟨isPlain_record (by simpa using body.plain), body.read⟩

end Verdict

/-! ## Ladders -/

theorem TradeOutcome.conveys (o : TradeOutcome) :
    Conveys depth o.encode TradeOutcome.decode o := by
  cases o <;> exact ⟨isPlain_text _, rfl⟩

namespace LevelTransition

/-- The levels have 64 bits. -/
structure IsSendable (t : LevelTransition) : Prop where
  before : t.before < 2 ^ 64
  after : t.after < 2 ^ 64

theorem conveys {t : LevelTransition} (h : t.IsSendable) :
    Conveys (depth + 1) t.encode LevelTransition.decode t := by
  have before := conveys_nat depth (by decide) h.before
  have after := conveys_nat depth (by decide) h.after
  refine conveys_record rfl (by decide) ?_ ?_
  · simp [before.plain, after.plain]
  · simp [before.read, after.read]

end LevelTransition

namespace Ladder

/-- The levels have 64 bits and the entries of the tables are finite. -/
structure IsSendable (l : Ladder) : Prop where
  level : l.level < 2 ^ 64
  lots : ∀ x ∈ l.lots, x.isFinite = true
  rewardRatios : ∀ x ∈ l.rewardRatios, x.isFinite = true
  pendingSkip : ∀ level ∈ l.pendingSkip, level < 2 ^ 64

theorem conveys {l : Ladder} (h : l.IsSendable) :
    Conveys (depth + 2) l.encode Ladder.decode l := by
  have level := conveys_nat (depth + 1) (by decide) h.level
  have lots := conveys_listReal depth h.lots
  have ratios := conveys_listReal depth h.rewardRatios
  have skip : Conveys (depth + 1) (ofOption ofNat l.pendingSkip) (nullable (nat? 64))
      l.pendingSkip :=
    conveys_option nofun fun level hl => conveys_nat _ (by decide) (h.pendingSkip level hl)
  refine conveys_record rfl (by decide) ?_ ?_
  · simp [level.plain, lots.plain, ratios.plain, skip.plain]
  · simp [level.read, lots.read, ratios.read, skip.read]

end Ladder

/-! ## The gate -/

namespace Breach

/-- The doubles of a failed check are finite, and points have 32 bits. -/
def IsSendable : Breach → Prop
  | .paused => True
  | .invalidAccount => True
  | .marginLevel level minimum => level.isFinite = true ∧ minimum.isFinite = true
  | .drawdown drawdownPct max => drawdownPct.isFinite = true ∧ max.isFinite = true
  | .dailyLoss lossPct max => lossPct.isFinite = true ∧ max.isFinite = true
  | .spread points max => points < 2 ^ 32 ∧ max < 2 ^ 32

instance : DecidablePred Breach.IsSendable
  | .paused | .invalidAccount => isTrue trivial
  | .marginLevel x y | .drawdown x y | .dailyLoss x y =>
    inferInstanceAs (Decidable (x.isFinite = true ∧ y.isFinite = true))
  | .spread points max => inferInstanceAs (Decidable (points < 2 ^ 32 ∧ max < 2 ^ 32))

theorem conveys {b : Breach} (h : b.IsSendable) :
    Conveys (depth + 1) b.encode Breach.decode b := by
  cases b with
  | paused | invalidAccount =>
    exact conveys_kind rfl (by simp) ⟨isPlain_record (by simp), rfl⟩
  | marginLevel x y | drawdown x y | dailyLoss x y =>
    exact conveys_kind rfl (by simp)
      (conveys_pair (by decide) (conveys_real h.1) (conveys_real h.2))
  | spread points max =>
    exact conveys_kind rfl (by simp)
      (conveys_pair (by decide) (conveys_nat depth (by decide) h.1)
        (conveys_nat depth (by decide) h.2))

end Breach

namespace RiskViolation

def IsSendable (v : RiskViolation) : Prop := ∀ b ∈ v.breaches, b.IsSendable

theorem conveys {v : RiskViolation} (h : v.IsSendable) :
    Conveys (depth + 3) v.encode RiskViolation.decode v := by
  have breaches : Conveys (depth + 2) (.list true (v.breaches.map Breach.encode))
      (list? Breach.decode) v.breaches := conveys_list fun b hb => Breach.conveys depth (h b hb)
  refine conveys_record rfl (by decide) ?_ ?_
  · simp [breaches.plain]
  · simp [breaches.read]

end RiskViolation

namespace RiskState

/-- The doubles of the state are finite. -/
structure IsSendable (s : RiskState) : Prop where
  initialBalance : ∀ x ∈ s.initialBalance, x.isFinite = true
  dailyStartBalance : ∀ x ∈ s.dailyStartBalance, x.isFinite = true
  peakBalance : s.peakBalance.isFinite = true
  worstDrawdown : s.worstDrawdown.isFinite = true
  profits : ∀ x ∈ s.profits, x.isFinite = true

theorem conveys {s : RiskState} (h : s.IsSendable) :
    Conveys (depth + 2) s.encode RiskState.decode s := by
  have initial := conveys_optionReal (depth + 1) h.initialBalance
  have daily := conveys_optionReal (depth + 1) h.dailyStartBalance
  have profits := conveys_listReal depth h.profits
  refine conveys_record rfl (by decide) ?_ ?_
  · simp [isPlain_real, h.peakBalance, h.worstDrawdown, initial.plain, daily.plain, profits.plain]
  · simp [initial.read, daily.read, profits.read]

end RiskState

/-! ## Positions -/

namespace Position

/-- The doubles of a position are finite, its number and its level have 64 bits, and its timestamp
is plain. -/
structure IsSendable (p : Position) : Prop where
  id : p.id < 2 ^ 64
  lots : p.lots.isFinite = true
  openPrice : p.openPrice.isFinite = true
  stopLoss : p.stopLoss.isFinite = true
  takeProfit : p.takeProfit.isFinite = true
  levelAtOpen : p.levelAtOpen < 2 ^ 64
  openedAt : p.openedAt.IsPlain
  exitPrice : ∀ x ∈ p.exitPrice, x.isFinite = true

theorem conveys {p : Position} (h : p.IsSendable) :
    Conveys (depth + 1) p.encode Position.decode p := by
  have id := conveys_nat depth (by decide) h.id
  have direction := Direction.conveys depth p.direction
  have level := conveys_nat depth (by decide) h.levelAtOpen
  have openedAt := Timestamp.conveys depth h.openedAt
  have exitPrice := conveys_optionReal depth h.exitPrice
  refine conveys_record rfl (by decide) ?_ ?_
  · simp [fields, isPlain_real, h.lots, h.openPrice, h.stopLoss, h.takeProfit, id.plain,
      direction.plain, level.plain, openedAt.plain, exitPrice.plain]
  · simp [fields, id.read, direction.read, level.read, openedAt.read, exitPrice.read]

end Position

namespace ClosedPosition

/-- The position and the move of the ladder are sendable, the doubles finite and the timestamp
plain. -/
structure IsSendable (c : ClosedPosition) : Prop where
  record : c.record.IsSendable
  exitPrice : c.exitPrice.isFinite = true
  profit : c.profit.isFinite = true
  transition : c.transition.IsSendable
  closedAt : c.closedAt.IsPlain

theorem conveys {c : ClosedPosition} (h : c.IsSendable) :
    Conveys (depth + 2) (.record c.fields) ClosedPosition.decode c := by
  have record := Position.conveys depth h.record
  have outcome := TradeOutcome.conveys (depth + 1) c.outcome
  have transition := LevelTransition.conveys depth h.transition
  have closedAt := Timestamp.conveys (depth + 1) h.closedAt
  refine conveys_record rfl (by decide) ?_ ?_
  · simp [fields, isPlain_real, h.exitPrice, h.profit, record.plain, outcome.plain,
      transition.plain, closedAt.plain]
  · simp [fields, record.read, outcome.read, transition.read, closedAt.read]

end ClosedPosition

namespace PositionEvent

def IsSendable : PositionEvent → Prop
  | .opened p => p.IsSendable
  | .closed c => c.IsSendable

theorem conveys {e : PositionEvent} (h : e.IsSendable) :
    Conveys (depth + 2) e.encode PositionEvent.decode e := by
  cases e with
  | opened position =>
    have body : Conveys (depth + 2) (.record position.fields) Position.decode position :=
      Position.conveys (depth + 1) h
    refine conveys_tagged (fun told => ?_) (by simp [Position.fields])
      (body.map PositionEvent.opened)
    simp [decode, told]
  | closed closed =>
    have body : Conveys (depth + 2) (.record closed.fields) ClosedPosition.decode closed :=
      ClosedPosition.conveys depth h
    refine conveys_tagged (fun told => ?_) (by simp [ClosedPosition.fields])
      (body.map PositionEvent.closed)
    simp [decode, told]

end PositionEvent

end TrendLadder
