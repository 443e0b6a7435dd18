import TrendLadder.Indicator.Codec
import TrendLadder.Market.Codec
import TrendLadder.Proofs.Document.Json.Plain
import TrendLadder.Proofs.Time.Timestamp

/-!
# Market data on the wire

Candles, accounts, quotes and indicator readings are conveyed by their document forms if they are
sendable: their doubles are finite, their timestamps plain and their integers of the width of their
fields.
-/

namespace TrendLadder

open Value

variable (depth : ℕ)

theorem Timestamp.conveys {t : Timestamp} (plain : t.IsPlain) :
    Conveys depth t.encode Timestamp.decode t :=
  ⟨isPlain_text _, decode_encode plain⟩

/-! ## Market -/

theorem Direction.conveys (d : Direction) : Conveys depth d.encode Direction.decode d := by
  cases d <;> exact ⟨isPlain_text _, rfl⟩

namespace Account

/-- The doubles of an account are finite. -/
structure IsSendable (a : Account) : Prop where
  balance : a.balance.isFinite = true
  equity : a.equity.isFinite = true
  margin : a.margin.isFinite = true

theorem conveys {a : Account} (h : a.IsSendable) :
    Conveys (depth + 1) a.encode Account.decode a := by
  refine conveys_record rfl (by decide) ?_ ?_
  · simp [isPlain_real, h.balance, h.equity, h.margin]
  · simp

end Account

namespace Quote

/-- The doubles of a quote are finite, and its spread has 32 bits. -/
structure IsSendable (q : Quote) : Prop where
  bid : q.bid.isFinite = true
  ask : q.ask.isFinite = true
  point : q.point.isFinite = true
  spreadPoints : q.spreadPoints < 2 ^ 32

theorem conveys {q : Quote} (h : q.IsSendable) :
    Conveys (depth + 1) q.encode Quote.decode q := by
  have spread := conveys_nat depth (by decide) h.spreadPoints
  refine conveys_record rfl (by decide) ?_ ?_
  · simp [isPlain_real, h.bid, h.ask, h.point, spread.plain]
  · simp [spread.read]

end Quote

namespace Candle

/-- The prices of a candle are finite, its timestamp is plain, its volume has 64 bits and its spread
32. -/
structure IsSendable (c : Candle) : Prop where
  timestamp : c.timestamp.IsPlain
  opening : c.opening.isFinite = true
  high : c.high.isFinite = true
  low : c.low.isFinite = true
  closing : c.closing.isFinite = true
  tickVolume : c.tickVolume < 2 ^ 64
  spread : c.spread < 2 ^ 32

theorem conveys {c : Candle} (h : c.IsSendable) :
    Conveys (depth + 1) c.encode Candle.decode c := by
  have timestamp := Timestamp.conveys depth h.timestamp
  have volume := conveys_nat depth (by decide) h.tickVolume
  have spread := conveys_nat depth (by decide) h.spread
  refine conveys_record rfl (by decide) ?_ ?_
  · simp [isPlain_real, h.opening, h.high, h.low, h.closing, timestamp.plain, volume.plain,
      spread.plain]
  · simp [timestamp.read, volume.read, spread.read]

end Candle

/-! ## Indicators -/

theorem TrendDirection.conveys (d : TrendDirection) :
    Conveys depth d.encode TrendDirection.decode d := by
  cases d <;> exact ⟨isPlain_text _, rfl⟩

theorem Cross.conveys (c : Cross) : Conveys depth c.encode Cross.decode c := by
  cases c <;> exact ⟨isPlain_text _, rfl⟩

namespace TrendState

/-- The doubles of the state are finite, and its count has 32 bits. -/
structure IsSendable (t : TrendState) : Prop where
  level : t.level.isFinite = true
  extremePoint : t.extremePoint.isFinite = true
  acceleration : t.acceleration.isFinite = true
  count : t.count < 2 ^ 32

theorem conveys {t : TrendState} (h : t.IsSendable) :
    Conveys (depth + 1) t.encode TrendState.decode t := by
  have direction := TrendDirection.conveys depth t.direction
  have count := conveys_nat depth (by decide) h.count
  refine conveys_record rfl (by decide) ?_ ?_
  · simp [isPlain_real, h.level, h.extremePoint, h.acceleration, direction.plain, count.plain]
  · simp [direction.read, count.read]

end TrendState

namespace CrossoverReading

/-- The averages are finite where there are any. -/
structure IsSendable (r : CrossoverReading) : Prop where
  fast : ∀ x ∈ r.fast, x.isFinite = true
  slow : ∀ x ∈ r.slow, x.isFinite = true

theorem conveys {r : CrossoverReading} (h : r.IsSendable) :
    Conveys (depth + 1) r.encode CrossoverReading.decode r := by
  have fast := conveys_optionReal depth h.fast
  have slow := conveys_optionReal depth h.slow
  have cross : Conveys depth (ofOption Cross.encode r.cross) (nullable Cross.decode) r.cross :=
    conveys_option (by intro c; cases c <;> exact nofun) fun c _ => Cross.conveys depth c
  refine conveys_record rfl (by decide) ?_ ?_
  · simp [fast.plain, slow.plain, cross.plain]
  · simp [fast.read, slow.read, cross.read]

end CrossoverReading

end TrendLadder
