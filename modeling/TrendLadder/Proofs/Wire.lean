import TrendLadder.Engine.Codec
import TrendLadder.Proofs.Wire.Settings
import TrendLadder.Proofs.Wire.Trade

/-!
# The wire

Whatever passes between the engine and its host as text is read back as it was written
(`readsBack_wire`): doubles bit for bit, integers of their full width, options, lists and the kinds
of tagged values.
-/

namespace TrendLadder

open Json Value

variable (depth : ℕ)

/-! ## Commands -/

namespace Command

/-- A level has 64 bits and a size is finite. -/
def IsSendable : Command → Prop
  | .skipToLevel level => level < 2 ^ 64
  | .adjustMinSize size => size.isFinite = true
  | .pause | .resume | .ignoreAlert => True

theorem conveys {c : Command} (h : c.IsSendable) :
    Conveys (depth + 1) c.encode Command.decode c := by
  cases c with
  | pause | resume | ignoreAlert => exact ⟨isPlain_record (by simp), rfl⟩
  | skipToLevel level =>
    have level' := conveys_nat depth (by decide) h
    refine ⟨isPlain_record (by simp [level'.plain]), ?_⟩
    show (nat? 64 (ofNat level)).map skipToLevel = some (skipToLevel level)
    rw [level'.read, Option.map_some]
  | adjustMinSize size =>
    have size' : Conveys depth (.real size) float? size := conveys_real h
    refine ⟨isPlain_record (by simp [size'.plain]), ?_⟩
    show (float? (.real size)).map adjustMinSize = some (adjustMinSize size)
    rw [size'.read, Option.map_some]

end Command

/-! ## Ticks -/

namespace Tick

structure IsSendable (t : Tick) : Prop where
  candle : t.candle.IsSendable
  account : t.account.IsSendable
  quote : t.quote.IsSendable

theorem conveys {t : Tick} (h : t.IsSendable) :
    Conveys (depth + 2) t.encode Tick.decode t := by
  have candle := Candle.conveys depth h.candle
  have account := Account.conveys depth h.account
  have quote := Quote.conveys depth h.quote
  refine conveys_record rfl (by decide) ?_ ?_
  · simp [candle.plain, account.plain, quote.plain]
  · simp [candle.read, account.read, quote.read]

end Tick

/-! ## All types -/

/-- **Everything sendable is read back as it was written.** A value is sendable if its doubles are
finite, its timestamps plain and its integers of the width of their fields. -/
theorem readsBack_wire :
    (∀ c : Candle, c.IsSendable → ReadsBack Candle.encode Candle.decode c) ∧
    (∀ a : Account, a.IsSendable → ReadsBack Account.encode Account.decode a) ∧
    (∀ q : Quote, q.IsSendable → ReadsBack Quote.encode Quote.decode q) ∧
    (∀ t : Tick, t.IsSendable → ReadsBack Tick.encode Tick.decode t) ∧
    (∀ c : Command, c.IsSendable → ReadsBack Command.encode Command.decode c) ∧
    (∀ s : Signal, s.IsSendable → ReadsBack Signal.encode Signal.decode s) ∧
    (∀ v : Verdict, v.IsSendable → ReadsBack Verdict.encode Verdict.decode v) ∧
    (∀ e : PositionEvent, e.IsSendable → ReadsBack PositionEvent.encode PositionEvent.decode e) ∧
    (∀ l : Ladder, l.IsSendable → ReadsBack Ladder.encode Ladder.decode l) ∧
    (∀ s : RiskState, s.IsSendable → ReadsBack RiskState.encode RiskState.decode s) ∧
    (∀ t : TrendState, t.IsSendable → ReadsBack TrendState.encode TrendState.decode t) ∧
    (∀ r : CrossoverReading, r.IsSendable →
      ReadsBack CrossoverReading.encode CrossoverReading.decode r) ∧
    (∀ v : RiskViolation, v.IsSendable → ReadsBack RiskViolation.encode RiskViolation.decode v) ∧
    (∀ s : Settings, s.IsSendable → ReadsBack Settings.encode Settings.decode s) :=
  ⟨fun _ h => (Candle.conveys _ h).readsBack,
    fun _ h => (Account.conveys _ h).readsBack,
    fun _ h => (Quote.conveys _ h).readsBack,
    fun _ h => (Tick.conveys _ h).readsBack,
    fun _ h => (Command.conveys _ h).readsBack,
    fun _ h => (Signal.conveys _ h).readsBack,
    fun _ h => (Verdict.conveys _ h).readsBack,
    fun _ h => (PositionEvent.conveys _ h).readsBack,
    fun _ h => (Ladder.conveys _ h).readsBack,
    fun _ h => (RiskState.conveys _ h).readsBack,
    fun _ h => (TrendState.conveys _ h).readsBack,
    fun _ h => (CrossoverReading.conveys _ h).readsBack,
    fun _ h => (RiskViolation.conveys _ h).readsBack,
    fun _ h => (Settings.conveys _ h).readsBack⟩

/-! ## Ends of the ranges -/

/-- The first second of the years that have four digits. -/
def firstInstant : Timestamp := ⟨-62167219200, 0⟩

/-- The last nanosecond of the years that have four digits. -/
def lastInstant : Timestamp := ⟨253402300799, 999999999⟩

/-- A tick with the largest double and the least, a negative zero and the largest integers. -/
def extremeTick : Tick where
  candle := ⟨firstInstant, 5e-324, 1.7976931348623157e308, -0.0, 0.1, 2 ^ 64 - 1, 2 ^ 32 - 1⟩
  account := ⟨-1.7976931348623157e308, 5e-324, -0.0⟩
  quote := ⟨-0.0, 0.1, 1e-5, 2 ^ 32 - 1⟩
  newDay := true

/-- A position with the largest number, opened in the first second and closed. -/
def extremePosition : Position where
  id := 2 ^ 64 - 1
  direction := .sell
  lots := 5e-324
  openPrice := 1.7976931348623157e308
  stopLoss := -0.0
  takeProfit := 0.1
  levelAtOpen := 2 ^ 64 - 1
  openedAt := firstInstant
  isComplete := true
  isProfit := false
  exitPrice := some 5e-324

/-- The position is closed in the last nanosecond, at the bottom of the ladder. -/
def extremeEvent : PositionEvent :=
  .closed ⟨extremePosition, 5e-324, -0.0, .breakeven, ⟨2 ^ 64 - 1, 0⟩, lastInstant⟩

/-- Settings that are not valid and have the largest integers. -/
def extremeSettings : Settings where
  historyCapacity := 2 ^ 64 - 1
  trend := ⟨-0.0, 1.7976931348623157e308⟩
  crossover := ⟨⟨2 ^ 64 - 1, 2 ^ 64 - 1, .simple⟩, ⟨0, 0, .exponential⟩⟩
  pattern := ⟨5e-324, some 0.1, .band 0.3 0.2⟩
  signal := ⟨false, ⟨-1.0, -0.0, 1e300⟩⟩
  pricing := ⟨0.1, -5e-324⟩
  ladder := ⟨[], [0.1, -0.0]⟩
  risk := ⟨20.0, 0.1, 1e22, 2 ^ 32 - 1⟩
  positions := ⟨false, 2 ^ 64 - 1⟩

theorem firstInstant_isPlain : firstInstant.IsPlain := ⟨by decide, by decide, by decide⟩

theorem lastInstant_isPlain : lastInstant.IsPlain := ⟨by decide, by decide, by decide⟩

theorem extremeTick_isSendable : extremeTick.IsSendable := by
  refine ⟨⟨firstInstant_isPlain, ?_, ?_, ?_, ?_, by decide, by decide⟩, ⟨?_, ?_, ?_⟩,
    ⟨?_, ?_, ?_, by decide⟩⟩ <;> decide +kernel

theorem extremePosition_isSendable : extremePosition.IsSendable := by
  refine ⟨by decide, ?_, ?_, ?_, ?_, by decide, firstInstant_isPlain, ?_⟩ <;> decide +kernel

theorem extremeEvent_isSendable : extremeEvent.IsSendable :=
  ⟨extremePosition_isSendable, by decide +kernel, by decide +kernel, ⟨by decide, by decide⟩,
    lastInstant_isPlain⟩

theorem extremeSettings_isSendable : extremeSettings.IsSendable :=
  ⟨by decide +kernel, by decide, ⟨by decide, by decide⟩, ⟨by decide, by decide⟩, by decide,
    by decide⟩

/-- Values at the ends of their ranges are sendable and are read back. -/
theorem readsBack_wire_extreme :
    extremeTick.IsSendable ∧ extremeEvent.IsSendable ∧ extremeSettings.IsSendable ∧
    ReadsBack Candle.encode Candle.decode extremeTick.candle ∧
    ReadsBack Account.encode Account.decode extremeTick.account ∧
    ReadsBack Quote.encode Quote.decode extremeTick.quote ∧
    ReadsBack Tick.encode Tick.decode extremeTick ∧
    ReadsBack Command.encode Command.decode (.skipToLevel (2 ^ 64 - 1)) ∧
    ReadsBack Signal.encode Signal.decode
      ⟨.sell, 0.1, 5e-324, -0.0, 1.7976931348623157e308, 0.7, lastInstant⟩ ∧
    ReadsBack Verdict.encode Verdict.decode (.rejected
      [.noPreviousVolume, .trendMismatch none .unknown, .volumeTooLow (2 ^ 64 - 1) 0.1,
        .bodyTooLarge 1.7976931348623157e308 5e-324]) ∧
    ReadsBack PositionEvent.encode PositionEvent.decode extremeEvent ∧
    ReadsBack Ladder.encode Ladder.decode
      ⟨2 ^ 64 - 1, [0.1, 5e-324], [], true, some (2 ^ 64 - 1)⟩ ∧
    ReadsBack RiskState.encode RiskState.decode
      ⟨none, some (-0.0), 1.7976931348623157e308, 5e-324, [0.1, -0.0]⟩ ∧
    ReadsBack TrendState.encode TrendState.decode ⟨0.1, -0.0, 5e-324, .unknown, true, 2 ^ 32 - 1⟩ ∧
    ReadsBack CrossoverReading.encode CrossoverReading.decode ⟨none, some (-0.0), some .bearish⟩ ∧
    ReadsBack RiskViolation.encode RiskViolation.decode
      ⟨[.paused, .spread (2 ^ 32 - 1) 0, .dailyLoss 5.1 5e-324]⟩ ∧
    ReadsBack Settings.encode Settings.decode extremeSettings := by
  obtain ⟨candle, account, quote, tick, command, signal, verdict, event, ladder, gate, trend,
    crossover, violation, settings⟩ := readsBack_wire
  have sent := extremeTick_isSendable
  refine ⟨sent, extremeEvent_isSendable, extremeSettings_isSendable, candle _ sent.candle,
    account _ sent.account, quote _ sent.quote, tick _ sent,
    command _ (by decide : 2 ^ 64 - 1 < 2 ^ 64), signal _ ?signal, verdict _ ?verdict,
    event _ extremeEvent_isSendable, ladder _ ?ladder, gate _ ?gate, trend _ ?trend,
    crossover _ ?crossover, violation _ ?violation, settings _ extremeSettings_isSendable⟩
  case signal =>
    exact ⟨by decide +kernel, by decide +kernel, by decide +kernel, by decide +kernel,
      by decide +kernel, lastInstant_isPlain⟩
  case verdict =>
    show ∀ f ∈ _, Flaw.IsSendable f
    decide +kernel
  case ladder => exact ⟨by decide, by decide +kernel, by decide +kernel, by decide⟩
  case gate =>
    exact ⟨by decide +kernel, by decide +kernel, by decide +kernel, by decide +kernel,
      by decide +kernel⟩
  case trend => exact ⟨by decide +kernel, by decide +kernel, by decide +kernel, by decide⟩
  case crossover => exact ⟨by decide +kernel, by decide +kernel⟩
  case violation =>
    show ∀ b ∈ _, Breach.IsSendable b
    decide +kernel

end TrendLadder
