import TrendLadder.Proofs.Document.Json.Plain
import TrendLadder.Proofs.Settings.Reals
import TrendLadder.Settings.Codec

/-!
# Settings on the wire

Settings are conveyed by their document form if their doubles are finite and their integers of the
width of their fields (`Settings.conveys`). They need not be valid, and every section is conveyed
by itself.
-/

namespace TrendLadder

open Value

variable (depth : ℕ)

/-! ## Indicators -/

namespace TrendSettings

theorem conveys {s : TrendSettings} (finite : ∀ x ∈ s.reals, x.isFinite = true) :
    Conveys (depth + 1) s.encode TrendSettings.decode s := by
  simp only [reals, List.forall_mem_cons] at finite
  refine conveys_record rfl (by decide) ?_ ?_
  · simp [isPlain_real, finite]
  · simp

end TrendSettings

theorem AverageMethod.conveys (method : AverageMethod) :
    Conveys depth method.encode AverageMethod.decode method := by
  cases method <;> exact ⟨isPlain_text _, rfl⟩

namespace AverageSettings

/-- The integers of an average have 64 bits. -/
structure IsSendable (s : AverageSettings) : Prop where
  period : s.period < 2 ^ 64
  shift : s.shift < 2 ^ 64

theorem conveys {s : AverageSettings} (h : s.IsSendable) :
    Conveys (depth + 1) s.encode AverageSettings.decode s := by
  have period := conveys_nat depth (by decide) h.period
  have shift := conveys_nat depth (by decide) h.shift
  have method := AverageMethod.conveys depth s.method
  refine conveys_record rfl (by decide) ?_ ?_
  · simp [period.plain, shift.plain, method.plain]
  · simp [period.read, shift.read, method.read]

end AverageSettings

namespace CrossoverSettings

theorem conveys {s : CrossoverSettings} (fast : s.fast.IsSendable) (slow : s.slow.IsSendable) :
    Conveys (depth + 2) s.encode CrossoverSettings.decode s := by
  have fast := AverageSettings.conveys depth fast
  have slow := AverageSettings.conveys depth slow
  refine conveys_record rfl (by decide) ?_ ?_
  · simp [fast.plain, slow.plain]
  · simp [fast.read, slow.read]

end CrossoverSettings

/-! ## Patterns -/

namespace SizeRule

theorem conveys {s : SizeRule} (finite : ∀ x ∈ s.reals, x.isFinite = true) :
    Conveys (depth + 1) s.encode SizeRule.decode s := by
  cases s with
  | minimum baseSize =>
    simp only [reals, List.forall_mem_cons] at finite
    have body : Conveys (depth + 1) (.record [("base_size", .real baseSize)])
        (fun body => (body.fields? ["base_size"]).bind fun f =>
          (f.required "base_size" float?).bind fun base => some (minimum base))
        (minimum baseSize) := by
      refine conveys_record rfl (by decide) ?_ ?_
      · simp [isPlain_real, finite]
      · simp
    exact conveys_tagged (fun told => by simp [decode, told]) (by simp) body
  | band minSize maxSize =>
    simp only [reals, List.forall_mem_cons] at finite
    have body : Conveys (depth + 1)
        (.record [("min_size", .real minSize), ("max_size", .real maxSize)])
        (fun body => (body.fields? ["min_size", "max_size"]).bind fun f =>
          (f.required "min_size" float?).bind fun low =>
            (f.required "max_size" float?).bind fun high => some (band low high))
        (band minSize maxSize) := by
      refine conveys_record rfl (by decide) ?_ ?_
      · simp [isPlain_real, finite]
      · simp
    exact conveys_tagged (fun told => by simp [decode, told]) (by simp) body

end SizeRule

namespace PatternSettings

theorem conveys {s : PatternSettings} (finite : ∀ x ∈ s.reals, x.isFinite = true) :
    Conveys (depth + 2) s.encode PatternSettings.decode s := by
  simp only [reals, List.forall_mem_cons, List.forall_mem_append, Option.mem_toList] at finite
  obtain ⟨ratio, multiplier, rule⟩ := finite
  have multiplier := conveys_optionReal (depth + 1) multiplier
  have rule := SizeRule.conveys depth rule
  refine conveys_record rfl (by decide) ?_ ?_
  · simp [isPlain_real, ratio, multiplier.plain, rule.plain]
  · simp [multiplier.read, rule.read]

end PatternSettings

/-! ## Signals -/

namespace ConfidenceWeights

theorem conveys {s : ConfidenceWeights} (finite : ∀ x ∈ s.reals, x.isFinite = true) :
    Conveys (depth + 1) s.encode ConfidenceWeights.decode s := by
  simp only [reals, List.forall_mem_cons] at finite
  refine conveys_record rfl (by decide) ?_ ?_
  · simp [isPlain_real, finite]
  · simp

end ConfidenceWeights

namespace SignalSettings

theorem conveys {s : SignalSettings} (finite : ∀ x ∈ s.weights.reals, x.isFinite = true) :
    Conveys (depth + 2) s.encode SignalSettings.decode s := by
  have weights := ConfidenceWeights.conveys depth finite
  refine conveys_record rfl (by decide) ?_ ?_
  · simp [weights.plain]
  · simp [weights.read]

end SignalSettings

namespace PricingSettings

theorem conveys {s : PricingSettings} (finite : ∀ x ∈ s.reals, x.isFinite = true) :
    Conveys (depth + 1) s.encode PricingSettings.decode s := by
  simp only [reals, List.forall_mem_cons] at finite
  refine conveys_record rfl (by decide) ?_ ?_
  · simp [isPlain_real, finite]
  · simp

end PricingSettings

/-! ## Limits -/

namespace LadderSettings

theorem conveys {s : LadderSettings} (finite : ∀ x ∈ s.reals, x.isFinite = true) :
    Conveys (depth + 2) s.encode LadderSettings.decode s := by
  simp only [reals, List.forall_mem_append] at finite
  have lots := conveys_listReal depth finite.1
  have ratios := conveys_listReal depth finite.2
  refine conveys_record rfl (by decide) ?_ ?_
  · simp [lots.plain, ratios.plain]
  · simp [lots.read, ratios.read]

end LadderSettings

namespace RiskSettings

theorem conveys {s : RiskSettings} (finite : ∀ x ∈ s.reals, x.isFinite = true)
    (small : s.maxSpreadPoints < 2 ^ 32) :
    Conveys (depth + 1) s.encode RiskSettings.decode s := by
  simp only [reals, List.forall_mem_cons] at finite
  have spread := conveys_nat depth (by decide) small
  refine conveys_record rfl (by decide) ?_ ?_
  · simp [isPlain_real, finite, spread.plain]
  · simp [spread.read]

end RiskSettings

namespace PositionSettings

theorem conveys {s : PositionSettings} (small : s.maxPositions < 2 ^ 64) :
    Conveys (depth + 1) s.encode PositionSettings.decode s := by
  have most := conveys_nat depth (by decide) small
  refine conveys_record rfl (by decide) ?_ ?_
  · simp [most.plain]
  · simp [most.read]

end PositionSettings

/-! ## All sections -/

namespace Settings

/-- The doubles of the settings are finite, and their integers have the width of their fields. -/
structure IsSendable (s : Settings) : Prop where
  reals : ∀ x ∈ s.reals, x.isFinite = true
  historyCapacity : s.historyCapacity < 2 ^ 64
  fast : s.crossover.fast.IsSendable
  slow : s.crossover.slow.IsSendable
  maxSpreadPoints : s.risk.maxSpreadPoints < 2 ^ 32
  maxPositions : s.positions.maxPositions < 2 ^ 64

theorem conveys {s : Settings} (h : s.IsSendable) :
    Conveys (depth + 3) s.encode Settings.decode s := by
  have finite := h.reals
  simp only [Settings.reals, List.forall_mem_append] at finite
  obtain ⟨trend, pattern, weights, pricing, ladder, risk⟩ := finite
  have capacity := conveys_nat (depth + 2) (by decide) h.historyCapacity
  have trend := TrendSettings.conveys (depth + 1) trend
  have crossover := CrossoverSettings.conveys depth h.fast h.slow
  have pattern := PatternSettings.conveys depth pattern
  have signal := SignalSettings.conveys depth weights
  have pricing := PricingSettings.conveys (depth + 1) pricing
  have ladder := LadderSettings.conveys depth ladder
  have risk := RiskSettings.conveys (depth + 1) risk h.maxSpreadPoints
  have positions := PositionSettings.conveys (depth + 1) h.maxPositions
  refine conveys_record rfl (by decide) ?_ ?_
  · simp [capacity.plain, trend.plain, crossover.plain, pattern.plain, signal.plain, pricing.plain,
      ladder.plain, risk.plain, positions.plain]
  · simp [capacity.read, trend.read, crossover.read, pattern.read, signal.read, pricing.read,
      ladder.read, risk.read, positions.read]

end Settings

end TrendLadder
