import TrendLadder.Proofs.Document.Selection
import TrendLadder.Proofs.Settings.Fingerprint
import TrendLadder.Proofs.Wire

/-!
# Partial settings

A document of settings need not have all fields. What is left out takes a standard value, so the
part that is kept lies over the standard settings (`Settings.overlay`). A moving average and a size
rule have no standard values for their own fields and have to be whole where they are present
(`Settings.IsWhole`), but for the shift of an average, which is zero where it is left out.

Each section is taken for its overlay exactly if it is whole and its doubles are finite, since a
text has a null for any other double. `Settings.readPart_iff` puts the sections together.
-/

namespace TrendLadder

open Json Value

variable {keep : Selection}

/-! ## Indicators -/

namespace TrendSettings

/-- The fields that are kept, over the standard ones. -/
def overlay (keep : Selection) (s : TrendSettings) : TrendSettings where
  step := if keep ["step"] then s.step else standard.step
  maximum := if keep ["maximum"] then s.maximum else standard.maximum

theorem takes_part (s : TrendSettings) : Takes (decode (s.encode.part keep))
    ((s.encode.select keep).isFinite = true) (s.overlay keep) := by
  refine takes_record rfl (by decide) (.bind (takes_orElse rfl (takes_real _) _)
    (.bind (takes_orElse rfl (takes_real _) _) (takes_some _))) ?_
  simp [encode]

end TrendSettings

theorem AverageMethod.takes_part (method : AverageMethod) :
    Takes (AverageMethod.decode (method.encode.part keep)) True method := by
  cases method <;> exact takes_some _

namespace AverageSettings

/-- An average that is present still has its period and its method. -/
def IsWhole (keep : Selection) : Prop := keep ["period"] = true ∧ keep ["method"] = true

/-- The average without the shift if that is left out. -/
def overlay (keep : Selection) (s : AverageSettings) : AverageSettings where
  period := s.period
  shift := if keep ["shift"] then s.shift else 0
  method := s.method

theorem takes_part {s : AverageSettings} (sized : s.IsSendable) :
    Takes (decode (s.encode.part keep)) (IsWhole keep) (s.overlay keep) := by
  refine takes_record rfl (by decide) (.bind (takes_required rfl (takes_nat sized.period))
    (.bind (takes_orElse rfl (takes_nat sized.shift) _)
      (.bind (takes_required rfl s.method.takes_part) (takes_some _)))) ?_
  simp [IsWhole]

end AverageSettings

namespace CrossoverSettings

/-- Each average is whole if it is present. -/
structure IsWhole (keep : Selection) : Prop where
  fast : keep ["fast"] = true → AverageSettings.IsWhole (keep.under "fast")
  slow : keep ["slow"] = true → AverageSettings.IsWhole (keep.under "slow")

/-- The averages that are present, over the standard ones. -/
def overlay (keep : Selection) (s : CrossoverSettings) : CrossoverSettings where
  fast := if keep ["fast"] then s.fast.overlay (keep.under "fast") else standard.fast
  slow := if keep ["slow"] then s.slow.overlay (keep.under "slow") else standard.slow

theorem takes_part {s : CrossoverSettings} (fast : s.fast.IsSendable) (slow : s.slow.IsSendable) :
    Takes (decode (s.encode.part keep)) (IsWhole keep) (s.overlay keep) := by
  refine takes_record rfl (by decide) (.bind (takes_orElse rfl (AverageSettings.takes_part fast) _)
    (.bind (takes_orElse rfl (AverageSettings.takes_part slow) _) (takes_some _))) ?_
  rw [and_true]
  exact ⟨fun whole => ⟨whole.1, whole.2⟩, fun whole => ⟨whole.fast, whole.slow⟩⟩

theorem isFinite_select_encode (s : CrossoverSettings) :
    (s.encode.select keep).isFinite = true := by
  have method (keep : Selection) (m : AverageMethod) : (m.encode.select keep).isFinite = true := by
    cases m <;> rfl
  simp [encode, AverageSettings.encode, method]

end CrossoverSettings

/-! ## Patterns -/

namespace SizeRule

/-- The names of the bounds. -/
def boundNames : SizeRule → List String
  | .minimum _ => ["base_size"]
  | .band _ _ => ["min_size", "max_size"]

/-- A rule that is present still has its kind and its bounds. -/
def IsWhole (keep : Selection) (r : SizeRule) : Prop :=
  ∀ name ∈ "rule" :: r.boundNames, keep [name] = true

theorem takes_part (r : SizeRule) : Takes (decode (r.encode.part keep))
    (r.IsWhole keep ∧ (r.encode.select keep).isFinite = true) r := by
  cases r with
  | minimum baseSize =>
    have whole : IsWhole keep (.minimum baseSize) ↔
        keep ["rule"] = true ∧ keep ["base_size"] = true := by
      simp [IsWhole, boundNames]
    have finite : ((SizeRule.minimum baseSize).encode.select keep).isFinite = true ↔
        (keep ["base_size"] = true → baseSize.isFinite = true) := by
      simp [encode, ofTagged]
    refine takes_tagged (by simp) (takes_record rfl (by decide)
      (.bind (takes_required rfl (takes_real baseSize)) (takes_some _)) .rfl) ?_
    rw [whole, finite]
    grind
  | band minSize maxSize =>
    have whole : IsWhole keep (.band minSize maxSize) ↔
        keep ["rule"] = true ∧ keep ["min_size"] = true ∧ keep ["max_size"] = true := by
      simp [IsWhole, boundNames]
    have finite : ((SizeRule.band minSize maxSize).encode.select keep).isFinite = true ↔
        (keep ["min_size"] = true → minSize.isFinite = true) ∧
        (keep ["max_size"] = true → maxSize.isFinite = true) := by
      simp [encode, ofTagged]
    refine takes_tagged (by simp) (takes_record rfl (by decide)
      (.bind (takes_required rfl (takes_real minSize))
        (.bind (takes_required rfl (takes_real maxSize)) (takes_some _))) .rfl) ?_
    rw [whole, finite]
    grind

end SizeRule

namespace PatternSettings

/-- The size rule is whole if it is present. -/
def IsWhole (keep : Selection) (s : PatternSettings) : Prop :=
  keep ["size"] = true → s.size.IsWhole (keep.under "size")

/-- The fields that are kept, over the standard ones. A multiplier that is not finite counts as
none. -/
def overlay (keep : Selection) (s : PatternSettings) : PatternSettings where
  maxWickRatio := if keep ["max_wick_ratio"] then s.maxWickRatio else standard.maxWickRatio
  minVolumeMultiplier :=
    if keep ["min_volume_multiplier"] then s.minVolumeMultiplier.filter Float.isFinite
    else standard.minVolumeMultiplier
  size := if keep ["size"] then s.size else standard.size

/-- The section without the multiplier, the only double that a reader takes a null for. -/
def withoutMultiplier (s : PatternSettings) : PatternSettings :=
  { s with minVolumeMultiplier := none }

theorem takes_part (s : PatternSettings) : Takes (decode (s.encode.part keep))
    (s.IsWhole keep ∧ (s.withoutMultiplier.encode.select keep).isFinite = true)
    (s.overlay keep) := by
  have finite : (s.withoutMultiplier.encode.select keep).isFinite = true ↔
      (keep ["max_wick_ratio"] = true → s.maxWickRatio.isFinite = true) ∧
      (keep ["size"] = true → (s.size.encode.select (keep.under "size")).isFinite = true) := by
    simp [encode, withoutMultiplier, ofOption]
  refine takes_record rfl (by decide) (.bind (takes_orElse rfl (takes_real _) _)
    (.bind (takes_orElse rfl (takes_optionReal _) _)
      (.bind (takes_orElse rfl s.size.takes_part _) (takes_some _)))) ?_
  rw [IsWhole, finite]
  grind

end PatternSettings

/-! ## Signals -/

namespace ConfidenceWeights

def overlay (keep : Selection) (s : ConfidenceWeights) : ConfidenceWeights where
  trend := if keep ["trend"] then s.trend else standard.trend
  crossover := if keep ["crossover"] then s.crossover else standard.crossover
  pattern := if keep ["pattern"] then s.pattern else standard.pattern

theorem takes_part (s : ConfidenceWeights) : Takes (decode (s.encode.part keep))
    ((s.encode.select keep).isFinite = true) (s.overlay keep) := by
  refine takes_record rfl (by decide) (.bind (takes_orElse rfl (takes_real _) _)
    (.bind (takes_orElse rfl (takes_real _) _)
      (.bind (takes_orElse rfl (takes_real _) _) (takes_some _)))) ?_
  simp [encode]

end ConfidenceWeights

namespace SignalSettings

def overlay (keep : Selection) (s : SignalSettings) : SignalSettings where
  requireGoldenCandle :=
    if keep ["require_golden_candle"] then s.requireGoldenCandle else standard.requireGoldenCandle
  weights := if keep ["weights"] then s.weights.overlay (keep.under "weights") else standard.weights

theorem takes_part (s : SignalSettings) : Takes (decode (s.encode.part keep))
    ((s.encode.select keep).isFinite = true) (s.overlay keep) := by
  refine takes_record rfl (by decide) (.bind (takes_orElse rfl (takes_bool _) _)
    (.bind (takes_orElse rfl s.weights.takes_part _) (takes_some _))) ?_
  simp [encode]

end SignalSettings

namespace PricingSettings

def overlay (keep : Selection) (s : PricingSettings) : PricingSettings where
  entryOffsetPoints :=
    if keep ["entry_offset_points"] then s.entryOffsetPoints else standard.entryOffsetPoints
  stopLossPoints :=
    if keep ["stop_loss_points"] then s.stopLossPoints else standard.stopLossPoints

theorem takes_part (s : PricingSettings) : Takes (decode (s.encode.part keep))
    ((s.encode.select keep).isFinite = true) (s.overlay keep) := by
  refine takes_record rfl (by decide) (.bind (takes_orElse rfl (takes_real _) _)
    (.bind (takes_orElse rfl (takes_real _) _) (takes_some _))) ?_
  simp [encode]

end PricingSettings

/-! ## Limits -/

namespace LadderSettings

def overlay (keep : Selection) (s : LadderSettings) : LadderSettings where
  lots := if keep ["lot_table"] then s.lots else standard.lots
  rewardRatios := if keep ["rr_table"] then s.rewardRatios else standard.rewardRatios

theorem takes_part (s : LadderSettings) : Takes (decode (s.encode.part keep))
    ((s.encode.select keep).isFinite = true) (s.overlay keep) := by
  refine takes_record rfl (by decide) (.bind (takes_orElse rfl (takes_listReal _) _)
    (.bind (takes_orElse rfl (takes_listReal _) _) (takes_some _))) ?_
  simp [encode]

end LadderSettings

namespace RiskSettings

def overlay (keep : Selection) (s : RiskSettings) : RiskSettings where
  maxDrawdownPct := if keep ["max_drawdown_pct"] then s.maxDrawdownPct else standard.maxDrawdownPct
  maxDailyLossPct :=
    if keep ["max_daily_loss_pct"] then s.maxDailyLossPct else standard.maxDailyLossPct
  marginMinimumPct :=
    if keep ["margin_minimum_pct"] then s.marginMinimumPct else standard.marginMinimumPct
  maxSpreadPoints :=
    if keep ["max_spread_points"] then s.maxSpreadPoints else standard.maxSpreadPoints

theorem takes_part {s : RiskSettings} (small : s.maxSpreadPoints < 2 ^ 32) :
    Takes (decode (s.encode.part keep)) ((s.encode.select keep).isFinite = true)
      (s.overlay keep) := by
  refine takes_record rfl (by decide) (.bind (takes_orElse rfl (takes_real _) _)
    (.bind (takes_orElse rfl (takes_real _) _) (.bind (takes_orElse rfl (takes_real _) _)
      (.bind (takes_orElse rfl (takes_nat small) _) (takes_some _))))) ?_
  simp [encode]

end RiskSettings

namespace PositionSettings

def overlay (keep : Selection) (s : PositionSettings) : PositionSettings where
  oneTradeAtATime :=
    if keep ["one_trade_at_a_time"] then s.oneTradeAtATime else standard.oneTradeAtATime
  maxPositions := if keep ["max_positions"] then s.maxPositions else standard.maxPositions

theorem takes_part {s : PositionSettings} (small : s.maxPositions < 2 ^ 64) :
    Takes (decode (s.encode.part keep)) True (s.overlay keep) := by
  refine takes_record rfl (by decide) (.bind (takes_orElse rfl (takes_bool _) _)
    (.bind (takes_orElse rfl (takes_nat small) _) (takes_some _))) ?_
  simp

theorem isFinite_select_encode (s : PositionSettings) :
    (s.encode.select keep).isFinite = true := by
  simp [encode]

end PositionSettings

/-! ## All sections -/

namespace Settings

/-- The averages and the size rule are whole wherever they are present. -/
structure IsWhole (keep : Selection) (s : Settings) : Prop where
  crossover : keep ["crossover"] = true → CrossoverSettings.IsWhole (keep.under "crossover")
  pattern : keep ["pattern"] = true → s.pattern.IsWhole (keep.under "pattern")

/-- The sections and fields that are kept, over the standard ones. -/
def overlay (keep : Selection) (s : Settings) : Settings where
  historyCapacity :=
    if keep ["history_capacity"] then s.historyCapacity else standard.historyCapacity
  trend := if keep ["trend"] then s.trend.overlay (keep.under "trend") else standard.trend
  crossover :=
    if keep ["crossover"] then s.crossover.overlay (keep.under "crossover") else standard.crossover
  pattern := if keep ["pattern"] then s.pattern.overlay (keep.under "pattern") else standard.pattern
  signal := if keep ["signal"] then s.signal.overlay (keep.under "signal") else standard.signal
  pricing := if keep ["pricing"] then s.pricing.overlay (keep.under "pricing") else standard.pricing
  ladder := if keep ["money"] then s.ladder.overlay (keep.under "money") else standard.ladder
  risk := if keep ["risk"] then s.risk.overlay (keep.under "risk") else standard.risk
  positions :=
    if keep ["positions"] then s.positions.overlay (keep.under "positions") else standard.positions

def withoutMultiplier (s : Settings) : Settings := { s with pattern := s.pattern.withoutMultiplier }

theorem takes_part {s : Settings} (sized : s.Sized) (fast : s.crossover.fast.IsSendable)
    (slow : s.crossover.slow.IsSendable) : Takes (decode (s.encode.part keep))
      (s.IsWhole keep ∧ (s.withoutMultiplier.encode.select keep).isFinite = true)
      (s.overlay keep) := by
  refine takes_record rfl (by decide)
    (.bind (takes_orElse rfl (takes_nat sized.historyCapacity) _)
    (.bind (takes_orElse rfl s.trend.takes_part _)
    (.bind (takes_orElse rfl (CrossoverSettings.takes_part fast slow) _)
    (.bind (takes_orElse rfl s.pattern.takes_part _)
    (.bind (takes_orElse rfl s.signal.takes_part _)
    (.bind (takes_orElse rfl s.pricing.takes_part _)
    (.bind (takes_orElse rfl s.ladder.takes_part _)
    (.bind (takes_orElse rfl (RiskSettings.takes_part sized.maxSpreadPoints) _)
    (.bind (takes_orElse rfl (PositionSettings.takes_part sized.maxPositions) _)
      (takes_some _)))))))))) ?_
  -- The averages and the position limits ask for no finite double, the others for nothing to be
  -- whole, and the patterns for both.
  constructor
  · rintro ⟨-, trend, crossover, pattern, signal, pricing, ladder, risk, -⟩
    refine ⟨⟨crossover, fun kept => (pattern kept).1⟩, ?_⟩
    simp only [encode, withoutMultiplier, isFinite_select_record, fieldsFinite_selectFields_cons]
    exact ⟨fun _ => rfl, trend, fun _ => s.crossover.isFinite_select_encode,
      fun kept => (pattern kept).2, signal, pricing, ladder, risk,
      fun _ => s.positions.isFinite_select_encode, rfl⟩
  · rintro ⟨whole, finite⟩
    simp only [encode, withoutMultiplier, isFinite_select_record, fieldsFinite_selectFields_cons]
      at finite
    obtain ⟨-, trend, -, pattern, signal, pricing, ladder, risk, -⟩ := finite
    exact ⟨fun _ => trivial, trend, whole.crossover,
      fun kept => ⟨whole.pattern kept, pattern kept⟩, signal, pricing, ladder, risk,
      fun _ => trivial, trivial⟩

/-- The settings that are read from a text with the kept fields of the form of some settings. -/
def readPart (keep : Selection) (s : Settings) : Option Settings :=
  (Json.read (Json.write (s.encode.select keep))).bind decode

theorem readPart_eq {s : Settings} (sized : s.Sized) (fast : s.crossover.fast.IsSendable)
    (slow : s.crossover.slow.IsSendable) (keep : Selection) :
    s.readPart keep = decode (s.encode.part keep) := by
  have fit : fits maxDepth s.encode = true := by
    refine fits_encode_of_sized sized ?_
    simp only [List.forall_mem_cons]
    exact ⟨⟨fast.period, fast.shift⟩, ⟨slow.period, slow.shift⟩, nofun⟩
  rw [readPart, Json.read_write (fits_select s.encode keep fit)]
  rfl

/-- **Partial settings are overlays on the standard ones.** The part of settings that is kept is
read exactly if every average and the size rule are whole where they are present and every kept
double but the multiplier is finite. What is read has the kept fields of the settings, the standard
value of every section and field that is left out, and no shift where that is left out. -/
theorem readPart_iff {s : Settings} (sized : s.Sized) (fast : s.crossover.fast.IsSendable)
    (slow : s.crossover.slow.IsSendable) (keep : Selection) (t : Settings) :
    s.readPart keep = some t ↔
      (s.IsWhole keep ∧ (s.withoutMultiplier.encode.select keep).isFinite = true) ∧
        t = s.overlay keep := by
  rw [readPart_eq sized fast slow, takes_part sized fast slow t, eq_comm]

/-- A document without fields stands for the standard settings. -/
example (s : Settings) : s.overlay (fun _ => false) = standard := rfl

/-- Settings that differ from the standard ones in every section. -/
def unlikeStandard : Settings :=
  { extremeSettings with crossover := ⟨⟨9, 2, .simple⟩, ⟨21, 5, .simple⟩⟩ }

/-- All fields but five, on three levels. -/
def fewerFields : Selection := fun path =>
  !([["trend", "step"], ["crossover", "fast"], ["crossover", "slow", "shift"],
    ["pattern", "min_volume_multiplier"], ["risk"]].contains path)

/-- The average that is left out is the standard one, and the one that is present loses its shift,
though the standard one has a shift. -/
theorem readPart_iff_fewer :
    unlikeStandard.Sized ∧ unlikeStandard.crossover.fast.IsSendable ∧
    unlikeStandard.crossover.slow.IsSendable ∧
    unlikeStandard.readPart fewerFields = some { unlikeStandard with
      trend := ⟨TrendSettings.standard.step, unlikeStandard.trend.maximum⟩
      crossover := ⟨CrossoverSettings.standard.fast, ⟨21, 0, .simple⟩⟩
      pattern := { unlikeStandard.pattern with minVolumeMultiplier := none }
      risk := .standard } := by
  have sized : unlikeStandard.Sized := ⟨by decide, by decide, by decide⟩
  have fast : unlikeStandard.crossover.fast.IsSendable := ⟨by decide, by decide⟩
  have slow : unlikeStandard.crossover.slow.IsSendable := ⟨by decide, by decide⟩
  have whole : unlikeStandard.IsWhole fewerFields := by
    refine ⟨fun _ => ⟨fun kept => absurd kept (by decide), fun _ => ⟨rfl, rfl⟩⟩, fun _ _ => ?_⟩
    show ∀ name ∈ ["rule", "min_size", "max_size"], fewerFields ["pattern", "size", name] = true
    decide
  have finite : (unlikeStandard.withoutMultiplier.encode.select fewerFields).isFinite = true := by
    decide +kernel
  refine ⟨sized, fast, slow, (readPart_iff sized fast slow fewerFields _).mpr ⟨⟨whole, finite⟩, ?_⟩⟩
  decide +kernel

/-- A text has a null for an infinite weight, and no weight is read from a null: valid settings are
not read from their own form, though no field of it is left out. -/
theorem readPart_infinite :
    (varied (1.0 / 0.0) 0.0).validate = .ok () ∧
    (varied (1.0 / 0.0) 0.0).encode.select (fun _ => true) = (varied (1.0 / 0.0) 0.0).encode ∧
    (varied (1.0 / 0.0) 0.0).IsWhole (fun _ => true) ∧
    (varied (1.0 / 0.0) 0.0).readPart (fun _ => true) = none := by
  have fast : (varied (1.0 / 0.0) 0.0).crossover.fast.IsSendable := ⟨by decide, by decide⟩
  have slow : (varied (1.0 / 0.0) 0.0).crossover.slow.IsSendable := ⟨by decide, by decide⟩
  have sized := sized_varied (1.0 / 0.0) 0.0
  refine ⟨by decide +kernel, rfl, ⟨fun _ => ⟨fun _ => ⟨rfl, rfl⟩, fun _ => ⟨rfl, rfl⟩⟩,
    fun _ _ _ _ => rfl⟩, ?_⟩
  rw [readPart_eq sized fast slow]
  exact (takes_part sized fast slow).eq_none fun taken => absurd taken.2 (by decide +kernel)

end Settings

end TrendLadder
