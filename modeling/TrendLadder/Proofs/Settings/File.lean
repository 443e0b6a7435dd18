import TrendLadder.Proofs.Document.Toml.Block
import TrendLadder.Proofs.Document.Value
import TrendLadder.Proofs.Settings.Valid
import TrendLadder.Settings.File
import TrendLadder.Settings.Fingerprint

/-!
# Settings files read back

Valid settings are written to a file, if their integers fit the format, and reading the file gives
the same settings (`Settings.ofToml_toToml`).
-/

namespace TrendLadder

open Toml Value

/-! ## Writing -/

/-- The integers of settings fit: the spread into its field of 32 bits, the others into the signed
integers of a file, which are narrower than their fields. -/
structure Settings.Fits (s : Settings) : Prop where
  historyCapacity : s.historyCapacity < 2 ^ 63
  maxPositions : s.positions.maxPositions < 2 ^ 63
  maxSpreadPoints : s.risk.maxSpreadPoints < 2 ^ 32

@[simp] theorem isTidy_real (depth : ℕ) (x : Float) : isTidy depth (.real x) = true := rfl

@[simp] theorem isTidy_bool (depth : ℕ) (b : Bool) : isTidy depth (.bool b) = true := rfl

theorem isTidy_ofNat {n : ℕ} (h : n < 2 ^ 63) (depth : ℕ) : isTidy depth (ofNat n) = true := by
  show inRange n = true
  simp only [inRange, Bool.and_eq_true, decide_eq_true_eq]
  have bound : Int.pow 2 63 = 2 ^ 63 := rfl
  rw [bound]
  omega

@[simp] theorem isTidy_reals (depth : ℕ) (xs : List Float) :
    isTidy depth (.list true (xs.map .real)) = true := by
  show (xs.map Value.real).all isItem = true
  simp [isItem]

theorem isTidy_text {t : String} (plain : t.toList.all isPlainChar = true) (depth : ℕ) :
    isTidy depth (.text t) = true := plain

@[simp] theorem isTidy_method (depth : ℕ) (method : AverageMethod) :
    isTidy depth method.encode = true := by
  cases method <;> exact isTidy_text (by decide) depth

@[simp] theorem isTidy_option (depth : ℕ) (x : Option Float) :
    isTidy depth (ofOption .real x) = true := by
  cases x <;> rfl

/-- A section whose first field is kept is tidy if its fields are. -/
theorem isTidy_section (names : List String) {depth : ℕ} {f : String × Value}
    {fields : List (String × Value)} (hnames : (f :: fields).map Prod.fst = names)
    (good : names.Nodup ∧ ∀ n ∈ names, isBareKey n = true) (shallow : depth < maxParts)
    (first : isLeaf f.2 = true ∨ isTable f.2 = true)
    (inner : fieldsTidy (depth + 1) (f :: fields) = true) :
    isTidy depth (.record (f :: fields)) = true := by
  subst hnames
  exact isTidy_record.mpr ⟨shallow, good.1, fun g hg => good.2 g.1 (List.mem_map_of_mem hg),
    .inr ⟨f, List.mem_cons_self, first⟩, inner⟩

section

variable {depth : ℕ} (shallow : depth < maxParts)
include shallow

theorem TrendSettings.isTidy_encode (s : TrendSettings) : isTidy depth s.encode = true :=
  isTidy_section ["step", "maximum"] rfl (by decide) shallow (.inl rfl)
    (by simp [fieldsTidy])

theorem AverageSettings.isTidy_encode {s : AverageSettings} (h : s.window < 2 ^ 63) :
    isTidy depth s.encode = true := by
  unfold window at h
  refine isTidy_section ["period", "shift", "method"] rfl (by decide) shallow
    (.inl rfl) ?_
  simp [fieldsTidy, isTidy_ofNat (by omega : s.period < 2 ^ 63),
    isTidy_ofNat (by omega : s.shift < 2 ^ 63)]

theorem CrossoverSettings.isTidy_encode (shallow' : depth + 1 < maxParts) {s : CrossoverSettings}
    (fast : s.fast.window < 2 ^ 63) (slow : s.slow.window < 2 ^ 63) :
    isTidy depth s.encode = true :=
  isTidy_section ["fast", "slow"] rfl (by decide) shallow (.inr rfl)
    (by simp [fieldsTidy, AverageSettings.isTidy_encode shallow' fast,
      AverageSettings.isTidy_encode shallow' slow])

theorem SizeRule.isTidy_encode (rule : SizeRule) : isTidy depth rule.encode = true := by
  cases rule with
  | minimum baseSize =>
    exact isTidy_section ["rule", "base_size"] rfl (by decide) shallow (.inl rfl)
      (by simp [fieldsTidy, isTidy_text (t := "minimum") (by decide)])
  | band minSize maxSize =>
    exact isTidy_section ["rule", "min_size", "max_size"] rfl (by decide) shallow
      (.inl rfl) (by simp [fieldsTidy, isTidy_text (t := "band") (by decide)])

theorem PatternSettings.isTidy_encode (shallow' : depth + 1 < maxParts) (s : PatternSettings) :
    isTidy depth s.encode = true :=
  isTidy_section ["max_wick_ratio", "min_volume_multiplier", "size"] rfl (by decide)
    shallow (.inl rfl) (by simp [fieldsTidy, SizeRule.isTidy_encode shallow'])

theorem ConfidenceWeights.isTidy_encode (s : ConfidenceWeights) : isTidy depth s.encode = true :=
  isTidy_section ["trend", "crossover", "pattern"] rfl (by decide) shallow (.inl rfl)
    (by simp [fieldsTidy])

theorem SignalSettings.isTidy_encode (shallow' : depth + 1 < maxParts) (s : SignalSettings) :
    isTidy depth s.encode = true :=
  isTidy_section ["require_golden_candle", "weights"] rfl (by decide) shallow (.inl rfl)
    (by simp [fieldsTidy, ConfidenceWeights.isTidy_encode shallow'])

theorem PricingSettings.isTidy_encode (s : PricingSettings) : isTidy depth s.encode = true :=
  isTidy_section ["entry_offset_points", "stop_loss_points"] rfl (by decide) shallow
    (.inl rfl) (by simp [fieldsTidy])

theorem LadderSettings.isTidy_encode (s : LadderSettings) : isTidy depth s.encode = true :=
  isTidy_section ["lot_table", "rr_table"] rfl (by decide) shallow (.inl rfl)
    (by simp [fieldsTidy])

theorem RiskSettings.isTidy_encode {s : RiskSettings} (h : s.maxSpreadPoints < 2 ^ 63) :
    isTidy depth s.encode = true :=
  isTidy_section
    ["max_drawdown_pct", "max_daily_loss_pct", "margin_minimum_pct", "max_spread_points"]
    rfl (by decide) shallow (.inl rfl) (by simp [fieldsTidy, isTidy_ofNat h])

theorem PositionSettings.isTidy_encode {s : PositionSettings} (h : s.maxPositions < 2 ^ 63) :
    isTidy depth s.encode = true :=
  isTidy_section ["one_trade_at_a_time", "max_positions"] rfl (by decide) shallow
    (.inl rfl) (by simp [fieldsTidy, isTidy_ofNat h])

end

/-- Valid settings that fit are tidy as a record. -/
theorem Settings.isTidy_encode {s : Settings} (valid : s.faults = []) (fits : s.Fits) :
    isTidy 0 s.encode = true := by
  obtain ⟨_, _, room⟩ := Settings.averages_of_faults valid
  have capacity := fits.historyCapacity
  have spread := fits.maxSpreadPoints
  refine isTidy_section ["history_capacity", "trend", "crossover", "pattern", "signal",
    "pricing", "money", "risk", "positions"] rfl (by decide) (by decide) (.inl rfl) ?_
  have one : 1 < maxParts := by decide
  have two : 1 + 1 < maxParts := by decide
  simp [fieldsTidy, isTidy_ofNat capacity, TrendSettings.isTidy_encode one,
    CrossoverSettings.isTidy_encode one two (s := s.crossover) (by omega) (by omega),
    PatternSettings.isTidy_encode one two, SignalSettings.isTidy_encode one two,
    PricingSettings.isTidy_encode one, LadderSettings.isTidy_encode one,
    RiskSettings.isTidy_encode one (s := s.risk) (by omega),
    PositionSettings.isTidy_encode one fits.maxPositions]

/-! ## Reading -/

theorem TrendSettings.decode_kept (s : TrendSettings) : decode (kept s.encode) = some s := rfl

theorem AverageMethod.decode_encode (method : AverageMethod) :
    decode method.encode = some method := by
  cases method <;> rfl

theorem AverageSettings.kept_encode (s : AverageSettings) : kept s.encode = s.encode := by
  obtain ⟨_, _, method⟩ := s
  cases method <;> rfl

theorem AverageSettings.decode_kept {s : AverageSettings} (h : s.window < 2 ^ 63) :
    decode (kept s.encode) = some s := by
  unfold window at h
  rw [kept_encode]
  show ((nat? 64 (ofNat s.period)).bind fun period => (nat? 64 (ofNat s.shift)).bind fun shift =>
    (AverageMethod.decode s.method.encode).bind fun method => some ⟨period, shift, method⟩) = some s
  rw [nat?_ofNat (by omega), nat?_ofNat (by omega), AverageMethod.decode_encode]
  rfl

theorem CrossoverSettings.decode_kept {s : CrossoverSettings} (fast : s.fast.window < 2 ^ 63)
    (slow : s.slow.window < 2 ^ 63) : decode (kept s.encode) = some s := by
  show ((AverageSettings.decode (kept s.fast.encode)).bind fun fast =>
    (AverageSettings.decode (kept s.slow.encode)).bind fun slow => some ⟨fast, slow⟩) = some s
  rw [AverageSettings.decode_kept fast, AverageSettings.decode_kept slow]
  rfl

theorem PatternSettings.decode_kept (s : PatternSettings) : decode (kept s.encode) = some s := by
  obtain ⟨_, multiplier, rule⟩ := s
  cases multiplier <;> cases rule <;> rfl

theorem SignalSettings.decode_kept (s : SignalSettings) : decode (kept s.encode) = some s := rfl

theorem PricingSettings.decode_kept (s : PricingSettings) : decode (kept s.encode) = some s := rfl

theorem LadderSettings.decode_kept (s : LadderSettings) : decode (kept s.encode) = some s := by
  show (((s.lots.map Value.real).mapM float?).bind fun lots =>
    ((s.rewardRatios.map Value.real).mapM float?).bind fun ratios => some ⟨lots, ratios⟩) = some s
  rw [mapM_map fun x _ => float?_real x, mapM_map fun x _ => float?_real x]
  rfl

theorem RiskSettings.decode_kept {s : RiskSettings} (h : s.maxSpreadPoints < 2 ^ 32) :
    decode (kept s.encode) = some s := by
  show ((nat? 32 (ofNat s.maxSpreadPoints)).bind fun spread =>
    some ⟨s.maxDrawdownPct, s.maxDailyLossPct, s.marginMinimumPct, spread⟩) = some s
  rw [nat?_ofNat h]
  rfl

theorem PositionSettings.decode_kept {s : PositionSettings} (h : s.maxPositions < 2 ^ 63) :
    decode (kept s.encode) = some s := by
  show ((nat? 64 (ofNat s.maxPositions)).bind fun most => some ⟨s.oneTradeAtATime, most⟩) = some s
  rw [nat?_ofNat (by omega)]
  rfl

/-- What is kept of valid settings that fit is read as the settings. -/
theorem Settings.decode_kept {s : Settings} (valid : s.faults = []) (fits : s.Fits) :
    decode (kept s.encode) = some s := by
  obtain ⟨_, _, room⟩ := Settings.averages_of_faults valid
  have capacity := fits.historyCapacity
  show ((nat? 64 (ofNat s.historyCapacity)).bind fun historyCapacity =>
    (TrendSettings.decode (kept s.trend.encode)).bind fun trend =>
    (CrossoverSettings.decode (kept s.crossover.encode)).bind fun crossover =>
    (PatternSettings.decode (kept s.pattern.encode)).bind fun pattern =>
    (SignalSettings.decode (kept s.signal.encode)).bind fun signal =>
    (PricingSettings.decode (kept s.pricing.encode)).bind fun pricing =>
    (LadderSettings.decode (kept s.ladder.encode)).bind fun ladder =>
    (RiskSettings.decode (kept s.risk.encode)).bind fun risk =>
    (PositionSettings.decode (kept s.positions.encode)).bind fun positions =>
      some ⟨historyCapacity, trend, crossover, pattern, signal, pricing, ladder, risk, positions⟩) =
    some s
  rw [nat?_ofNat (by omega), TrendSettings.decode_kept,
    CrossoverSettings.decode_kept (by omega) (by omega), PatternSettings.decode_kept,
    SignalSettings.decode_kept, PricingSettings.decode_kept, LadderSettings.decode_kept,
    RiskSettings.decode_kept fits.maxSpreadPoints, PositionSettings.decode_kept fits.maxPositions]
  rfl

/-! ## Round trip -/

/-- **Valid settings whose integers fit are written to a file, and reading the file gives the same
settings**, and so the same fingerprint. -/
theorem Settings.ofToml_toToml {s : Settings} (valid : s.validate = .ok ()) (fits : s.Fits) :
    ∃ content, s.toToml = .ok content ∧ ofToml content = .ok s ∧
      (ofToml content).map fingerprint = .ok s.fingerprint := by
  have faults : s.faults = [] := firstFault_eq_ok.mp valid
  obtain ⟨content, written, read⟩ := exists_write (v := s.encode) rfl (isTidy_encode faults fits)
  have decoded : (Toml.read content).bind decode = some s := by
    rw [read, Option.bind_some, decode_kept faults fits]
  have back : ofToml content = .ok s := by
    rw [ofToml, decoded]
    dsimp only
    rw [valid]
    rfl
  refine ⟨content, ?_, back, ?_⟩
  · rw [toToml, written, Option.elim_some]
  · rw [back]
    rfl

/-- Settings with an infinite cap, a weight that is not a number and one that is a negative zero, a
band of sizes, a multiplier, a table of two levels and the largest integers of a file. -/
def unusualSettings : Settings where
  historyCapacity := 2 ^ 63 - 1
  trend := ⟨0.1, 1.0 / 0.0⟩
  crossover := ⟨⟨2 ^ 62, 2 ^ 62 - 1, .simple⟩, ⟨1, 0, .exponential⟩⟩
  pattern := ⟨0.5, some 1.5, .band 1e-7 1e300⟩
  signal := ⟨false, ⟨0.0 / 0.0, -0.0, -1.0 / 0.0⟩⟩
  pricing := ⟨0.0, 10000.0⟩
  ladder := ⟨[0.01, 0.02], [2.0, 3.0]⟩
  risk := ⟨20.0, 5.0, 100.0, 2 ^ 32 - 1⟩
  positions := ⟨false, 2 ^ 63 - 1⟩

theorem Settings.ofToml_toToml_unusual :
    unusualSettings.validate = .ok () ∧ ∃ content, unusualSettings.toToml = .ok content ∧
      ofToml content = .ok unusualSettings ∧
      (ofToml content).map fingerprint = .ok unusualSettings.fingerprint := by
  have valid : unusualSettings.faults = [] := by decide +kernel
  exact ⟨firstFault_eq_ok.mpr valid,
    ofToml_toToml (firstFault_eq_ok.mpr valid) ⟨by decide, by decide, by decide⟩⟩

end TrendLadder
