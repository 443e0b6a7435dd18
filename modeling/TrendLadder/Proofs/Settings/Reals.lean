import TrendLadder.Proofs.Number.Negation
import TrendLadder.Proofs.Settings.Valid

/-!
# The doubles of settings

`reals` lists the doubles of a section. In settings without a fault they are finite, but for the
step and the cap of the trend, which may be infinite, and for the weights, which may be any doubles.
-/

namespace TrendLadder

/-! ## Finite parameters -/

theorem isFinite_of_isPositive {x : Float} (h : isPositive x = true) : x.isFinite = true :=
  (isPositive_iff.mp h).1

theorem isFinite_of_limitFaults {name : LimitName} {x : Float} (h : limitFaults name x = []) :
    x.isFinite = true :=
  (Bool.and_eq_true_iff.mp (faultUnless_eq_nil.mp h)).1

/-! ## Sections -/

def TrendSettings.reals (s : TrendSettings) : List Float := [s.step, s.maximum]

/-- The step and the cap of the trend are positive, and may be infinite. -/
theorem TrendSettings.pos_of_faults {s : TrendSettings} (h : s.faults = []) :
    0.0 < s.step ∧ 0.0 < s.maximum := by
  simp only [faults, List.append_eq_nil_iff, faultUnless_eq_nil, decide_eq_true_eq] at h
  exact h.1

/-- The doubles of the weights, on which there is no condition. -/
def ConfidenceWeights.reals (s : ConfidenceWeights) : List Float :=
  [s.trend, s.crossover, s.pattern]

def SizeRule.reals : SizeRule → List Float
  | .minimum baseSize => [baseSize]
  | .band minSize maxSize => [minSize, maxSize]

theorem SizeRule.isFinite_reals {s : SizeRule} (h : s.faults = []) :
    ∀ x ∈ s.reals, x.isFinite = true := by
  cases s with
  | minimum baseSize =>
    have base := isFinite_of_isPositive (faultUnless_eq_nil.mp h)
    simpa [reals] using base
  | band minSize maxSize =>
    obtain ⟨low, high⟩ := List.append_eq_nil_iff.mp h
    have low := isFinite_of_isPositive (faultUnless_eq_nil.mp low)
    have high := (Bool.and_eq_true_iff.mp (faultUnless_eq_nil.mp high)).1
    simpa [reals] using ⟨low, high⟩

def PatternSettings.reals (s : PatternSettings) : List Float :=
  s.maxWickRatio :: (s.minVolumeMultiplier.toList ++ s.size.reals)

theorem PatternSettings.isFinite_reals {s : PatternSettings} (h : s.faults = []) :
    ∀ x ∈ s.reals, x.isFinite = true := by
  obtain ⟨ratio, multiplier, rule⟩ := s
  simp only [faults, List.append_eq_nil_iff] at h
  obtain ⟨⟨size, wick⟩, volume⟩ := h
  intro x hx
  rcases List.mem_cons.mp hx with rfl | hx
  · exact isFinite_of_limitFaults wick
  rcases List.mem_append.mp hx with hx | hx
  · cases multiplier with
    | none => cases hx
    | some y =>
      rw [List.mem_singleton.mp hx]
      exact isFinite_of_limitFaults volume
  · exact SizeRule.isFinite_reals size x hx

def LadderSettings.reals (s : LadderSettings) : List Float := s.lots ++ s.rewardRatios

theorem LadderSettings.isFinite_reals {s : LadderSettings} (h : s.faults = []) :
    ∀ x ∈ s.reals, x.isFinite = true := by
  obtain ⟨-, -, -, lots, ratios⟩ := LadderSettings.faults_eq_nil.mp h
  intro x hx
  exact isFinite_of_isPositive ((List.mem_append.mp hx).elim (lots x) (ratios x))

def RiskSettings.reals (s : RiskSettings) : List Float :=
  [s.maxDrawdownPct, s.maxDailyLossPct, s.marginMinimumPct]

theorem RiskSettings.isFinite_reals {s : RiskSettings} (h : s.faults = []) :
    ∀ x ∈ s.reals, x.isFinite = true := by
  simp only [faults, List.append_eq_nil_iff] at h
  simp [reals, isFinite_of_limitFaults h.1.1, isFinite_of_limitFaults h.1.2,
    isFinite_of_limitFaults h.2]

def PricingSettings.reals (s : PricingSettings) : List Float :=
  [s.entryOffsetPoints, s.stopLossPoints]

theorem PricingSettings.isFinite_reals {s : PricingSettings} (h : s.faults = []) :
    ∀ x ∈ s.reals, x.isFinite = true := by
  simp only [faults, List.append_eq_nil_iff, faultUnless_eq_nil] at h
  simp [reals, isFinite_of_limitFaults h.1, isFinite_of_isPositive h.2]

/-! ## All sections -/

/-- Settings without a fault have no fault in the limits either. -/
theorem Settings.limits_of_faults {s : Settings} (h : s.faults = []) :
    s.risk.faults = [] ∧ s.pricing.faults = [] := by
  simp only [faults, List.append_eq_nil_iff] at h
  exact ⟨h.1.1.2, h.1.2⟩

def Settings.reals (s : Settings) : List Float :=
  s.trend.reals ++ (s.pattern.reals ++ (s.signal.weights.reals ++
    (s.pricing.reals ++ (s.ladder.reals ++ s.risk.reals))))

/-- Settings without a fault and with finite weights have numbers only. -/
theorem Settings.isNaN_of_reals {s : Settings} (h : s.faults = [])
    (finite : ∀ x ∈ s.signal.weights.reals, x.isFinite = true) :
    ∀ x ∈ s.reals, x.isNaN = false := by
  obtain ⟨trend, pattern, ladder⟩ := sections_of_faults h
  obtain ⟨risk, pricing⟩ := limits_of_faults h
  have positive := TrendSettings.pos_of_faults trend
  have number {xs : List Float} (finite : ∀ x ∈ xs, x.isFinite = true) :
      ∀ x ∈ xs, x.isNaN = false := fun x hx => isNaN_of_isFinite (finite x hx)
  simp only [reals, List.forall_mem_append]
  refine ⟨?_, number (PatternSettings.isFinite_reals pattern), number finite,
    number (PricingSettings.isFinite_reals pricing), number (LadderSettings.isFinite_reals ladder),
    number (RiskSettings.isFinite_reals risk)⟩
  simp only [TrendSettings.reals, List.forall_mem_cons]
  exact ⟨isNaN_of_lt positive.1, isNaN_of_lt positive.2, nofun⟩

end TrendLadder
