import TrendLadder.Settings.Faults

/-!
# Settings without a fault

What it says about settings that no condition on them is violated: every section has no fault
(`Settings.sections_of_faults`), the ladder has levels, with a positive lot size each
(`LadderSettings.faults_eq_nil`), and the history has room for the averages
(`Settings.averages_of_faults`).
-/

namespace TrendLadder

@[simp] theorem faultUnless_eq_nil {holds : Bool} {e : SettingsError} :
    faultUnless holds e = [] ↔ holds = true := by
  cases holds <;> simp [faultUnless]

theorem entryFaults_eq_nil {table : LadderTable} {index : Nat} {xs : List Float} :
    entryFaults table index xs = [] ↔ ∀ x ∈ xs, isPositive x = true := by
  induction xs generalizing index with
  | nil => simp [entryFaults]
  | cons x xs ih => simp [entryFaults, ih]

theorem isPositive_iff {x : Float} : isPositive x = true ↔ x.isFinite = true ∧ 0.0 < x := by
  simp [isPositive]

theorem lt_of_isPositive {x : Float} (h : isPositive x = true) : 0.0 < x :=
  (isPositive_iff.mp h).2

theorem LadderSettings.faults_eq_nil {s : LadderSettings} :
    s.faults = [] ↔ 0 < s.size ∧ s.lots.length = s.rewardRatios.length ∧
      s.size ≤ LadderSettings.maxLevels ∧ (∀ x ∈ s.lots, isPositive x = true) ∧
      ∀ x ∈ s.rewardRatios, isPositive x = true := by
  simp [LadderSettings.faults, entryFaults_eq_nil]

theorem Settings.sections_of_faults {s : Settings} (h : s.faults = []) :
    s.trend.faults = [] ∧ s.pattern.faults = [] ∧ s.ladder.faults = [] := by
  simp only [Settings.faults, List.append_eq_nil_iff] at h
  exact ⟨h.1.1.1.1.1.1.1.2, h.1.1.1.1.2, h.1.1.1.2⟩

/-- Settings without a fault have room in the history for both averages. -/
theorem Settings.averages_of_faults {s : Settings} (h : s.faults = []) :
    1 ≤ s.crossover.fast.period ∧ 1 ≤ s.crossover.slow.period ∧
      max 2 (max s.crossover.fast.window s.crossover.slow.window) ≤ s.historyCapacity := by
  simp only [Settings.faults, AverageSettings.faults, List.append_eq_nil_iff, faultUnless_eq_nil,
    decide_eq_true_eq] at h
  omega

end TrendLadder
