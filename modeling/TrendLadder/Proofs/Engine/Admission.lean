import TrendLadder.Proofs.Engine.Run
import TrendLadder.Proofs.Settings.Conditions

/-!
# The admission of settings

Settings are refused with the error of `Settings.validate`, and the parts of an engine validate
their own settings again, which by then they never refuse (`Engine.parts_of_faults`). What is
accepted (`Settings.IsAdmissible`) and which error is reported (`Settings.conditions`) are said in
one place each.

Validation sets no upper bound on the capacity of the history, and buffers have one. So validation
is the admission of an engine exactly for settings that are refused or whose history can be set up
(`Engine.admission_iff`); for all others the program stops (`Engine.build?_eq_none`).
-/

namespace TrendLadder

/-- The history has the largest buffer of the indicators. -/
theorem Indicators.fits_iff (s : Settings) :
    fits s = true ↔ Candle.bytes * s.historyCapacity ≤ mostBytes := by
  have room : 16 ≤ mostBytes := by decide
  unfold fits History.fits CrossoverDetector.fits AverageSeries.fits bufferFits
  unfold Candle.bytes priceBytes
  simp only [Bool.and_eq_true, decide_eq_true_iff]
  omega

namespace Engine

variable {s : Settings}

theorem new_of_validate_ok (valid : s.validate = .ok ()) : new s = .ok (fresh s) :=
  new_eq_ok.mpr ⟨firstFault_eq_ok.mp valid, rfl⟩

theorem new_eq_error {error : SettingsError} :
    new s = .error error ↔ s.validate = .error error := by
  constructor
  · intro unmade
    cases checked : s.validate with
    | ok =>
      rw [new_of_validate_ok checked] at unmade
      cases unmade
    | error other =>
      rw [new_of_validate_error checked] at unmade
      cases unmade
      rfl
  · exact new_of_validate_error

theorem build?_of_new_ok {e : Engine} (made : new s = .ok e) :
    build? s = if Indicators.fits s then some (.ok e) else none := by
  rw [build?, made]

theorem build?_of_new_error {error : SettingsError} (unmade : new s = .error error) :
    build? s = some (.error error) := by
  rw [build?, unmade]

theorem build?_eq_ok {e : Engine} :
    build? s = some (.ok e) ↔ new s = .ok e ∧ Indicators.fits s = true := by
  cases made : new s with
  | ok e =>
    rw [build?_of_new_ok made, Option.ite_none_right_eq_some, Option.some.injEq, and_comm]
  | error error =>
    rw [build?_of_new_error made]
    exact iff_of_false (fun same => nomatch Option.some.inj same) fun h => nomatch h.1

theorem build?_eq_error {error : SettingsError} :
    build? s = some (.error error) ↔ s.validate = .error error := by
  rw [← new_eq_error]
  cases made : new s with
  | ok e =>
    rw [build?_of_new_ok made, Option.ite_none_right_eq_some, Option.some.injEq]
    exact iff_of_false (fun h => nomatch h.2) fun same => nomatch same
  | error other => rw [build?_of_new_error made, Option.some.injEq]

/-- The program stops for settings that pass the validation with a history too large to set up. -/
theorem build?_eq_none :
    build? s = none ↔ s.validate = .ok () ∧ mostBytes < Candle.bytes * s.historyCapacity := by
  rw [← Nat.not_le, ← Indicators.fits_iff]
  cases checked : s.validate with
  | ok =>
    rw [build?_of_new_ok (new_of_validate_ok checked)]
    split
    · next fits => exact iff_of_false (fun none => nomatch none) fun h => h.2 fits
    · next large => exact iff_of_true rfl ⟨rfl, large⟩
  | error other =>
    rw [build?_eq_error.mpr checked]
    exact iff_of_false (fun none => nomatch none) fun h => nomatch h.1

/-- Whether settings make an engine, and what they are refused for. -/
structure Admission (s : Settings) : Prop where
  accepted : s.validate = .ok () ↔ s.IsAdmissible
  /-- Settings are refused for the first condition that does not hold. -/
  named : ∀ error, s.validate = .error error ↔ ∃ before c later,
    s.conditions = before ++ c :: later ∧ AllHold before ∧ ¬c.Holds ∧ error = c.error
  built : (∃ e, build? s = some (.ok e)) ↔ s.validate = .ok ()
  refused : ∀ error, build? s = some (.error error) ↔ s.validate = .error error
  /-- What is validated again is never refused. -/
  parts : s.validate = .ok () → (∃ trend, TrendDetector.new s.trend = .ok trend) ∧
    (∃ pattern, PatternValidator.new s.pattern = .ok pattern) ∧
    ∃ ladder, Ladder.new s.ladder = .ok ladder

/-- **Validation is the admission of an engine**, exactly for settings that it refuses or whose
history can be set up. -/
theorem admission_iff (s : Settings) :
    Admission s ↔ (s.validate = .ok () → Candle.bytes * s.historyCapacity ≤ mostBytes) := by
  constructor
  · intro admission valid
    obtain ⟨e, built⟩ := admission.built.mpr valid
    exact (Indicators.fits_iff s).mp (build?_eq_ok.mp built).2
  · intro room
    refine ⟨s.validate_eq_ok_iff, s.validate_eq_error_iff, ?_, fun error => build?_eq_error, ?_⟩
    · constructor
      · rintro ⟨e, built⟩
        exact firstFault_eq_ok.mpr (new_eq_ok.mp (build?_eq_ok.mp built).1).1
      · intro valid
        have fits : Indicators.fits s = true := (Indicators.fits_iff s).mpr (room valid)
        exact ⟨fresh s, build?_eq_ok.mpr ⟨new_of_validate_ok valid, fits⟩⟩
    · intro valid
      obtain ⟨trend, pattern, ladder⟩ := parts_of_faults (firstFault_eq_ok.mp valid)
      exact ⟨⟨_, trend⟩, ⟨_, pattern⟩, ⟨_, ladder⟩⟩

/-- The standard settings with a history of the largest length that a settings file can ask for pass
the validation, and the program stops over them. -/
theorem admission_lost :
    Settings.validate { Settings.standard with historyCapacity := 2 ^ 63 - 1 } = .ok () ∧
    build? { Settings.standard with historyCapacity := 2 ^ 63 - 1 } = none ∧
    ¬Admission { Settings.standard with historyCapacity := 2 ^ 63 - 1 } := by
  have valid :
      Settings.validate { Settings.standard with historyCapacity := 2 ^ 63 - 1 } = .ok () := by
    decide +kernel
  have stopped : build? { Settings.standard with historyCapacity := 2 ^ 63 - 1 } = none :=
    build?_eq_none.mpr ⟨valid, by decide⟩
  refine ⟨valid, stopped, fun admission => ?_⟩
  obtain ⟨e, built⟩ := admission.built.mpr valid
  cases stopped.symm.trans built

end Engine

end TrendLadder
