import Mathlib.Data.List.Basic
import TrendLadder.Proofs.Number.Extremum
import TrendLadder.Proofs.Settings.Valid

/-!
# The conditions on settings

`Settings.conditions` are the conditions on settings in the order in which they are asked for, each
with the values that it is about. `Settings.validate_eq_error_iff` says that settings are refused
for the first of them that does not hold, and `Settings.validate_eq_ok_iff` that the settings
accepted are the admissible ones, of which `Settings.IsAdmissible` says in one place what they are.

The order matters. That the cap of the trend is not below its step is asked for by a comparison that
a NaN passes, and it is the conditions before it that refuse a NaN. So faults and conditions are
compared from the front (`ReportsFirst`), and what a later part of the faults says has to be right
only where all conditions before that part hold (`ReportsFirst.append`).
-/

namespace TrendLadder

/-- A condition on settings. -/
inductive SettingsCondition where
  | capacity (n : Nat)
  | step (x : Float)
  | maximum (x : Float)
  | ordered (step maximum : Float)
  | period (role : AverageRole) (n : Nat)
  | window (role : AverageRole) (needed capacity : Nat)
  | baseSize (x : Float)
  | minSize (x : Float)
  | maxSize (maxSize minSize : Float)
  | limit (name : LimitName) (x : Float)
  | levels (n : Nat)
  | sameLength (lots rewardRatios : Nat)
  | mostLevels (n : Nat)
  | entry (table : LadderTable) (index : Nat) (x : Float)
  | stopLoss (x : Float)
  | positions (n : Nat)
deriving DecidableEq

/-- What a condition asks for. -/
def SettingsCondition.Holds : SettingsCondition → Prop
  | .capacity n => 2 ≤ n
  | .step x => 0.0 < x
  | .maximum x => 0.0 < x
  | .ordered x y => x ≤ y
  | .period _ n => 1 ≤ n
  | .window _ m n => m ≤ n
  | .baseSize x => x.isFinite = true ∧ 0.0 < x
  | .minSize x => x.isFinite = true ∧ 0.0 < x
  | .maxSize x y => x.isFinite = true ∧ y ≤ x
  | .limit _ x => x.isFinite = true ∧ 0.0 ≤ x
  | .levels n => 1 ≤ n
  | .sameLength m n => m = n
  | .mostLevels n => n ≤ 25
  | .entry _ _ x => x.isFinite = true ∧ 0.0 < x
  | .stopLoss x => x.isFinite = true ∧ 0.0 < x
  | .positions n => 1 ≤ n

instance : DecidablePred SettingsCondition.Holds := fun c =>
  match c with
  | .capacity _ | .period .. | .window .. | .levels _ | .mostLevels _ | .positions _ =>
    inferInstanceAs (Decidable ((_ : Nat) ≤ _))
  | .step _ | .maximum _ => inferInstanceAs (Decidable ((_ : Float) < _))
  | .ordered .. => inferInstanceAs (Decidable ((_ : Float) ≤ _))
  | .sameLength .. => inferInstanceAs (Decidable ((_ : Nat) = _))
  | .maxSize .. | .limit .. => inferInstanceAs (Decidable (_ = true ∧ (_ : Float) ≤ _))
  | .baseSize _ | .minSize _ | .entry .. | .stopLoss _ =>
    inferInstanceAs (Decidable (_ = true ∧ (_ : Float) < _))

/-- The error that names a violated condition. -/
def SettingsCondition.error : SettingsCondition → SettingsError
  | .capacity n => .historyTooSmall n
  | .step x => .stepNotPositive x
  | .maximum x => .maximumNotPositive x
  | .ordered x y => .maximumBelowStep x y
  | .period role _ => .periodZero role
  | .window role m n => .windowTooLong role m n
  | .baseSize x => .badSize (.baseNotPositive x)
  | .minSize x => .badSize (.minNotPositive x)
  | .maxSize x y => .badSize (.maxBelowMin x y)
  | .limit name x => .badLimit name x
  | .levels _ => .noLevels
  | .sameLength m n => .tablesDiffer m n
  | .mostLevels n => .tooManyLevels n 25
  | .entry table index x => .entryNotPositive table index x
  | .stopLoss x => .badLimit .stopLoss x
  | .positions _ => .noPositions

open SettingsCondition (Holds)

/-- All conditions of a list hold. -/
def AllHold (conditions : List SettingsCondition) : Prop := ∀ c ∈ conditions, c.Holds

@[simp] theorem allHold_nil : AllHold [] := nofun

@[simp] theorem allHold_cons {c : SettingsCondition} {conditions : List SettingsCondition} :
    AllHold (c :: conditions) ↔ c.Holds ∧ AllHold conditions := List.forall_mem_cons

@[simp] theorem allHold_append {conditions conditions2 : List SettingsCondition} :
    AllHold (conditions ++ conditions2) ↔ AllHold conditions ∧ AllHold conditions2 :=
  List.forall_mem_append

/-- The first condition of a list that does not hold. -/
def firstViolated (conditions : List SettingsCondition) : Option SettingsCondition :=
  conditions.find? fun c => ¬c.Holds

theorem firstViolated_eq_none {conditions : List SettingsCondition} :
    firstViolated conditions = none ↔ AllHold conditions := by
  simp [firstViolated, AllHold]

theorem firstViolated_eq_some {conditions : List SettingsCondition} {c : SettingsCondition} :
    firstViolated conditions = some c ↔ ∃ before later,
      conditions = before ++ c :: later ∧ AllHold before ∧ ¬c.Holds := by
  simp only [firstViolated, List.find?_eq_some_iff_append, AllHold, decide_not, Bool.not_not,
    Bool.not_eq_true', decide_eq_true_eq, decide_eq_false_iff_not]
  constructor
  · rintro ⟨failed, before, later, split, kept⟩
    exact ⟨before, later, split, kept, failed⟩
  · rintro ⟨before, later, split, kept, failed⟩
    exact ⟨failed, before, later, split, kept⟩

/-! ## The conditions in their order -/

def TrendSettings.conditions (s : TrendSettings) : List SettingsCondition :=
  [.step s.step, .maximum s.maximum, .ordered s.step s.maximum]

def AverageSettings.conditions (s : AverageSettings) (role : AverageRole) (capacity : Nat) :
    List SettingsCondition :=
  [.period role s.period, .window role (s.period + s.shift) capacity]

def SizeRule.conditions : SizeRule → List SettingsCondition
  | .minimum baseSize => [.baseSize baseSize]
  | .band minSize maxSize => [.minSize minSize, .maxSize maxSize minSize]

def PatternSettings.conditions (s : PatternSettings) : List SettingsCondition :=
  s.size.conditions ++ [.limit .maxWickRatio s.maxWickRatio] ++
    (s.minVolumeMultiplier.toList.map (.limit .minVolumeMultiplier))

/-- The conditions on a table of the ladder, from the given index on. -/
def entryConditions (table : LadderTable) (index : Nat) (xs : List Float) :
    List SettingsCondition :=
  (xs.zipIdx index).map fun entry => .entry table entry.2 entry.1

def LadderSettings.conditions (s : LadderSettings) : List SettingsCondition :=
  [.levels s.lots.length, .sameLength s.lots.length s.rewardRatios.length,
    .mostLevels s.lots.length] ++
    entryConditions .lots 0 s.lots ++ entryConditions .rewardRatios 0 s.rewardRatios

def RiskSettings.conditions (s : RiskSettings) : List SettingsCondition :=
  [.limit .maxDrawdown s.maxDrawdownPct, .limit .maxDailyLoss s.maxDailyLossPct,
    .limit .marginMinimum s.marginMinimumPct]

def PricingSettings.conditions (s : PricingSettings) : List SettingsCondition :=
  [.limit .entryOffset s.entryOffsetPoints, .stopLoss s.stopLossPoints]

/-- All conditions, in the order in which they are asked for. -/
def Settings.conditions (s : Settings) : List SettingsCondition :=
  [.capacity s.historyCapacity] ++ s.trend.conditions ++
    s.crossover.fast.conditions .fast s.historyCapacity ++
    s.crossover.slow.conditions .slow s.historyCapacity ++ s.pattern.conditions ++
    s.ladder.conditions ++ s.risk.conditions ++ s.pricing.conditions ++
    [.positions s.positions.maxPositions]

/-! ## Faults and conditions -/

/-- Faults begin with the error of the first condition that does not hold, if there is one. -/
def ReportsFirst (faults : List SettingsError) (conditions : List SettingsCondition) : Prop :=
  faults.head? = (firstViolated conditions).map SettingsCondition.error

namespace ReportsFirst

variable {faults faults2 : List SettingsError} {conditions conditions2 : List SettingsCondition}

theorem nil : ReportsFirst [] [] := rfl

theorem single (c : SettingsCondition) {holds : Bool} {e : SettingsError}
    (same : holds = true ↔ c.Holds) (named : e = c.error) :
    ReportsFirst (faultUnless holds e) [c] := by
  unfold ReportsFirst firstViolated faultUnless
  by_cases kept : c.Holds
  · simp [kept, same.mpr kept]
  · have failed : holds = false := Bool.eq_false_iff.mpr (mt same.mp kept)
    simp [kept, failed, named]

theorem append (first : ReportsFirst faults conditions)
    (later : AllHold conditions → ReportsFirst faults2 conditions2) :
    ReportsFirst (faults ++ faults2) (conditions ++ conditions2) := by
  unfold ReportsFirst at *
  have split : firstViolated (conditions ++ conditions2) =
      (firstViolated conditions).or (firstViolated conditions2) := List.find?_append
  rw [List.head?_append, split, first]
  cases found : firstViolated conditions with
  | some c => rfl
  | none => simpa using later (firstViolated_eq_none.mp found)

theorem and (first : ReportsFirst faults conditions) (second : ReportsFirst faults2 conditions2) :
    ReportsFirst (faults ++ faults2) (conditions ++ conditions2) :=
  first.append fun _ => second

end ReportsFirst

theorem reports_limit (name : LimitName) (x : Float) :
    ReportsFirst (limitFaults name x) [.limit name x] :=
  .single (.limit name x) (by simp [isNonNegative, Holds]) rfl

/-- Where the step and the cap are positive, neither is a NaN. -/
theorem TrendSettings.reports (s : TrendSettings) : ReportsFirst s.faults s.conditions := by
  have step := ReportsFirst.single (.step s.step) decide_eq_true_iff rfl
  have maximum := ReportsFirst.single (.maximum s.maximum) decide_eq_true_iff rfl
  refine (step.and maximum).append fun kept => .single (.ordered s.step s.maximum) ?_ rfl
  have stepPos : 0.0 < s.step := kept (.step s.step) (by simp)
  have maximumPos : 0.0 < s.maximum := kept (.maximum s.maximum) (by simp)
  have ordered : ¬s.maximum < s.step ↔ s.step ≤ s.maximum :=
    float_not_lt_iff (Bool.eq_false_iff.mp (isNaN_of_lt maximumPos))
      (Bool.eq_false_iff.mp (isNaN_of_lt stepPos))
  simpa [Holds] using ordered

theorem AverageSettings.reports (s : AverageSettings) (role : AverageRole) (capacity : Nat) :
    ReportsFirst (s.faults role capacity) (s.conditions role capacity) :=
  .and (.single (.period role s.period) decide_eq_true_iff rfl)
    (.single (.window role (s.period + s.shift) capacity) decide_eq_true_iff rfl)

theorem SizeRule.reports (s : SizeRule) : ReportsFirst s.faults s.conditions := by
  cases s with
  | minimum baseSize => exact .single (.baseSize baseSize) isPositive_iff rfl
  | band minSize maxSize =>
    refine .and (.single (.minSize minSize) isPositive_iff rfl)
      (.single (.maxSize maxSize minSize) ?_ rfl)
    simp [Holds]

theorem PatternSettings.reports (s : PatternSettings) : ReportsFirst s.faults s.conditions := by
  obtain ⟨ratio, multiplier, size⟩ := s
  refine (size.reports.and (reports_limit _ _)).and ?_
  cases multiplier with
  | none => exact .nil
  | some x => exact reports_limit _ x

theorem reports_entries (table : LadderTable) (index : Nat) (xs : List Float) :
    ReportsFirst (entryFaults table index xs) (entryConditions table index xs) := by
  induction xs generalizing index with
  | nil => exact .nil
  | cons x xs ih => exact .and (.single (.entry table index x) isPositive_iff rfl) (ih (index + 1))

theorem LadderSettings.reports (s : LadderSettings) : ReportsFirst s.faults s.conditions := by
  have levels := ReportsFirst.single (.levels s.lots.length) decide_eq_true_iff rfl
  have lengths := ReportsFirst.single (.sameLength s.lots.length s.rewardRatios.length)
    decide_eq_true_iff rfl
  have most := ReportsFirst.single (.mostLevels s.lots.length) decide_eq_true_iff rfl
  exact (((levels.and lengths).and most).and (reports_entries _ _ _)).and (reports_entries _ _ _)

theorem RiskSettings.reports (s : RiskSettings) : ReportsFirst s.faults s.conditions :=
  ((reports_limit _ _).and (reports_limit _ _)).and (reports_limit _ _)

theorem PricingSettings.reports (s : PricingSettings) : ReportsFirst s.faults s.conditions :=
  (reports_limit _ _).and (.single (.stopLoss s.stopLossPoints) isPositive_iff rfl)

/-- The faults of settings begin with the error of the first condition that does not hold. -/
theorem Settings.reports (s : Settings) : ReportsFirst s.faults s.conditions := by
  have capacity := ReportsFirst.single (.capacity s.historyCapacity) decide_eq_true_iff rfl
  have positions := ReportsFirst.single (.positions s.positions.maxPositions) decide_eq_true_iff rfl
  exact (((((((capacity.and s.trend.reports).and (s.crossover.fast.reports _ _)).and
    (s.crossover.slow.reports _ _)).and s.pattern.reports).and s.ladder.reports).and
    s.risk.reports).and s.pricing.reports).and positions

/-! ## Admissible settings -/

/-- Settings that can be worked with. -/
structure Settings.IsAdmissible (s : Settings) : Prop where
  capacity : 2 ≤ s.historyCapacity
  /-- Both may be infinite. -/
  trend : 0.0 < s.trend.step ∧ s.trend.step ≤ s.trend.maximum
  fast : 1 ≤ s.crossover.fast.period ∧
    s.crossover.fast.period + s.crossover.fast.shift ≤ s.historyCapacity
  slow : 1 ≤ s.crossover.slow.period ∧
    s.crossover.slow.period + s.crossover.slow.shift ≤ s.historyCapacity
  size :
    match s.pattern.size with
    | .minimum baseSize => baseSize.isFinite = true ∧ 0.0 < baseSize
    | .band minSize maxSize => (minSize.isFinite = true ∧ maxSize.isFinite = true) ∧
      0.0 < minSize ∧ minSize ≤ maxSize
  /-- The limits are finite and not negative. -/
  limits : ∀ x ∈ [s.pattern.maxWickRatio, s.risk.maxDrawdownPct, s.risk.maxDailyLossPct,
    s.risk.marginMinimumPct, s.pricing.entryOffsetPoints], x.isFinite = true ∧ 0.0 ≤ x
  minVolumeMultiplier : ∀ x ∈ s.pattern.minVolumeMultiplier, x.isFinite = true ∧ 0.0 ≤ x
  tables : s.ladder.lots.length = s.ladder.rewardRatios.length ∧ 1 ≤ s.ladder.lots.length ∧
    s.ladder.lots.length ≤ 25
  entries : ∀ x ∈ s.ladder.lots ++ s.ladder.rewardRatios, x.isFinite = true ∧ 0.0 < x
  stopLoss : s.pricing.stopLossPoints.isFinite = true ∧ 0.0 < s.pricing.stopLossPoints
  positions : 1 ≤ s.positions.maxPositions

theorem allHold_entryConditions (table : LadderTable) (index : Nat) (xs : List Float) :
    AllHold (entryConditions table index xs) ↔ ∀ x ∈ xs, x.isFinite = true ∧ 0.0 < x := by
  induction xs generalizing index with
  | nil => simp [entryConditions]
  | cons x xs ih =>
    rw [List.forall_mem_cons, ← ih (index + 1)]
    exact allHold_cons

theorem TrendSettings.allHold_conditions {s : TrendSettings} :
    AllHold s.conditions ↔ 0.0 < s.step ∧ s.step ≤ s.maximum := by
  have above : 0.0 < s.step → s.step ≤ s.maximum → 0.0 < s.maximum := float_lt_of_lt_of_le
  simp only [conditions, allHold_cons, allHold_nil, Holds]
  tauto

theorem SizeRule.allHold_conditions {s : SizeRule} : AllHold s.conditions ↔
    match s with
    | .minimum baseSize => baseSize.isFinite = true ∧ 0.0 < baseSize
    | .band minSize maxSize => (minSize.isFinite = true ∧ maxSize.isFinite = true) ∧
      0.0 < minSize ∧ minSize ≤ maxSize := by
  cases s with
  | minimum baseSize => simp [conditions, Holds]
  | band minSize maxSize =>
    simp only [conditions, allHold_cons, allHold_nil, Holds]
    tauto

theorem PatternSettings.allHold_conditions {s : PatternSettings} : AllHold s.conditions ↔
    AllHold s.size.conditions ∧ (s.maxWickRatio.isFinite = true ∧ 0.0 ≤ s.maxWickRatio) ∧
      ∀ x ∈ s.minVolumeMultiplier, x.isFinite = true ∧ 0.0 ≤ x := by
  obtain ⟨ratio, multiplier, size⟩ := s
  cases multiplier <;> simp [conditions, Holds, and_assoc]

theorem Settings.isAdmissible_iff (s : Settings) : s.IsAdmissible ↔ AllHold s.conditions := by
  simp only [conditions, allHold_append, allHold_cons, allHold_nil,
    TrendSettings.allHold_conditions, PatternSettings.allHold_conditions,
    SizeRule.allHold_conditions, LadderSettings.conditions, allHold_entryConditions,
    AverageSettings.conditions, RiskSettings.conditions, PricingSettings.conditions, Holds,
    and_true]
  constructor
  · rintro ⟨capacity, trend, fast, slow, size, limits, multiplier, tables, entries, stop, positions⟩
    simp only [List.forall_mem_cons, List.forall_mem_append] at limits entries
    tauto
  · rintro ⟨⟨⟨⟨⟨⟨⟨⟨capacity, trend⟩, fast⟩, slow⟩, pattern⟩, ladder⟩, risk⟩, pricing⟩, positions⟩
    obtain ⟨size, ratio, multiplier⟩ := pattern
    obtain ⟨⟨⟨levels, same, most⟩, lots⟩, ratios⟩ := ladder
    obtain ⟨drawdown, loss, margin⟩ := risk
    exact ⟨capacity, trend, fast, slow, size,
      by simp [ratio, drawdown, loss, margin, pricing.1], multiplier, ⟨same, levels, most⟩,
      List.forall_mem_append.mpr ⟨lots, ratios⟩, pricing.2, positions⟩

/-! ## Validation -/

theorem firstFault_eq (faults : List SettingsError) :
    firstFault faults = faults.head?.elim (.ok ()) .error := by
  cases faults <;> rfl

theorem Settings.validate_eq (s : Settings) :
    s.validate = (firstViolated s.conditions).elim (.ok ()) (.error ·.error) := by
  rw [validate, firstFault_eq, s.reports]
  cases firstViolated s.conditions <;> rfl

theorem Settings.validate_eq_ok_iff (s : Settings) : s.validate = .ok () ↔ s.IsAdmissible := by
  rw [validate_eq, isAdmissible_iff, ← firstViolated_eq_none]
  cases firstViolated s.conditions <;> simp

/-- Settings are refused for the first condition that does not hold. -/
theorem Settings.validate_eq_error_iff (s : Settings) (e : SettingsError) :
    s.validate = .error e ↔ ∃ before c later, s.conditions = before ++ c :: later ∧
      AllHold before ∧ ¬c.Holds ∧ e = c.error := by
  have violated : s.validate = .error e ↔
      ∃ c, firstViolated s.conditions = some c ∧ e = c.error := by
    rw [validate_eq]
    cases firstViolated s.conditions <;> simp [eq_comm]
  rw [violated]
  constructor
  · rintro ⟨c, first, named⟩
    obtain ⟨before, later, split, kept, failed⟩ := firstViolated_eq_some.mp first
    exact ⟨before, c, later, split, kept, failed, named⟩
  · rintro ⟨before, c, later, split, kept, failed, named⟩
    exact ⟨c, firstViolated_eq_some.mpr ⟨before, later, split, kept, failed⟩, named⟩

end TrendLadder
