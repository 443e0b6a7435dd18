import TrendLadder.Number.Layout
import TrendLadder.Settings.Basic

/-!
# Faults in settings

`Settings.faults` lists every violated condition on the settings in the order in which they are
checked, and `Settings.validate` reports the first one. Comparisons are written so that a NaN
violates them.
-/

namespace TrendLadder

/-- One of the two moving averages. -/
inductive AverageRole where
  | fast
  | slow
deriving DecidableEq, Repr

/-- One of the two tables of the ladder. -/
inductive LadderTable where
  | lots
  | rewardRatios
deriving DecidableEq, Repr

/-- A limit that has to be finite and not negative. -/
inductive LimitName where
  | maxWickRatio
  | minVolumeMultiplier
  | maxDrawdown
  | maxDailyLoss
  | marginMinimum
  | entryOffset
  | stopLoss
deriving DecidableEq, Repr

/-- What is wrong with the bounds of a golden candle. -/
inductive SizeFault where
  | baseNotPositive (baseSize : Float)
  | minNotPositive (minSize : Float)
  | maxBelowMin (maxSize minSize : Float)
deriving DecidableEq

/-- Why settings are refused. -/
inductive SettingsError where
  | stepNotPositive (step : Float)
  | maximumNotPositive (maximum : Float)
  | maximumBelowStep (step maximum : Float)
  | periodZero (role : AverageRole)
  | windowTooLong (role : AverageRole) (needed capacity : Nat)
  | historyTooSmall (capacity : Nat)
  | noLevels
  | tablesDiffer (lots rewardRatios : Nat)
  | tooManyLevels (size most : Nat)
  | entryNotPositive (table : LadderTable) (index : Nat) (value : Float)
  | badSize (fault : SizeFault)
  | badLimit (name : LimitName) (value : Float)
  | noPositions
  /-- The document is not one that settings can be read from or written as. -/
  | notADocument
deriving DecidableEq

/-! ## Messages -/

def AverageRole.text : AverageRole → String
  | .fast => "fast"
  | .slow => "slow"

def LadderTable.text : LadderTable → String
  | .lots => "lot"
  | .rewardRatios => "R:R"

/-- The name in messages: the section and the key. -/
def LimitName.text : LimitName → String
  | .maxWickRatio => "pattern.max_wick_ratio"
  | .minVolumeMultiplier => "pattern.min_volume_multiplier"
  | .maxDrawdown => "risk.max_drawdown_pct"
  | .maxDailyLoss => "risk.max_daily_loss_pct"
  | .marginMinimum => "risk.margin_minimum_pct"
  | .entryOffset => "pricing.entry_offset_points"
  | .stopLoss => "pricing.stop_loss_points"

open Number

def SizeFault.message : SizeFault → String
  | .baseNotPositive x => "base_size must be > 0 (got " ++ text x ++ ")"
  | .minNotPositive x => "min_size must be > 0 (got " ++ text x ++ ")"
  | .maxBelowMin x y => "max_size " ++ text x ++ " must be >= min_size " ++ text y

def SettingsError.message : SettingsError → String
  | .stepNotPositive x => "SAR step must be > 0 (got " ++ text x ++ ")"
  | .maximumNotPositive x => "SAR maximum must be > 0 (got " ++ text x ++ ")"
  | .maximumBelowStep s m => "SAR maximum " ++ text m ++ " is below SAR step " ++ text s
  | .periodZero role => role.text ++ " moving average period must be > 0"
  | .windowTooLong role needed capacity =>
    role.text ++ " moving average needs " ++ needed.repr ++ " closes but history capacity is " ++
      capacity.repr
  | .historyTooSmall capacity => "history capacity must be >= 2 (got " ++ capacity.repr ++ ")"
  | .noLevels => "lot table is empty"
  | .tablesDiffer lots ratios =>
    "lot table has " ++ lots.repr ++ " entries but R:R table has " ++ ratios.repr
  | .tooManyLevels size most =>
    "progression tables hold at most " ++ most.repr ++ " levels (got " ++ size.repr ++ ")"
  | .entryNotPositive table index x =>
    table.text ++ " table entry " ++ index.repr ++ " must be > 0 (got " ++ text x ++ ")"
  | .badSize fault => "golden candle size bounds invalid: " ++ fault.message
  | .badLimit name x => name.text ++ " must be a finite value >= 0 (got " ++ text x ++ ")"
  | .noPositions => "max_positions must be >= 1"
  | .notADocument => "parse config TOML: "

/-! ## Conditions -/

/-- The fault `e` unless the condition holds. -/
def faultUnless (holds : Bool) (e : SettingsError) : List SettingsError :=
  if holds then [] else [e]

/-- The first fault of a list, if there is one. -/
def firstFault : List SettingsError → Except SettingsError Unit
  | [] => .ok ()
  | e :: _ => .error e

@[simp] theorem firstFault_eq_ok {faults : List SettingsError} :
    firstFault faults = .ok () ↔ faults = [] := by
  cases faults <;> simp [firstFault]

/-- Finite and positive. -/
def isPositive (x : Float) : Bool := x.isFinite && 0.0 < x

/-- Finite and not negative. -/
def isNonNegative (x : Float) : Bool := x.isFinite && 0.0 ≤ x

/-- A limit has to be finite and not negative. -/
def limitFaults (name : LimitName) (x : Float) : List SettingsError :=
  faultUnless (isNonNegative x) (.badLimit name x)

def TrendSettings.faults (s : TrendSettings) : List SettingsError :=
  faultUnless (0.0 < s.step) (.stepNotPositive s.step) ++
    faultUnless (0.0 < s.maximum) (.maximumNotPositive s.maximum) ++
    faultUnless (!(s.maximum < s.step : Bool)) (.maximumBelowStep s.step s.maximum)

/-- The violated conditions of a moving average in a history of the given capacity. -/
def AverageSettings.faults (s : AverageSettings) (role : AverageRole) (capacity : Nat) :
    List SettingsError :=
  faultUnless (0 < s.period) (.periodZero role) ++
    faultUnless (s.window ≤ capacity) (.windowTooLong role s.window capacity)

def SizeRule.faults : SizeRule → List SettingsError
  | .minimum baseSize => faultUnless (isPositive baseSize) (.badSize (.baseNotPositive baseSize))
  | .band minSize maxSize =>
    faultUnless (isPositive minSize) (.badSize (.minNotPositive minSize)) ++
      faultUnless (maxSize.isFinite && minSize ≤ maxSize) (.badSize (.maxBelowMin maxSize minSize))

def PatternSettings.faults (s : PatternSettings) : List SettingsError :=
  s.size.faults ++ limitFaults .maxWickRatio s.maxWickRatio ++
    (match s.minVolumeMultiplier with
    | some x => limitFaults .minVolumeMultiplier x
    | none => [])

/-- The entries of a table that are not positive, from the given index on. -/
def entryFaults (table : LadderTable) : Nat → List Float → List SettingsError
  | _, [] => []
  | index, x :: xs =>
    faultUnless (isPositive x) (.entryNotPositive table index x) ++ entryFaults table (index + 1) xs

def LadderSettings.faults (s : LadderSettings) : List SettingsError :=
  faultUnless (0 < s.size) .noLevels ++
    faultUnless (s.lots.length = s.rewardRatios.length)
      (.tablesDiffer s.lots.length s.rewardRatios.length) ++
    faultUnless (s.size ≤ LadderSettings.maxLevels)
      (.tooManyLevels s.size LadderSettings.maxLevels) ++
    entryFaults .lots 0 s.lots ++ entryFaults .rewardRatios 0 s.rewardRatios

def RiskSettings.faults (s : RiskSettings) : List SettingsError :=
  limitFaults .maxDrawdown s.maxDrawdownPct ++ limitFaults .maxDailyLoss s.maxDailyLossPct ++
    limitFaults .marginMinimum s.marginMinimumPct

def PricingSettings.faults (s : PricingSettings) : List SettingsError :=
  limitFaults .entryOffset s.entryOffsetPoints ++
    faultUnless (isPositive s.stopLossPoints) (.badLimit .stopLoss s.stopLossPoints)

/-- All violated conditions, in the order of the checks. -/
def Settings.faults (s : Settings) : List SettingsError :=
  faultUnless (2 ≤ s.historyCapacity) (.historyTooSmall s.historyCapacity) ++ s.trend.faults ++
    s.crossover.fast.faults .fast s.historyCapacity ++
    s.crossover.slow.faults .slow s.historyCapacity ++ s.pattern.faults ++ s.ladder.faults ++
    s.risk.faults ++ s.pricing.faults ++ faultUnless (0 < s.positions.maxPositions) .noPositions

/-- Accepts settings without a fault and reports the first fault of the others. -/
def TrendSettings.validate (s : TrendSettings) : Except SettingsError Unit := firstFault s.faults

def PatternSettings.validate (s : PatternSettings) : Except SettingsError Unit :=
  firstFault s.faults

def LadderSettings.validate (s : LadderSettings) : Except SettingsError Unit :=
  firstFault s.faults

def Settings.validate (s : Settings) : Except SettingsError Unit := firstFault s.faults

end TrendLadder
