import TrendLadder.Proofs.Document.Json.Tree
import TrendLadder.Proofs.Settings.Equality
import TrendLadder.Settings.Fingerprint

/-!
# What a fingerprint identifies

The canonical text of valid settings tells all of them but for weights that are not finite, which it
tells as nulls (`Settings.told_of_spelled`). Settings are compared as numbers, their texts with the
signs of zeros, and so `Settings.canonical_identifies` has a condition for either direction.
-/

namespace TrendLadder

open Json Value

/-! ## Doubles -/

/-- A double as a text tells it: no number where it is not finite. -/
def told (x : Float) : Float := if x.isFinite then x else 0.0 / 0.0

theorem told_of_isFinite {x : Float} (h : x.isFinite = true) : told x = x := if_pos h

theorem isFinite_told {x : Float} : (told x).isFinite = x.isFinite := by
  unfold told
  split
  case isTrue finite => rfl
  case isFalse special =>
    rw [Bool.eq_false_of_not_eq_true special]
    rfl

theorem spelled_real_told (x : Float) : spelled (.real (told x)) = spelled (.real x) := by
  rw [spelled, spelled, isFinite_told]
  split
  case isTrue finite => rw [told_of_isFinite finite]
  case isFalse => rfl

theorem spelled_real_inj {x y : Float} :
    spelled (.real x) = spelled (.real y) ↔ told x = told y := by
  constructor
  · intro h
    rw [spelled, spelled] at h
    unfold told
    split_ifs at h ⊢ <;> cases h <;> rfl
  · intro h
    rw [← spelled_real_told x, h, spelled_real_told]

/-- A text tells a finite double from all others. -/
theorem eq_of_told {x y : Float} (finite : x.isFinite = true) (h : told x = told y) : x = y := by
  have finite' : y.isFinite = true := by rw [← isFinite_told, ← h, isFinite_told, finite]
  rwa [told_of_isFinite finite, told_of_isFinite finite'] at h

/-- The only double above zero that is not finite is the infinity. -/
theorem unpacked_of_lt {x : Float} (pos : 0.0 < x) (special : ¬x.isFinite = true) :
    unpacked x = .infinity .positive := by
  have infinite : ¬(unpacked x).isFinite = true := special
  rw [lt_iff_compare] at pos
  cases h : unpacked x with
  | notANumber => rw [h] at pos; cases pos
  | infinity s =>
    cases s with
    | positive => rfl
    | negative => rw [h] at pos; cases pos
  | zero | finite => rw [h] at infinite; exact absurd rfl infinite

/-- A text tells positive doubles apart. -/
theorem eq_of_told_of_lt {x y : Float} (hx : 0.0 < x) (hy : 0.0 < y) (h : told x = told y) :
    x = y := by
  by_cases finite : x.isFinite = true
  · exact eq_of_told finite h
  · have infinite : ¬y.isFinite = true := by rwa [← isFinite_told, ← h, isFinite_told]
    exact eq_of_unpacked_eq ((unpacked_of_lt hx finite).trans (unpacked_of_lt hy infinite).symm)

/-! ## The form in documents -/

/-- The integers of settings fit their fields of 64 and of 32 bits. -/
structure Settings.Sized (s : Settings) : Prop where
  historyCapacity : s.historyCapacity < 2 ^ 64
  maxPositions : s.positions.maxPositions < 2 ^ 64
  maxSpreadPoints : s.risk.maxSpreadPoints < 2 ^ 32

theorem fits_ofNat {n : ℕ} (h : n < 2 ^ 64) (depth : ℕ) : fits depth (ofNat n) = true := by
  rw [ofNat, fits, Bool.and_eq_true, decide_eq_true_eq, decide_eq_true_eq]
  omega

theorem itemsFit_reals (depth : ℕ) (xs : List Float) :
    itemsFit depth (xs.map .real) = true := by
  induction xs with
  | nil => rfl
  | cons x xs ih => exact ih

/-- Sized settings can be read from a text if the integers of their averages fit as well. -/
theorem Settings.fits_encode_of_sized {s : Settings} (sized : s.Sized)
    (averages : ∀ a ∈ [s.crossover.fast, s.crossover.slow],
      a.period < 2 ^ 64 ∧ a.shift < 2 ^ 64) : fits maxDepth s.encode = true := by
  simp only [List.forall_mem_cons] at averages
  obtain ⟨fast, slow, -⟩ := averages
  have capacity := sized.historyCapacity
  have spread := sized.maxSpreadPoints
  have method (m : AverageMethod) (depth : ℕ) : fits depth m.encode = true := by
    cases m <;> rfl
  have option (x : Option Float) (depth : ℕ) : fits depth (ofOption .real x) = true := by
    cases x <;> rfl
  have rule (r : SizeRule) (depth : ℕ) : fits (depth + 1) r.encode = true := by
    cases r <;> rfl
  simp [encode, TrendSettings.encode, CrossoverSettings.encode, AverageSettings.encode,
    PatternSettings.encode, SignalSettings.encode, ConfidenceWeights.encode,
    PricingSettings.encode, LadderSettings.encode, RiskSettings.encode, PositionSettings.encode,
    fits, fieldsFit, maxDepth, method, option, rule, itemsFit_reals,
    fits_ofNat capacity, fits_ofNat sized.maxPositions,
    fits_ofNat (by omega : s.risk.maxSpreadPoints < 2 ^ 64),
    fits_ofNat fast.1, fits_ofNat fast.2, fits_ofNat slow.1, fits_ofNat slow.2]

/-- Sized settings without a fault can be read from a text. -/
theorem Settings.fits_encode {s : Settings} (valid : s.faults = []) (sized : s.Sized) :
    fits maxDepth s.encode = true := by
  obtain ⟨_, _, room⟩ := Settings.averages_of_faults valid
  simp only [AverageSettings.window] at room
  have capacity := sized.historyCapacity
  refine fits_encode_of_sized sized ?_
  simp only [List.forall_mem_cons]
  exact ⟨by omega, by omega, nofun⟩

/-! ## Sections that spell the same -/

theorem spelled_ofNat_inj {m n : ℕ} : spelled (ofNat m) = spelled (ofNat n) ↔ m = n := by
  simp [ofNat, spelled]

theorem spelled_bool_inj {a b : Bool} : spelled (.bool a) = spelled (.bool b) ↔ a = b := by
  simp [spelled]

/-- A text tells finite doubles of a table from all others. -/
theorem eq_of_spelledItems {xs ys : List Float} (finite : ∀ x ∈ xs, x.isFinite = true)
    (h : spelledItems (xs.map .real) = spelledItems (ys.map .real)) : xs = ys := by
  induction xs generalizing ys with
  | nil =>
    cases ys with
    | nil => rfl
    | cons => cases h
  | cons x xs ih =>
    cases ys with
    | nil => cases h
    | cons y ys =>
      obtain ⟨first, others⟩ := List.cons.inj h
      rw [eq_of_told (finite x List.mem_cons_self) (spelled_real_inj.mp first),
        ih (fun z hz => finite z (List.mem_cons_of_mem x hz)) others]

/-- The step and the cap may be infinite, but only one infinity is positive. -/
theorem TrendSettings.eq_of_spelled {s t : TrendSettings} (hs : s.faults = []) (ht : t.faults = [])
    (h : spelled s.encode = spelled t.encode) : s = t := by
  obtain ⟨step, maximum⟩ := s
  obtain ⟨step', maximum'⟩ := t
  simp only [encode, spelled_record_inj, spelledFields_cons_inj, spelled_real_inj, and_true] at h
  obtain rfl : step = step' := eq_of_told_of_lt (pos_of_faults hs).1 (pos_of_faults ht).1 h.1
  obtain rfl : maximum = maximum' :=
    eq_of_told_of_lt (pos_of_faults hs).2 (pos_of_faults ht).2 h.2
  rfl

theorem AverageMethod.eq_of_spelled {m m' : AverageMethod}
    (h : spelled m.encode = spelled m'.encode) : m = m' := by
  cases m <;> cases m'
  case simple.simple | exponential.exponential => rfl
  case simple.exponential | exponential.simple => simp [encode, spelled] at h

theorem AverageSettings.eq_of_spelled {s t : AverageSettings}
    (h : spelled s.encode = spelled t.encode) : s = t := by
  obtain ⟨period, shift, method⟩ := s
  obtain ⟨period', shift', method'⟩ := t
  simp only [encode, spelled_record_inj, spelledFields_cons_inj, spelled_ofNat_inj, and_true] at h
  rw [h.1, h.2.1, AverageMethod.eq_of_spelled h.2.2]

theorem CrossoverSettings.eq_of_spelled {s t : CrossoverSettings}
    (h : spelled s.encode = spelled t.encode) : s = t := by
  obtain ⟨fast, slow⟩ := s
  obtain ⟨fast', slow'⟩ := t
  simp only [encode, spelled_record_inj, spelledFields_cons_inj, and_true] at h
  rw [AverageSettings.eq_of_spelled h.1, AverageSettings.eq_of_spelled h.2]

theorem SizeRule.eq_of_spelled {r r' : SizeRule} (hr : r.faults = [])
    (h : spelled r.encode = spelled r'.encode) : r = r' := by
  have finite := isFinite_reals hr
  cases r <;> cases r'
  case minimum.minimum =>
    simp only [reals, List.forall_mem_cons] at finite
    simp only [encode, ofTagged, spelled_record_inj, spelledFields_cons_inj, spelled_real_inj,
      and_true, true_and] at h
    rw [eq_of_told finite.1 h]
  case band.band =>
    simp only [reals, List.forall_mem_cons] at finite
    simp only [encode, ofTagged, spelled_record_inj, spelledFields_cons_inj, spelled_real_inj,
      and_true, true_and] at h
    rw [eq_of_told finite.1 h.1, eq_of_told finite.2.1 h.2]
  case minimum.band | band.minimum => simp [encode, ofTagged, spelled, spelledFields] at h

/-- A missing double is told as a double that is not finite. -/
theorem eq_of_spelled_option {x y : Option Float} (hx : ∀ a ∈ x, a.isFinite = true)
    (hy : ∀ b ∈ y, b.isFinite = true)
    (h : spelled (ofOption .real x) = spelled (ofOption .real y)) : x = y := by
  cases x <;> cases y
  case none.none => rfl
  case some.some a b => rw [eq_of_told (hx a rfl) (spelled_real_inj.mp h)]
  case none.some b => simp [ofOption, spelled, hy b rfl] at h
  case some.none a => simp [ofOption, spelled, hx a rfl] at h

theorem PatternSettings.eq_of_spelled {s t : PatternSettings} (hs : s.faults = [])
    (ht : t.faults = []) (h : spelled s.encode = spelled t.encode) : s = t := by
  have finite := isFinite_reals hs
  have finite' := isFinite_reals ht
  obtain ⟨ratio, multiplier, rule⟩ := s
  obtain ⟨ratio', multiplier', rule'⟩ := t
  simp only [faults, List.append_eq_nil_iff] at hs
  simp only [reals, List.forall_mem_cons, List.forall_mem_append, Option.mem_toList]
    at finite finite'
  simp only [encode, spelled_record_inj, spelledFields_cons_inj, spelled_real_inj, and_true] at h
  rw [eq_of_told finite.1 h.1, eq_of_spelled_option finite.2.1 finite'.2.1 h.2.1,
    SizeRule.eq_of_spelled hs.1.1 h.2.2]

theorem PricingSettings.eq_of_spelled {s t : PricingSettings} (hs : s.faults = [])
    (h : spelled s.encode = spelled t.encode) : s = t := by
  have finite := isFinite_reals hs
  obtain ⟨offset, stop⟩ := s
  obtain ⟨offset', stop'⟩ := t
  simp only [reals, List.forall_mem_cons] at finite
  simp only [encode, spelled_record_inj, spelledFields_cons_inj, spelled_real_inj, and_true] at h
  rw [eq_of_told finite.1 h.1, eq_of_told finite.2.1 h.2]

theorem LadderSettings.eq_of_spelled {s t : LadderSettings} (hs : s.faults = [])
    (h : spelled s.encode = spelled t.encode) : s = t := by
  have finite := isFinite_reals hs
  obtain ⟨lots, ratios⟩ := s
  obtain ⟨lots', ratios'⟩ := t
  simp only [reals, List.forall_mem_append] at finite
  simp only [encode, spelled_record_inj, spelledFields_cons_inj, spelled_list_inj, and_true] at h
  rw [eq_of_spelledItems finite.1 h.1, eq_of_spelledItems finite.2 h.2]

theorem RiskSettings.eq_of_spelled {s t : RiskSettings} (hs : s.faults = [])
    (h : spelled s.encode = spelled t.encode) : s = t := by
  have finite := isFinite_reals hs
  obtain ⟨drawdown, daily, margin, spread⟩ := s
  obtain ⟨drawdown', daily', margin', spread'⟩ := t
  simp only [reals, List.forall_mem_cons] at finite
  simp only [encode, spelled_record_inj, spelledFields_cons_inj, spelled_real_inj,
    spelled_ofNat_inj, and_true] at h
  rw [eq_of_told finite.1 h.1, eq_of_told finite.2.1 h.2.1, eq_of_told finite.2.2.1 h.2.2.1,
    h.2.2.2]

theorem PositionSettings.eq_of_spelled {s t : PositionSettings}
    (h : spelled s.encode = spelled t.encode) : s = t := by
  obtain ⟨one, most⟩ := s
  obtain ⟨one', most'⟩ := t
  simp only [encode, spelled_record_inj, spelledFields_cons_inj, spelled_ofNat_inj,
    spelled_bool_inj, and_true] at h
  rw [h.1, h.2]

/-- Weights as a text tells them, which may be any doubles. -/
def ConfidenceWeights.told (w : ConfidenceWeights) : ConfidenceWeights :=
  ⟨TrendLadder.told w.trend, TrendLadder.told w.crossover, TrendLadder.told w.pattern⟩

theorem ConfidenceWeights.spelled_inj {v w : ConfidenceWeights} :
    spelled v.encode = spelled w.encode ↔ v.told = w.told := by
  simp [encode, spelled_record_inj, spelledFields_cons_inj, spelled_real_inj, told]

/-- Settings as a text tells them. -/
def Settings.told (s : Settings) : Settings :=
  { s with signal := { s.signal with weights := s.signal.weights.told } }

theorem SignalSettings.told_of_spelled {s t : SignalSettings}
    (h : spelled s.encode = spelled t.encode) :
    { s with weights := s.weights.told } = { t with weights := t.weights.told } := by
  obtain ⟨require, weights⟩ := s
  obtain ⟨require', weights'⟩ := t
  simp only [encode, spelled_record_inj, spelledFields_cons_inj, spelled_bool_inj, and_true] at h
  rw [h.1, ConfidenceWeights.spelled_inj.mp h.2]

/-- Settings without a fault that spell the same are told the same: on all doubles but the weights
there is a condition. -/
theorem Settings.told_of_spelled {s t : Settings} (hs : s.faults = []) (ht : t.faults = [])
    (h : spelled s.encode = spelled t.encode) : s.told = t.told := by
  obtain ⟨trend, pattern, ladder⟩ := sections_of_faults hs
  obtain ⟨trend', pattern', -⟩ := sections_of_faults ht
  obtain ⟨risk, pricing⟩ := limits_of_faults hs
  simp only [encode, spelled_record_inj, spelledFields_cons_inj, spelled_ofNat_inj, and_true] at h
  obtain ⟨hcapacity, htrend, hcrossover, hpattern, hsignal, hpricing, hladder, hrisk,
    hpositions⟩ := h
  have signals := SignalSettings.told_of_spelled hsignal
  simp only [told]
  rw [hcapacity, TrendSettings.eq_of_spelled trend trend' htrend,
    CrossoverSettings.eq_of_spelled hcrossover,
    PatternSettings.eq_of_spelled pattern pattern' hpattern, signals,
    PricingSettings.eq_of_spelled pricing hpricing, LadderSettings.eq_of_spelled ladder hladder,
    RiskSettings.eq_of_spelled risk hrisk, PositionSettings.eq_of_spelled hpositions]

theorem Settings.spelled_told (s : Settings) : spelled s.told.encode = spelled s.encode := by
  have weights : spelled s.signal.weights.told.encode = spelled s.signal.weights.encode := by
    simp [ConfidenceWeights.encode, ConfidenceWeights.told, spelled_record_inj,
      spelledFields_cons_inj, spelled_real_told]
  simp [encode, told, spelled_record_inj, spelledFields_cons_inj, SignalSettings.encode, weights]

/-! ## Fingerprints -/

/-- Weights that are told the same as finite ones are the same. -/
theorem ConfidenceWeights.eq_of_told {v w : ConfidenceWeights}
    (finite : ∀ x ∈ v.reals, x.isFinite = true) (h : v.told = w.told) : v = w := by
  obtain ⟨trend, crossover, pattern⟩ := v
  obtain ⟨trend', crossover', pattern'⟩ := w
  simp only [reals, List.forall_mem_cons] at finite
  simp only [told, mk.injEq] at h
  rw [TrendLadder.eq_of_told finite.1 h.1, TrendLadder.eq_of_told finite.2.1 h.2.1,
    TrendLadder.eq_of_told finite.2.2.1 h.2.2]

theorem Settings.eq_of_told {s t : Settings}
    (finite : ∀ x ∈ s.signal.weights.reals, x.isFinite = true) (h : s.told = t.told) : s = t := by
  obtain ⟨_, _, _, _, ⟨_, weights⟩, _, _, _, _⟩ := s
  obtain ⟨_, _, _, _, ⟨_, weights'⟩, _, _, _, _⟩ := t
  simp only [told, mk.injEq, SignalSettings.mk.injEq] at h
  obtain ⟨rfl, rfl, rfl, rfl, ⟨rfl, hweights⟩, rfl, rfl, rfl, rfl⟩ := h
  obtain rfl : weights = weights' := ConfidenceWeights.eq_of_told finite hweights
  rfl

/-- **What a fingerprint identifies.** Valid settings have the same canonical text if and only if
they are the same up to weights that are not finite. So settings with finite weights share their
text with equal settings only, and equal settings have the same text unless one of them holds a
negative zero. -/
theorem Settings.canonical_identifies {s t : Settings} (hs : s.validate = .ok ())
    (ht : t.validate = .ok ()) (sized : s.Sized) (sized' : t.Sized) :
    (s.canonical = t.canonical ↔ s.told = t.told) ∧
      ((∀ x ∈ s.signal.weights.reals, x.isFinite = true) → s.canonical = t.canonical →
        (s == t) = true) ∧
      ((∀ x ∈ s.reals, x ≠ -0.0) → (∀ x ∈ t.reals, x ≠ -0.0) → (s == t) = true →
        s.canonical = t.canonical) := by
  have faults : s.faults = [] := firstFault_eq_ok.mp hs
  have faults' : t.faults = [] := firstFault_eq_ok.mp ht
  have text : s.canonical = t.canonical ↔ s.told = t.told := by
    refine (write_eq_write (fits_encode faults sized) (fits_encode faults' sized')).trans ?_
    refine ⟨told_of_spelled faults faults', fun same => ?_⟩
    rw [← spelled_told s, same, spelled_told]
  refine ⟨text, fun finite same => ?_, fun proper proper' equal => ?_⟩
  · obtain rfl := eq_of_told finite (text.mp same)
    exact comparesBy.beq_self s (isNaN_of_reals faults finite)
  · rw [comparesBy.eq_of_beq s t proper proper' equal]

/-- The standard settings with a weight of the trend and with a distance of the entry. -/
def Settings.varied (weight offset : Float) : Settings :=
  { standard with
    signal := { SignalSettings.standard with weights := ⟨weight, 0.3, 0.3⟩ }
    pricing := { PricingSettings.standard with entryOffsetPoints := offset } }

theorem Settings.sized_varied (weight offset : Float) : (varied weight offset).Sized where
  historyCapacity := (by decide : standard.historyCapacity < 2 ^ 64)
  maxPositions := (by decide : standard.positions.maxPositions < 2 ^ 64)
  maxSpreadPoints := (by decide : standard.risk.maxSpreadPoints < 2 ^ 32)

/-- The text tells two finite weights apart, and an infinite one from none. -/
theorem Settings.canonical_identifies_varied :
    (varied 0.4 0.0).validate = .ok () ∧ (varied 0.5 0.0).validate = .ok () ∧
    (varied 0.4 0.0).canonical ≠ (varied 0.5 0.0).canonical ∧
    (varied (1.0 / 0.0) 0.0).validate = .ok () ∧ (varied (0.0 / 0.0) 0.0).validate = .ok () ∧
    (varied (1.0 / 0.0) 0.0).canonical = (varied (0.0 / 0.0) 0.0).canonical := by
  have valid : (varied 0.4 0.0).validate = .ok () := by decide +kernel
  have valid' : (varied 0.5 0.0).validate = .ok () := by decide +kernel
  have infinite : (varied (1.0 / 0.0) 0.0).validate = .ok () := by decide +kernel
  have nan : (varied (0.0 / 0.0) 0.0).validate = .ok () := by decide +kernel
  obtain ⟨-, apart, -⟩ := canonical_identifies valid valid' (sized_varied _ _) (sized_varied _ _)
  obtain ⟨text, -, -⟩ := canonical_identifies infinite nan (sized_varied _ _) (sized_varied _ _)
  refine ⟨valid, valid', fun same => ?_, infinite, nan, text.mpr (by decide +kernel)⟩
  have equal := apart (by decide +kernel) same
  exact absurd equal (by decide +kernel)

/-- Equal settings with different texts, which write the sign of a zero, and different settings with
the same text, which writes an infinite weight as a null. -/
theorem Settings.canonical_misidentifies :
    ((varied 0.4 0.0).validate = .ok () ∧ (varied 0.4 (-0.0)).validate = .ok () ∧
      (varied 0.4 0.0 == varied 0.4 (-0.0)) = true ∧
      (varied 0.4 0.0).canonical ≠ (varied 0.4 (-0.0)).canonical) ∧
    (varied (1.0 / 0.0) 0.0).validate = .ok () ∧ (varied (-1.0 / 0.0) 0.0).validate = .ok () ∧
      (varied (1.0 / 0.0) 0.0 == varied (-1.0 / 0.0) 0.0) = false ∧
      (varied (1.0 / 0.0) 0.0).canonical = (varied (-1.0 / 0.0) 0.0).canonical := by
  refine ⟨⟨by decide +kernel, by decide +kernel, by decide +kernel, fun same => ?_⟩,
    by decide +kernel, by decide +kernel, by decide +kernel, ?_⟩
  · have text := congrArg String.toList same
    rw [canonical, canonical, write, write, String.toList_ofList, String.toList_ofList] at text
    revert text
    decide +kernel
  · exact congrArg String.ofList (by decide +kernel)

end TrendLadder
