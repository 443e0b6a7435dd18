import TrendLadder.Proofs.Findings
import TrendLadder.Proofs.Market.Candle
import TrendLadder.Proofs.Number.Nearest
import TrendLadder.Proofs.Settings.Reals
import TrendLadder.Proofs.Signal.Compose

/-!
# The checks of a golden candle

A candle is put to five checks. `Candidate.Passes` says what each of them asks for, with the bounds
included, and `Candidate.finding` what is reported where it is not so. `Candidate.judged` says that
the verdict is exactly that: a candle that passes all checks is golden, in the direction of the
trend, and of any other one the verdict lists the findings of the failed checks, each once and in
their order.

1. The validator asks whether a bound is exceeded. What is measured of a sane candle with a finite
   body, and every limit that valid settings put on it, is a number, so a bound is kept exactly if
   it is not exceeded (`flaws_eq`).
2. The direction of the trend is asked for twice: following it is one of the checks, and only a
   candle that has a direction is golden. A candle without one does not follow any trend, so the
   findings alone decide (`verdict_of_passes`, `verdict_of_not_passes`).
-/

namespace TrendLadder

/-- What is checked about a candle. -/
inductive PatternCheck where
  | size
  | upperWick
  | lowerWick
  | trend
  | volume
deriving DecidableEq

def PatternCheck.all : List PatternCheck := [.size, .upperWick, .lowerWick, .trend, .volume]

/-- The check that a flaw is of. -/
def Flaw.check : Flaw → PatternCheck
  | .bodyTooSmall .. => .size
  | .bodyTooLarge .. => .size
  | .upperWickTooLong .. => .upperWick
  | .lowerWickTooLong .. => .lowerWick
  | .trendMismatch .. => .trend
  | .volumeTooLow .. => .volume
  | .noPreviousVolume => .volume

/-- A candle that is put to the checks of some settings. -/
structure Candidate where
  settings : PatternSettings
  candle : Candle
  previous : Option Candle
  trend : TrendDirection

namespace Candidate

def verdict (k : Candidate) : Verdict :=
  (PatternValidator.mk k.settings).validate k.candle k.previous k.trend

/-- The longest wick that the settings allow. -/
def wickLimit (k : Candidate) : Float := k.settings.maxWickRatio * k.candle.body

/-- What a check asks for. -/
def Passes (k : Candidate) : PatternCheck → Prop
  | .size => k.settings.size.minSize ≤ k.candle.body ∧
    ∀ maxSize ∈ k.settings.size.maxSize?, k.candle.body ≤ maxSize
  | .upperWick => k.candle.upperWick ≤ k.wickLimit
  | .lowerWick => k.candle.lowerWick ≤ k.wickLimit
  | .trend => k.trend = .up ∧ k.candle.opening < k.candle.closing ∨
    k.trend = .down ∧ k.candle.closing < k.candle.opening
  | .volume => ∀ multiplier ∈ k.settings.minVolumeMultiplier, ∃ previous ∈ k.previous,
    multiplier * previous.tickVolume.toFloat ≤ k.candle.tickVolume.toFloat

instance (k : Candidate) : DecidablePred k.Passes := fun c =>
  match c with
  | .size => inferInstanceAs (Decidable (_ ∧ _))
  | .upperWick | .lowerWick => inferInstanceAs (Decidable (_ ≤ _))
  | .trend => inferInstanceAs (Decidable (_ ∨ _))
  | .volume => inferInstanceAs (Decidable (∀ multiplier ∈ k.settings.minVolumeMultiplier, _))

/-- What is reported of a failed check: the measured value and the limit. -/
def finding (k : Candidate) : PatternCheck → Flaw
  | .size =>
    match k.settings.size with
    | .minimum baseSize => .bodyTooSmall k.candle.body baseSize
    | .band minSize maxSize =>
      if minSize ≤ k.candle.body then .bodyTooLarge k.candle.body maxSize
      else .bodyTooSmall k.candle.body minSize
  | .upperWick => .upperWickTooLong k.candle.upperWick k.wickLimit
  | .lowerWick => .lowerWickTooLong k.candle.lowerWick k.wickLimit
  | .trend => .trendMismatch k.candle.polarity k.trend
  | .volume =>
    match k.settings.minVolumeMultiplier, k.previous with
    | some multiplier, some previous =>
      .volumeTooLow k.candle.tickVolume (multiplier * previous.tickVolume.toFloat)
    | _, _ => .noPreviousVolume

@[simp] theorem check_finding (k : Candidate) (c : PatternCheck) : (k.finding c).check = c := by
  obtain ⟨⟨ratio, multiplier, rule⟩, candle, previous, trend⟩ := k
  cases c with
  | size =>
    cases rule with
    | minimum baseSize => rfl
    | band minSize maxSize =>
      dsimp only [finding]
      split <;> rfl
  | upperWick | lowerWick | trend => rfl
  | volume => cases multiplier <;> cases previous <;> rfl

/-- The finding of a check, if the candle fails it. -/
def findings (k : Candidate) (c : PatternCheck) : List Flaw := flawIf (¬k.Passes c) (k.finding c)

/-- The findings of the failed checks, in the order of the checks. -/
def reported (k : Candidate) : List Flaw :=
  (PatternCheck.all.filter fun c => ¬k.Passes c).map k.finding

/-- The settings are valid, the candle is sane with a finite body, and volumes have 64 bits. -/
structure IsFit (k : Candidate) : Prop where
  valid : k.settings.validate = .ok ()
  sane : k.candle.isSane = true
  body : k.candle.body.isFinite = true
  volume : k.candle.tickVolume < 2 ^ 64
  previousVolume : ∀ previous ∈ k.previous, previous.tickVolume < 2 ^ 64

/-! ## Flaws and findings -/

theorem polarity_eq_some {c : Candle} {d : Direction} :
    c.polarity = some d ↔ d.Beyond c.opening c.closing := by
  have apart : c.opening < c.closing → ¬c.closing < c.opening := float_lt_asymm
  unfold Candle.polarity Candle.isBullish Candle.isBearish
  by_cases rises : c.opening < c.closing
  · cases d <;> simp [rises, Direction.Beyond, apart rises]
  · cases d <;> simp [rises, Direction.Beyond]

theorem follows_iff_passes (k : Candidate) : k.candle.follows k.trend = true ↔ k.Passes .trend := by
  rw [Candle.follows_iff]
  constructor
  · rintro ⟨d, moved, same⟩
    have moved := polarity_eq_some.mp moved
    cases d with
    | buy => exact .inl ⟨same, moved⟩
    | sell => exact .inr ⟨same, moved⟩
  · rintro (⟨up, rises⟩ | ⟨down, falls⟩)
    · exact ⟨.buy, polarity_eq_some.mpr rises, up⟩
    · exact ⟨.sell, polarity_eq_some.mpr falls, down⟩

section Fit

variable {k : Candidate}

theorem flawIf_eq_findings {c : PatternCheck} {fails : Bool} {e : Flaw}
    (same : fails = true ↔ ¬k.Passes c) (found : e = k.finding c) :
    flawIf fails e = k.findings c := by
  rw [findings, ← found]
  congr 1
  rw [Bool.eq_iff_iff, same, decide_eq_true_iff]

variable (h : k.IsFit)

include h

theorem IsFit.isFinite_reals {x : Float} (hx : x ∈ k.settings.reals) : x.isFinite = true :=
  PatternSettings.isFinite_reals (firstFault_eq_ok.mp h.valid) x hx

theorem exceeds_wickLimit_iff {wick : Float} (number : ¬wick.isNaN = true) :
    decide (k.wickLimit < wick) = true ↔ ¬wick ≤ k.wickLimit := by
  have limit : ¬k.wickLimit.isNaN = true :=
    not_isNaN_mul_of_isFinite (h.isFinite_reals List.mem_cons_self) h.body
  rw [decide_eq_true_iff, ← float_not_lt_iff limit number, not_not]

theorem size_flaws_eq : k.settings.size.flaws k.candle.body = k.findings .size := by
  have bounds : ∀ x ∈ k.settings.size.reals, ¬x.isNaN = true := fun x hx =>
    not_isNaN_of_isFinite (h.isFinite_reals (List.mem_cons_of_mem _ (List.mem_append_right _ hx)))
  have body := not_isNaN_of_isFinite h.body
  obtain ⟨⟨ratio, multiplier, rule⟩, candle, previous, trend⟩ := k
  dsimp only at bounds body ⊢
  cases rule with
  | minimum baseSize =>
    have base := float_not_lt_iff body (bounds baseSize List.mem_cons_self)
    simp only [SizeRule.flaws, SizeRule.minSize, findings, Passes, SizeRule.maxSize?, finding,
      ← base]
    by_cases small : candle.body < baseSize <;> simp [flawIf, small]
  | band minSize maxSize =>
    have low := float_not_lt_iff body (bounds minSize List.mem_cons_self)
    have high := float_not_lt_iff (bounds maxSize (List.mem_cons_of_mem _ List.mem_cons_self)) body
    simp only [SizeRule.flaws, SizeRule.minSize, findings, Passes, SizeRule.maxSize?, finding,
      Option.mem_def, Option.some.injEq, forall_eq', ← low, ← high]
    by_cases small : candle.body < minSize <;> by_cases large : maxSize < candle.body <;>
      simp [flawIf, small, large]

theorem volume_flaws_eq :
    (match k.settings.minVolumeMultiplier with
    | some multiplier => volumeFlaws multiplier k.candle k.previous
    | none => []) = k.findings .volume := by
  have finite : ∀ x ∈ k.settings.minVolumeMultiplier, x.isFinite = true := fun x hx =>
    h.isFinite_reals (List.mem_cons_of_mem _ (List.mem_append_left _ (Option.mem_toList.mpr hx)))
  have counted := isFinite_toFloat h.volume
  have counted2 := h.previousVolume
  obtain ⟨⟨ratio, multiplier, rule⟩, candle, previous, trend⟩ := k
  cases multiplier with
  | none => simp [findings, Passes, flawIf]
  | some multiplier =>
    cases previous with
    | none => simp [volumeFlaws, findings, Passes, finding, flawIf]
    | some previous =>
      have required := not_isNaN_mul_of_isFinite (finite multiplier rfl)
        (isFinite_toFloat (counted2 previous rfl))
      have enough := float_not_lt_iff (not_isNaN_of_isFinite counted) required
      refine flawIf_eq_findings ?_ ?_
      · rw [decide_eq_true_iff, float_mul_comm, ← not_iff_not, not_not, enough]
        simp [Passes]
      · rw [finding, float_mul_comm]

theorem flaws_eq : k.settings.flaws k.candle k.previous k.trend = k.reported := by
  have upper := flawIf_eq_findings (c := .upperWick)
    (exceeds_wickLimit_iff h (Candle.not_isNaN_upperWick h.sane)) rfl
  have lower := flawIf_eq_findings (c := .lowerWick)
    (exceeds_wickLimit_iff h (Candle.not_isNaN_lowerWick h.sane)) rfl
  have trend : flawIf (!k.candle.follows k.trend) (k.finding .trend) = k.findings .trend := by
    refine flawIf_eq_findings ?_ rfl
    rw [Bool.not_eq_true', ← Bool.not_eq_true, follows_iff_passes]
  rw [reported, findings_eq_flatMap]
  show k.settings.size.flaws k.candle.body ++
    flawIf (k.wickLimit < k.candle.upperWick) (k.finding .upperWick) ++
    flawIf (k.wickLimit < k.candle.lowerWick) (k.finding .lowerWick) ++
    flawIf (!k.candle.follows k.trend) (k.finding .trend) ++ _ =
    PatternCheck.all.flatMap k.findings
  rw [size_flaws_eq h, upper, lower, trend]
  refine (congrArg (_ ++ ·) (volume_flaws_eq h)).trans ?_
  simp [PatternCheck.all]

end Fit

/-! ## The verdict -/

theorem PatternCheck.mem_all (c : PatternCheck) : c ∈ PatternCheck.all := by
  cases c <;> decide

theorem reported_eq_nil (k : Candidate) : k.reported = [] ↔ ∀ c, k.Passes c := by
  simp [reported, List.filter_eq_nil_iff, PatternCheck.mem_all]

theorem reported_once (k : Candidate) (c : PatternCheck) :
    (k.reported.filter fun flaw => flaw.check = c) = if k.Passes c then [] else [k.finding c] := by
  rw [reported, findings_once k.check_finding (by decide) (PatternCheck.mem_all c)]
  by_cases passes : k.Passes c <;> simp [passes]

theorem reported_inj {k : Candidate} {e f : Flaw} (he : e ∈ k.reported) (hf : f ∈ k.reported)
    (same : e.check = f.check) : e = f := by
  simp only [reported, List.mem_map] at he hf
  obtain ⟨c, -, rfl⟩ := he
  obtain ⟨d, -, rfl⟩ := hf
  rw [check_finding, check_finding] at same
  rw [same]

/-- A candle that passes all checks is golden, in the direction of the trend. -/
theorem verdict_of_passes {k : Candidate} (h : k.IsFit) (passes : ∀ c, k.Passes c) :
    ∃ d : Direction, d.trend = k.trend ∧ k.verdict = .valid
      ⟨k.candle.timestamp, d, k.candle.body, k.candle.upperWick, k.candle.lowerWick⟩ := by
  obtain ⟨d, moved, same⟩ := Candle.follows_iff.mp ((follows_iff_passes k).mpr (passes .trend))
  refine ⟨d, same.symm, ?_⟩
  rw [verdict, PatternValidator.validate, flaws_eq h, (reported_eq_nil k).mpr passes, moved]

theorem verdict_of_not_passes {k : Candidate} (h : k.IsFit) (fails : ¬∀ c, k.Passes c) :
    k.verdict = .rejected k.reported := by
  have some_flaw : k.reported ≠ [] := fun none => fails ((reported_eq_nil k).mp none)
  rw [verdict, PatternValidator.validate, flaws_eq h]
  split
  · contradiction
  · rfl

theorem verdict_eq_valid {k : Candidate} (h : k.IsFit) {golden : GoldenCandle} :
    k.verdict = .valid golden ↔ (∀ c, k.Passes c) ∧
      golden.timestamp = k.candle.timestamp ∧ golden.direction.trend = k.trend ∧
      golden.body = k.candle.body ∧ golden.upperWick = k.candle.upperWick ∧
      golden.lowerWick = k.candle.lowerWick := by
  by_cases passes : ∀ c, k.Passes c
  · obtain ⟨d, same, verdict⟩ := verdict_of_passes h passes
    obtain ⟨timestamp, direction, body, upper, lower⟩ := golden
    simp only [verdict, Verdict.valid.injEq, GoldenCandle.mk.injEq, ← same, Direction.trend_inj]
    constructor
    · rintro ⟨rfl, rfl, rfl, rfl, rfl⟩
      exact ⟨passes, rfl, rfl, rfl, rfl, rfl⟩
    · rintro ⟨-, rfl, rfl, rfl, rfl, rfl⟩
      exact ⟨rfl, rfl, rfl, rfl, rfl⟩
  · simp [verdict_of_not_passes h passes, passes]

theorem verdict_eq_rejected {k : Candidate} (h : k.IsFit) {flaws : List Flaw} :
    k.verdict = .rejected flaws ↔ (¬∀ c, k.Passes c) ∧ flaws = k.reported := by
  by_cases passes : ∀ c, k.Passes c
  · obtain ⟨d, -, verdict⟩ := verdict_of_passes h passes
    simp [verdict, passes]
  · rw [verdict_of_not_passes h passes, Verdict.rejected.injEq, eq_comm]
    exact (and_iff_right passes).symm

/-- The verdict is exactly what the checks say. -/
structure Judged (k : Candidate) : Prop where
  /-- Golden candles are those that pass all checks, and are described by their own measures and
  the direction of the trend. -/
  valid : ∀ golden, k.verdict = .valid golden ↔ (∀ c, k.Passes c) ∧
    golden.timestamp = k.candle.timestamp ∧ golden.direction.trend = k.trend ∧
    golden.body = k.candle.body ∧ golden.upperWick = k.candle.upperWick ∧
    golden.lowerWick = k.candle.lowerWick
  rejected : ∀ flaws, k.verdict = .rejected flaws ↔
    (¬∀ c, k.Passes c) ∧ flaws = k.reported
  /-- A failed check is listed once, with its measured value and its limit. -/
  once : ∀ flaws, k.verdict = .rejected flaws → ∀ c,
    (flaws.filter fun flaw => flaw.check = c) = if k.Passes c then [] else [k.finding c]
  ordered : ∀ flaws, k.verdict = .rejected flaws →
    (flaws.map Flaw.check).Sublist [.size, .upperWick, .lowerWick, .trend, .volume]
  /-- A body is not both too small and too large. -/
  oneSize : ∀ flaws, k.verdict = .rejected flaws → ∀ body minSize body2 maxSize,
    .bodyTooSmall body minSize ∈ flaws → .bodyTooLarge body2 maxSize ∉ flaws
  nonempty : ∀ flaws, k.verdict = .rejected flaws → flaws ≠ []

/-- The verdict on a candle is golden exactly if the candle passes all checks, and else lists the
failed ones. -/
theorem judged {k : Candidate} (h : k.IsFit) : k.Judged := by
  have listed (flaws : List Flaw) (is : k.verdict = .rejected flaws) : flaws = k.reported :=
    ((verdict_eq_rejected h).mp is).2
  constructor
  case valid => exact fun _ => verdict_eq_valid h
  case rejected => exact fun _ => verdict_eq_rejected h
  case once =>
    intro flaws is c
    rw [listed flaws is, reported_once]
  case ordered =>
    intro flaws is
    rw [listed flaws is]
    exact findings_ordered k.check_finding PatternCheck.all
  case oneSize =>
    intro flaws is body minSize body2 maxSize small large
    rw [listed flaws is] at small large
    exact Flaw.noConfusion (reported_inj small large rfl)
  case nonempty =>
    intro flaws is none
    obtain ⟨fails, rfl⟩ := (verdict_eq_rejected h).mp is
    exact fails ((reported_eq_nil k).mp none)

/-! ## A candle on its bounds -/

/-- A body of the only size that is allowed, wicks as long as they may be, and just the volume that
is asked for. -/
def edgeCandidate : Candidate where
  settings := ⟨0.5, some 1.5, .band 4.0 4.0⟩
  candle := ⟨⟨3600, 0⟩, 100.0, 106.0, 98.0, 104.0, 300, 2⟩
  previous := some ⟨⟨0, 0⟩, 99.0, 101.0, 98.0, 100.0, 200, 2⟩
  trend := .up

/-- The bounds are included. The same candle without a previous one does not follow a falling
trend. -/
theorem judged_edge :
    edgeCandidate.IsFit ∧ { edgeCandidate with previous := none, trend := .down }.IsFit ∧
    edgeCandidate.verdict = .valid ⟨⟨3600, 0⟩, .buy, 4.0, 2.0, 2.0⟩ ∧
    { edgeCandidate with previous := none, trend := .down }.verdict =
      .rejected [.trendMismatch (some .buy) .down, .noPreviousVolume] := by
  have valid : edgeCandidate.settings.validate = .ok () := by decide +kernel
  have sane : edgeCandidate.candle.isSane = true := by decide +kernel
  have body : edgeCandidate.candle.body.isFinite = true := by decide +kernel
  have fit : edgeCandidate.IsFit := ⟨valid, sane, body, by decide, by
    rintro previous ⟨⟩
    decide⟩
  have fit2 : { edgeCandidate with previous := none, trend := .down }.IsFit :=
    ⟨valid, sane, body, by decide, nofun⟩
  have passes : ∀ c, edgeCandidate.Passes c := by
    intro c
    cases c <;> decide +kernel
  refine ⟨fit, fit2, ((judged fit).valid _).mpr ⟨passes, by decide +kernel⟩,
    ((judged fit2).rejected _).mpr ⟨fun all => ?_, by decide +kernel⟩⟩
  exact absurd (all .trend) (by decide +kernel)

end Candidate

end TrendLadder
