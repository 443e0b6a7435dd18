import TrendLadder.Pattern
import TrendLadder.Proofs.Number.Nonnegative
import TrendLadder.Proofs.Settings.Reals

/-!
# The lower bound of the body

A validator takes a size for its new lower bound exactly if its settings are valid with it
(`PatternValidator.adjustMinSize_eq_ok`, `PatternSettings.validate_withMinSize`), though the two ask
about the upper bound in different words: not above it, and at most it. For numbers that is the
same, and the bounds of valid settings are numbers.

So adjustments never break settings. `PatternValidator.adjustAll` makes any number of them, with any
sizes, and `adjusted_adjustAll` says that the settings stay valid and move in their lower bound
alone, to the size that was accepted last.
-/

namespace TrendLadder

/-! ## Another lower bound -/

namespace SizeRule

@[simp] theorem minSize_withMinSize (rule : SizeRule) (size : Float) :
    (rule.withMinSize size).minSize = size := by
  cases rule <;> rfl

@[simp] theorem maxSize?_withMinSize (rule : SizeRule) (size : Float) :
    (rule.withMinSize size).maxSize? = rule.maxSize? := by
  cases rule <;> rfl

@[simp] theorem withMinSize_withMinSize (rule : SizeRule) (size size2 : Float) :
    (rule.withMinSize size).withMinSize size2 = rule.withMinSize size2 := by
  cases rule <;> rfl

@[simp] theorem withMinSize_minSize (rule : SizeRule) : rule.withMinSize rule.minSize = rule := by
  cases rule <;> rfl

end SizeRule

/-- A size can be the lower bound: it is finite, positive and not above the upper bound. -/
def SizeRule.Allows (rule : SizeRule) (size : Float) : Prop :=
  size.isFinite = true ∧ 0.0 < size ∧ ∀ maxSize, rule.maxSize? = some maxSize → ¬maxSize < size

theorem SizeRule.faults_withMinSize {rule : SizeRule} {size : Float} (valid : rule.faults = []) :
    (rule.withMinSize size).faults = [] ↔ rule.Allows size := by
  cases rule with
  | minimum baseSize =>
    refine faultUnless_eq_nil.trans (isPositive_iff.trans ?_)
    simp [Allows, maxSize?]
  | band minSize maxSize =>
    have most : maxSize.isFinite = true :=
      isFinite_reals valid maxSize (List.mem_cons_of_mem _ List.mem_cons_self)
    -- of two numbers one is at most the other if it is not above it
    have ordered (finite : size.isFinite = true) : ¬maxSize < size ↔ size ≤ maxSize :=
      float_not_lt_iff (not_isNaN_of_isFinite most) (not_isNaN_of_isFinite finite)
    simp only [withMinSize, faults, List.append_eq_nil_iff, faultUnless_eq_nil, isPositive_iff,
      most, Bool.true_and, decide_eq_true_iff, Allows, maxSize?, Option.some.injEq, forall_eq',
      and_assoc]
    exact and_congr_right fun finite => and_congr_right fun _ => (ordered finite).symm

/-- Valid settings stay valid exactly with the lower bounds that their rule allows. -/
theorem PatternSettings.validate_withMinSize {s : PatternSettings} {size : Float}
    (valid : s.validate = .ok ()) :
    { s with size := s.size.withMinSize size }.validate = .ok () ↔ s.size.Allows size := by
  have valid : s.faults = [] := firstFault_eq_ok.mp valid
  simp only [faults, List.append_eq_nil_iff] at valid
  obtain ⟨⟨rule, wick⟩, volume⟩ := valid
  rw [validate, firstFault_eq_ok, ← SizeRule.faults_withMinSize rule]
  simp only [faults, List.append_eq_nil_iff]
  exact ⟨fun all => all.1.1, fun rule => ⟨⟨rule, wick⟩, volume⟩⟩

namespace PatternValidator

/-- The validator with another lower bound. -/
def withMinSize (v : PatternValidator) (size : Float) : PatternValidator :=
  ⟨{ v.settings with size := v.settings.size.withMinSize size }⟩

theorem adjustMinSize_of_allowed {v : PatternValidator} {size : Float}
    (allowed : v.settings.size.Allows size) : v.adjustMinSize size = .ok (v.withMinSize size) := by
  obtain ⟨finite, positive, below⟩ := allowed
  have sized : isPositive size = true := isPositive_iff.mpr ⟨finite, positive⟩
  rw [adjustMinSize, sized]
  cases bound : v.settings.size.maxSize? with
  | none => rfl
  | some maxSize => exact if_neg (below maxSize bound)

theorem adjustMinSize_eq_ok {v next : PatternValidator} {size : Float} :
    v.adjustMinSize size = .ok next ↔
      v.settings.size.Allows size ∧ next = v.withMinSize size := by
  constructor
  · intro adjusted
    unfold adjustMinSize at adjusted
    split at adjusted
    · cases adjusted
    · next sized =>
      have sized : size.isFinite = true ∧ 0.0 < size := isPositive_iff.mp (by simpa using sized)
      split at adjusted
      · next maxSize bound =>
        split at adjusted
        · cases adjusted
        · next below =>
          cases adjusted
          refine ⟨⟨sized.1, sized.2, ?_⟩, rfl⟩
          intro other found
          cases bound.symm.trans found
          exact below
      · next bound =>
        cases adjusted
        refine ⟨⟨sized.1, sized.2, ?_⟩, rfl⟩
        intro other found
        cases bound.symm.trans found
  · rintro ⟨allowed, rfl⟩
    exact adjustMinSize_of_allowed allowed

theorem adjustMinSize_of_forbidden {v : PatternValidator} {size : Float}
    (forbidden : ¬v.settings.size.Allows size) :
    ∃ reason, v.adjustMinSize size = .error reason := by
  cases adjusted : v.adjustMinSize size with
  | error reason => exact ⟨reason, rfl⟩
  | ok next => exact absurd (adjustMinSize_eq_ok.mp adjusted).1 forbidden

end PatternValidator

/-! ## Adjustments -/

/-- What a validator answers to a size: its new rule, or why there is none. -/
abbrev Adjustment : Type := Except SizeRefusal SizeRule

namespace PatternValidator

/-- The answer to a size, and the validator after it, which a refused size leaves as it is. -/
def adjust (v : PatternValidator) (size : Float) : Adjustment × PatternValidator :=
  match v.adjustMinSize size with
  | .ok next => (.ok next.settings.size, next)
  | .error refusal => (.error refusal, v)

/-- Sizes and the answers to them, one after the other, and the validator after them. -/
def adjustAll (v : PatternValidator) : List Float → List (Float × Adjustment) × PatternValidator
  | [] => ([], v)
  | size :: sizes =>
    let (answer, next) := v.adjust size
    let (log, last) := next.adjustAll sizes
    ((size, answer) :: log, last)

/-- The size that was accepted last. -/
def lastAccepted (log : List (Float × Adjustment)) : Option Float :=
  (log.filter fun entry => entry.2.isOk).getLast?.map Prod.fst

theorem lastAccepted_accepted (log : List (Float × Adjustment)) (size : Float) (rule : SizeRule) :
    lastAccepted (log ++ [(size, .ok rule)]) = some size := by
  simp [lastAccepted, List.filter_append, Except.isOk, Except.toBool]

theorem lastAccepted_refused (log : List (Float × Adjustment)) (size : Float)
    (refusal : SizeRefusal) :
    lastAccepted (log ++ [(size, .error refusal)]) = lastAccepted log := by
  simp [lastAccepted, List.filter_append, Except.isOk, Except.toBool]

/-- What adjustments make of a validator for settings `s`. -/
structure Adjusted (s : PatternSettings) (log : List (Float × Adjustment)) (v : PatternValidator) :
    Prop where
  valid : v.settings.validate = .ok ()
  /-- Nothing but the lower bound has moved, and that to the size that was accepted last. -/
  settings : v.settings =
    { s with size := s.size.withMinSize ((lastAccepted log).getD s.size.minSize) }
  /-- The sizes that were accepted are those with which the settings are valid. -/
  accepted : ∀ entry ∈ log, ∀ rule, entry.2 = .ok rule ↔ rule = s.size.withMinSize entry.1 ∧
    { s with size := s.size.withMinSize entry.1 }.validate = .ok ()

namespace Adjusted

variable {s : PatternSettings} {log : List (Float × Adjustment)} {v : PatternValidator}

theorem start (valid : s.validate = .ok ()) : Adjusted s [] ⟨s⟩ where
  valid := valid
  settings := by simp [lastAccepted]
  accepted := nofun

/-- Whether a size is allowed does not depend on the lower bound that it replaces. -/
theorem allows_iff (h : Adjusted s log v) (size : Float) :
    v.settings.size.Allows size ↔ { s with size := s.size.withMinSize size }.validate = .ok () := by
  have same : { v.settings with size := v.settings.size.withMinSize size } =
      { s with size := s.size.withMinSize size } := by simp [h.settings]
  rw [← PatternSettings.validate_withMinSize h.valid, same]

theorem adjust (h : Adjusted s log v) (size : Float) :
    Adjusted s (log ++ [(size, (v.adjust size).1)]) (v.adjust size).2 := by
  unfold PatternValidator.adjust
  cases made : v.adjustMinSize size with
  | ok next =>
    obtain ⟨allowed, rfl⟩ := adjustMinSize_eq_ok.mp made
    constructor
    case valid => exact (PatternSettings.validate_withMinSize h.valid).mpr allowed
    case settings => simp [withMinSize, h.settings, lastAccepted_accepted]
    case accepted =>
      simp only [List.forall_mem_append, List.forall_mem_singleton]
      refine ⟨h.accepted, fun rule => ?_⟩
      simp [withMinSize, h.settings, (h.allows_iff size).mp allowed, eq_comm]
  | error refusal =>
    have forbidden : ¬v.settings.size.Allows size := fun allowed => by
      rw [adjustMinSize_of_allowed allowed] at made
      cases made
    constructor
    case valid => exact h.valid
    case settings => rw [lastAccepted_refused, ← h.settings]
    case accepted =>
      simp only [List.forall_mem_append, List.forall_mem_singleton]
      exact ⟨h.accepted, fun rule =>
        iff_of_false nofun fun valid => forbidden ((h.allows_iff size).mpr valid.2)⟩

theorem adjustAll (h : Adjusted s log v) (sizes : List Float) :
    Adjusted s (log ++ (v.adjustAll sizes).1) (v.adjustAll sizes).2 := by
  induction sizes generalizing log v with
  | nil =>
    rw [PatternValidator.adjustAll, List.append_nil]
    exact h
  | cons size sizes ih =>
    have rest := ih (h.adjust size)
    rwa [List.append_assoc] at rest

end Adjusted

theorem map_fst_adjustAll (v : PatternValidator) (sizes : List Float) :
    (v.adjustAll sizes).1.map Prod.fst = sizes := by
  induction sizes generalizing v with
  | nil => rfl
  | cons size sizes ih => exact congrArg (size :: ·) (ih _)

/-- **Adjustments never break settings.** After any sizes at all, the settings of a validator are
valid, with the same kind of rule, upper bound, wick ratio and volume multiplier as at first, and
the lower bound is the size that was accepted last. -/
theorem adjusted_adjustAll {s : PatternSettings} (valid : s.validate = .ok ()) :
    PatternValidator.new s = .ok ⟨s⟩ ∧
    ∀ sizes log v, PatternValidator.adjustAll ⟨s⟩ sizes = (log, v) →
      log.map Prod.fst = sizes ∧ Adjusted s log v ∧
      v.settings.size.minSize = (lastAccepted log).getD s.size.minSize ∧
      v.settings.size.maxSize? = s.size.maxSize? := by
  constructor
  · rw [PatternValidator.new, valid]
    rfl
  · rintro sizes log v made
    have kept := (Adjusted.start valid).adjustAll sizes
    have asked := map_fst_adjustAll ⟨s⟩ sizes
    rw [made] at kept asked
    refine ⟨asked, kept, ?_, ?_⟩ <;> simp [show v.settings = _ from kept.settings]

/-- Settings for bodies between one and four. -/
def bandSettings : PatternSettings := ⟨0.5, none, .band 1.0 4.0⟩

/-- Of four sizes two are accepted: the upper bound itself, and then one below it. -/
theorem adjusted_band : bandSettings.validate = .ok () ∧
    (adjustAll ⟨bandSettings⟩ [4.0, 4.5, 2.5, 0.0 / 0.0]).2 =
      ⟨{ bandSettings with size := .band 2.5 4.0 }⟩ := by
  have valid : bandSettings.validate = .ok () := by decide +kernel
  have last : lastAccepted (adjustAll ⟨bandSettings⟩ [4.0, 4.5, 2.5, 0.0 / 0.0]).1 = some 2.5 := by
    decide +kernel
  cases made : adjustAll ⟨bandSettings⟩ [4.0, 4.5, 2.5, 0.0 / 0.0] with
  | mk log v =>
    obtain ⟨-, kept, -⟩ := (adjusted_adjustAll valid).2 _ log v made
    have settings := kept.settings
    rw [made] at last
    rw [show lastAccepted log = some 2.5 from last] at settings
    exact ⟨valid, congrArg PatternValidator.mk settings⟩

end PatternValidator

end TrendLadder
