import TrendLadder.Proofs.Number.Negation

/-!
# Doubles that are not below zero

A sum is below zero only if one of its operands is (`float_add_not_lt_zero`): the exact sum of
numbers that are not negative is not, and rounding and packing keep its sign. A NaN is not below
zero. Capped with `minNum`, a double is at most the cap (`minNum_le`), and a NaN becomes the cap.
-/

namespace TrendLadder

open Float.Model hiding pack unpack
open Float.Model.UnpackedFloat

/-! ## Unpacked doubles -/

/-- Whether an unpacked double is less than zero. -/
def belowZero : UnpackedFloat → Bool
  | .infinity .negative => true
  | .finite .negative _ _ _ => true
  | _ => false

theorem belowZero_roundWithAccuracy (spec : Format) (m : ℕ) (e : ℤ) (a : Accuracy) :
    belowZero (roundWithAccuracy spec .positive m e a) = false := by
  unfold roundWithAccuracy
  dsimp only
  split <;> rfl

/-- The exact sum of numbers that are not negative is rounded to one that is not. -/
theorem belowZero_normalize (spec : Format) {m : ℤ} (nonneg : 0 ≤ m) (e : ℤ) :
    belowZero (UnpackedFloat.normalize spec m e .positive) = false := by
  unfold UnpackedFloat.normalize
  rcases nonneg.lt_or_eq with positive | rfl
  · have above : compare m 0 = .gt := compare_gt_iff_gt.mpr positive
    rw [above]
    exact belowZero_roundWithAccuracy ..
  · rfl

theorem belowZero_add (spec : Format) {u v : UnpackedFloat} (hu : belowZero u = false)
    (hv : belowZero v = false) : belowZero (UnpackedFloat.add spec u v) = false := by
  rcases u with (_ | _) | _ | (_ | _) | ⟨(_ | _), m, e, _⟩ <;>
    rcases v with (_ | _) | _ | (_ | _) | ⟨(_ | _), n, f, _⟩ <;>
    first
      | exact absurd hu.symm Bool.false_ne_true
      | exact absurd hv.symm Bool.false_ne_true
      | rfl
      | skip
  case finite.positive.finite.positive =>
    unfold UnpackedFloat.add
    apply belowZero_normalize
    exact Int.add_nonneg (Int.natCast_nonneg _) (Int.natCast_nonneg _)

/-- Bits with a positive sign are those of no negative number. -/
theorem belowZero_unpack_packComponents (spec : Format) {exponent mantissa} :
    belowZero (UnpackedFloat.unpack spec
      (packComponents spec .positive exponent mantissa)) = false := by
  unfold UnpackedFloat.unpack
  simp only [unpackMantissa_packComponents, unpackExponent_packComponents,
    unpackSign_packComponents, Sign.ofBitVec_toBitVec]
  split_ifs <;> rfl

theorem belowZero_ofUnpacked {u : UnpackedFloat} (h : belowZero u = false) :
    belowZero (unpacked (ofUnpacked u)) = false := by
  show belowZero (UnpackedFloat.unpack .binary64 (UnpackedFloat.pack .binary64 u)) = false
  rcases u with (_ | _) | _ | (_ | _) | ⟨(_ | _), m, e, _⟩
  case infinity.negative => cases h
  case infinity.positive => exact belowZero_unpack_packComponents _
  case notANumber => rfl
  case zero.negative => rfl
  case zero.positive => rfl
  case finite.negative => cases h
  case finite.positive =>
    unfold UnpackedFloat.pack
    dsimp only
    split_ifs <;> exact belowZero_unpack_packComponents _

/-! ## Doubles -/

theorem lt_zero_iff {x : Float} : x < 0.0 ↔ belowZero (unpacked x) = true := by
  have zero : unpacked 0.0 = .zero .positive := rfl
  rw [lt_iff_compare, zero]
  rcases unpacked x with (_ | _) | _ | _ | ⟨(_ | _), m, e, _⟩ <;>
    simp [UnpackedFloat.compare, belowZero]

theorem not_lt_zero_iff {x : Float} : ¬x < 0.0 ↔ belowZero (unpacked x) = false := by
  rw [lt_zero_iff, Bool.not_eq_true]

theorem float_add_not_lt_zero {x y : Float} (hx : ¬x < 0.0) (hy : ¬y < 0.0) : ¬x + y < 0.0 := by
  rw [not_lt_zero_iff] at hx hy ⊢
  rw [add_eq_ofUnpacked]
  exact belowZero_ofUnpacked (belowZero_add _ hx hy)

/-! ## Caps -/

theorem exists_rank {x : Float} (number : ¬x.isNaN = true) : ∃ p, rank x = some p := by
  rw [isNaN_iff] at number
  show ∃ p, unpackedRank (unpacked x) = some p
  revert number
  rcases unpacked x with (_ | _) | _ | _ | ⟨(_ | _), m, e, _⟩ <;> intro number
  case notANumber => exact absurd rfl number
  all_goals exact ⟨_, rfl⟩

theorem float_le_of_not_lt {x y : Float} (hx : ¬x.isNaN = true) (hy : ¬y.isNaN = true)
    (h : ¬y < x) : x ≤ y := by
  obtain ⟨p, hp⟩ := exists_rank hx
  obtain ⟨q, hq⟩ := exists_rank hy
  refine le_iff_rank.mpr ⟨p, q, hp, hq, ?_⟩
  by_contra above
  exact h (lt_iff_rank.mpr ⟨q, p, hq, hp, not_le.mp above⟩)

theorem float_lt_trans {x y z : Float} (h : x < y) (h2 : y < z) : x < z := by
  obtain ⟨p, q, hp, hq, hpq⟩ := lt_iff_rank.mp h
  obtain ⟨q2, r, hq2, hr, hqr⟩ := lt_iff_rank.mp h2
  rw [hq, Option.some.injEq] at hq2
  subst hq2
  exact lt_iff_rank.mpr ⟨p, r, hp, hr, hpq.trans hqr⟩

theorem float_not_lt_of_le {x y : Float} (h : x ≤ y) : ¬y < x :=
  fun below => float_not_le_of_lt below h

theorem float_not_lt_iff {x y : Float} (hx : ¬x.isNaN = true) (hy : ¬y.isNaN = true) :
    ¬x < y ↔ y ≤ x :=
  ⟨float_le_of_not_lt hy hx, float_not_lt_of_le⟩

theorem minNum_le {x cap : Float} (number : ¬cap.isNaN = true) : minNum x cap ≤ cap := by
  have self : cap ≤ cap := by
    apply float_le_of_not_lt number number
    intro below
    exact float_lt_asymm below below
  unfold minNum
  by_cases nan : x.isNaN = true
  · rw [if_pos nan]
    exact self
  · rw [if_neg nan]
    by_cases above : cap < x
    · rw [if_pos above]
      exact self
    · rw [if_neg above]
      exact float_le_of_not_lt nan number above

/-- What is capped above zero is below zero exactly if it was. -/
theorem zero_le_minNum_iff {x cap : Float} (positive : 0.0 < cap) :
    0.0 ≤ minNum x cap ↔ ¬x < 0.0 := by
  have zero : ¬(0.0 : Float).isNaN = true := by decide +kernel
  have capped : 0.0 ≤ cap := float_le_of_lt positive
  unfold minNum
  by_cases nan : x.isNaN = true
  · rw [if_pos nan]
    refine iff_of_true capped ?_
    rw [not_lt_zero_iff, isNaN_iff.mp nan]
    rfl
  · rw [if_neg nan]
    by_cases above : cap < x
    · rw [if_pos above]
      refine iff_of_true capped fun below => ?_
      exact float_lt_asymm positive (float_lt_trans above below)
    · rw [if_neg above]
      exact ⟨float_not_lt_of_le, float_le_of_not_lt zero nan⟩

end TrendLadder
