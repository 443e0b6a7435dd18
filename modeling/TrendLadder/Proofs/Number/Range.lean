import Mathlib.Order.Interval.Set.UnorderedInterval
import TrendLadder.Proofs.Number.Approach

/-!
# The range of an approach

An approach moves a double a multiple of the way to another one. A part of the way leads to a double
between the two, whichever end it starts from, if their distance does not overflow
(`approach_mem_uIcc`). Otherwise the result may be infinite, and from there on no approach leads to
a number: it fails exactly at an infinite start and at an infinite multiple of no way
(`isNaN_approach_iff`).
-/

namespace TrendLadder

open Float.Model hiding pack unpack
open Float.Model.UnpackedFloat

theorem isNaN_ofUnpacked (u : UnpackedFloat) : (ofUnpacked u).isNaN = u.isNaN := by
  cases number : u.isNaN with
  | false => exact Bool.eq_false_of_not_eq_true (not_isNaN_ofUnpacked number)
  | true =>
    rw [UnpackedFloat.isNaN_iff.mp number]
    rfl

section Results

variable {x y a : Float}

theorem isNaN_add_right (x : Float) (nan : y.isNaN = true) : (x + y).isNaN = true := by
  rw [add_eq_ofUnpacked, isNaN_ofUnpacked, isNaN_iff.mp nan]
  rcases unpacked x with (_ | _) | _ | (_ | _) | ⟨(_ | _), m, e, pos⟩ <;> rfl

/-- A positive multiple is no number exactly if it is an infinite multiple of zero. -/
theorem isNaN_mul_iff (positive : 0.0 < a) (number : ¬x.isNaN = true) :
    (a * x).isNaN = true ↔ a.isFinite = false ∧ (x == 0.0) = true := by
  by_cases finite : a.isFinite = true
  · refine iff_of_false ?_ fun h => ?_
    · rw [float_mul_comm]
      exact not_isNaN_mul number finite positive
    · rw [finite] at h
      exact absurd h.1 (by decide)
  · have zero : unpacked 0.0 = .zero .positive := rfl
    have number := isNaN_unpacked number
    rw [mul_eq_ofUnpacked, isNaN_ofUnpacked, unpacked_of_infinite positive finite, beq_iff_compare,
      zero]
    revert number
    rcases unpacked x with s | _ | s | ⟨(_ | _), m, e, pos⟩ <;> intro number
    case notANumber => cases number
    case infinity => cases s <;> simp [UnpackedFloat.mul, UnpackedFloat.compare]
    case zero => simp [UnpackedFloat.mul, UnpackedFloat.compare, finite]
    all_goals simp [UnpackedFloat.mul, UnpackedFloat.compare]

theorem float_sub_beq_zero_iff (hx : x.isFinite = true) (hy : y.isFinite = true) :
    (y - x == 0.0) = true ↔ (x == y) = true := by
  rw [← not_iff_not, Bool.not_eq_true, Bool.not_eq_true]
  constructor
  · intro other
    have number := not_isNaN_sub hy (not_isNaN_of_isFinite hx)
    by_cases less : y - x < 0.0
    · exact (float_bne_of_lt (float_sub_lt_zero_iff.mp less)).2
    · have greater := float_lt_of_not_lt (by decide +kernel) number less (float_bne_comm other)
      exact (float_bne_of_lt (float_zero_lt_sub_iff.mp greater)).1
  · intro other
    rcases float_lt_or_lt hx hy other with less | greater
    · exact (float_bne_of_lt (float_zero_lt_sub_iff.mpr less)).2
    · exact (float_bne_of_lt (float_sub_lt_zero_iff.mpr greater)).1

/-- From an infinite double a positive multiple of the way to a finite one leads to no number. -/
theorem isNaN_approach_of_infinite (hx : ¬x.isFinite = true) (hy : y.isFinite = true)
    (positive : 0.0 < a) : (x + a * (y - x)).isNaN = true := by
  have zero : unpacked 0.0 = .zero .positive := rfl
  have hx : ¬(unpacked x).isFinite = true := hx
  have hy : (unpacked y).isFinite = true := hy
  cases u : unpacked x with
  | zero | finite =>
    rw [u] at hx
    exact absurd rfl hx
  | notANumber =>
    rw [float_add_comm]
    exact isNaN_add_right _ (isNaN_iff.mpr u)
  | infinity s =>
    have back : unpacked (y - x) = .infinity (-s) := by
      rw [sub_eq_ofUnpacked, u]
      revert hy
      rcases unpacked y with t | _ | t | ⟨t, m, e, pos⟩ <;> intro hy
      case zero | finite => exact unpacked_ofUnpacked_special rfl
      all_goals cases hy
    have product : unpacked (a * (y - x)) = .infinity (-s) := by
      rw [lt_iff_compare, zero] at positive
      rw [mul_eq_ofUnpacked, back]
      revert positive
      rcases unpacked a with (_ | _) | _ | _ | ⟨(_ | _), m, e, pos⟩ <;> intro positive
      case infinity.positive | finite.positive => cases s <;> exact unpacked_ofUnpacked_special rfl
      all_goals cases positive
    rw [add_eq_ofUnpacked, isNaN_ofUnpacked, u, product]
    cases s <;> rfl

/-- A positive multiple of the way to a finite double leads to no number exactly if it starts at an
infinite double or at none, or is an infinite multiple of no way. -/
theorem isNaN_approach_iff (hy : y.isFinite = true) (positive : 0.0 < a) :
    (x + a * (y - x)).isNaN = true ↔
      x.isFinite = false ∨ a.isFinite = false ∧ (x == y) = true := by
  by_cases hx : x.isFinite = true
  · have way := not_isNaN_sub hy (not_isNaN_of_isFinite hx)
    have product := isNaN_mul_iff positive way
    rw [float_sub_beq_zero_iff hx hy] at product
    rw [← product]
    constructor
    · intro nan
      by_contra number
      exact not_isNaN_add hx (fun h => number (.inr h)) nan
    · rintro (infinite | nan)
      · exact absurd hx (infinite ▸ Bool.false_ne_true)
      · exact isNaN_add_right x nan
  · exact iff_of_true (isNaN_approach_of_infinite hx hy positive)
      (.inl (Bool.eq_false_of_not_eq_true hx))

/-! ## Differences that do not overflow -/

theorem Alike.isFinite_eq (h : Alike x y) : x.isFinite = y.isFinite := by
  have signless (u : UnpackedFloat) : (unsigned u).isFinite = u.isFinite := by cases u <;> rfl
  show (unpacked x).isFinite = (unpacked y).isFinite
  rw [← signless, alike_iff.mp h, signless]

theorem Alike.rational_eq (h : Alike x y) : rational x = rational y := by
  have signless (u : UnpackedFloat) : unpackedRational (unsigned u) = unpackedRational u := by
    cases u <;> rfl
  rw [rational, rational, ← signless, alike_iff.mp h, signless]

theorem isFinite_sub_comm (x y : Float) : (y - x).isFinite = (x - y).isFinite := by
  rw [← (alike_neg_sub x y).isFinite_eq, isFinite_neg]

theorem isFinite_sub_iff_abs (hx : x.isFinite = true) (hy : y.isFinite = true) :
    (y - x).isFinite = true ↔ |rational y - rational x| < overflowBound := by
  by_cases other : (x == y) = false
  · rcases float_lt_or_lt hx hy other with less | greater
    · rw [abs_of_pos (sub_pos.mpr ((lt_iff_rational hx hy).mp less))]
      exact isFinite_sub_iff hx hy less
    · rw [isFinite_sub_comm, abs_sub_comm,
        abs_of_pos (sub_pos.mpr ((lt_iff_rational hy hx).mp greater))]
      exact isFinite_sub_iff hy hx greater
  · have same := Bool.eq_true_of_not_eq_false other
    have zero : Alike (y - x) 0.0 := .inl ((float_sub_beq_zero_iff hx hy).mpr same)
    have equal : rational x = rational y := Alike.rational_eq (.inl same)
    rw [zero.isFinite_eq, equal, sub_self, abs_zero]
    refine iff_of_true rfl ?_
    unfold overflowBound
    positivity

theorem abs_rational_lt (hx : x.isFinite = true) : |rational x| < overflowBound := by
  rcases le_total 0 (rational x) with nonneg | nonpos
  · rw [abs_of_nonneg nonneg]
    exact (isShort_rational hx nonneg).lt_overflowBound
  · rw [abs_of_nonpos nonpos, ← rational_neg]
    have finite : (-x).isFinite = true := isFinite_neg x ▸ hx
    refine (isShort_rational finite ?_).lt_overflowBound
    rw [rational_neg]
    exact neg_nonneg.mpr nonpos

section Between

variable {z : Float} (hx : x.isFinite = true) (hy : y.isFinite = true) (hz : z.isFinite = true)
  (between : rational y ∈ Set.uIcc (rational x) (rational z))

include hx hy hz between

theorem isFinite_sub_of_mem_uIcc (room : (z - x).isFinite = true) : (y - x).isFinite = true := by
  rw [isFinite_sub_iff_abs hx hz] at room
  rw [isFinite_sub_iff_abs hx hy]
  exact (Set.abs_sub_left_of_mem_uIcc between).trans_lt room

theorem isFinite_sub_or (far : ¬(y - x).isFinite = true) : (z - y).isFinite = true := by
  rw [isFinite_sub_iff_abs hx hy, not_lt] at far
  rw [isFinite_sub_iff_abs hy hz]
  have whole : |rational y - rational x| + |rational z - rational y| =
      |rational z - rational x| := by
    rcases Set.mem_uIcc.mp between with ⟨low, high⟩ | ⟨low, high⟩
    · rw [abs_of_nonneg (sub_nonneg.mpr low), abs_of_nonneg (sub_nonneg.mpr high),
        abs_of_nonneg (sub_nonneg.mpr (low.trans high))]
      ring
    · rw [abs_of_nonpos (sub_nonpos.mpr high), abs_of_nonpos (sub_nonpos.mpr low),
        abs_of_nonpos (sub_nonpos.mpr (low.trans high))]
      ring
  have ends := abs_sub (rational z) (rational x)
  linarith [abs_rational_lt hx, abs_rational_lt hz]

end Between

/-- **A part of the way stays in the range**, whichever end it starts from. -/
theorem approach_mem_uIcc (hx : x.isFinite = true) (hy : y.isFinite = true)
    (room : (y - x).isFinite = true) (nonneg : ¬a < 0.0) (part : a < 1.0) :
    (x + a * (y - x)).isFinite = true ∧
      rational (x + a * (y - x)) ∈ Set.uIcc (rational x) (rational y) := by
  have upward {x y : Float} (hx : x.isFinite = true) (hy : y.isFinite = true)
      (room : (y - x).isFinite = true) (le : x ≤ y) : (x + a * (y - x)).isFinite = true ∧
      rational x ≤ rational (x + a * (y - x)) ∧ rational (x + a * (y - x)) ≤ rational y := by
    have forward := float_le_approach hx hy le room nonneg part
    have short := float_approach_le hx hy le room nonneg part
    have finite := isFinite_of_le_of_le hx hy forward short
    exact ⟨finite, rational_le_of_le hx finite forward, rational_le_of_le finite hy short⟩
  by_cases less : y < x
  · have turned : Opposite (x + a * (y - x)) (-x + a * (-y - -x)) :=
      .add (.refl _) (.mul_left (.refl a) (.sub (.refl _) (.refl _)))
    have back : Alike (-(y - x)) (-y - -x) := .symm (Opposite.sub (.refl _) (.refl _))
    rw [← isFinite_neg, back.isFinite_eq] at room
    have below : -x ≤ -y := float_neg_le_neg.mpr (float_le_of_lt less)
    obtain ⟨finite, least, most⟩ := upward (isFinite_neg x ▸ hx) (isFinite_neg y ▸ hy) room below
    rw [turned.isFinite_eq, isFinite_neg] at finite
    rw [turned.rational_eq, rational_neg, rational_neg] at least most
    exact ⟨finite, Set.mem_uIcc_of_ge (by linarith) (by linarith)⟩
  · have numberX := not_isNaN_of_isFinite hx
    have numberY := not_isNaN_of_isFinite hy
    obtain ⟨finite, least, most⟩ := upward hx hy room (float_le_of_not_lt numberX numberY less)
    exact ⟨finite, Set.mem_uIcc_of_le least most⟩

end Results

end TrendLadder
