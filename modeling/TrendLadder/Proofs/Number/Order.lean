import Mathlib.Data.Prod.Lex
import Mathlib.Data.Int.Order.Basic
import TrendLadder.Number.Extremum

/-!
# The order of doubles

Doubles other than the NaN have a `rank` in a linear order, and the comparisons of doubles are the
comparisons of ranks (`lt_iff_rank`, `le_iff_rank`). A comparison with a NaN fails.
-/

namespace TrendLadder

open Float.Model

/-- Where an unpacked double stands: its class, from -2 for the negative infinity to 2, then the
exponent, then the mantissa. -/
def unpackedRank : UnpackedFloat → Option (ℤ ×ₗ ℤ ×ₗ ℤ)
  | .notANumber => none
  | .infinity .negative => some (toLex (-2, toLex (0, 0)))
  | .finite .negative m e _ => some (toLex (-1, toLex (-e, -m)))
  | .zero _ => some (toLex (0, toLex (0, 0)))
  | .finite .positive m e _ => some (toLex (1, toLex (e, m)))
  | .infinity .positive => some (toLex (2, toLex (0, 0)))

/-- Where a double stands in the order of doubles; a NaN stands nowhere. -/
def rank (x : Float) : Option (ℤ ×ₗ ℤ ×ₗ ℤ) := unpackedRank x.toModel.unpack

/-! ## Comparisons -/

theorem compare_natCast (m n : ℕ) : compare (m : ℤ) n = compare m n := by
  rw [Int.compare_eq_ite_lt, Nat.compare_eq_ite_lt]
  simp only [Int.ofNat_lt]

theorem compare_neg_neg (e f : ℤ) : compare (-e) (-f) = (compare e f).swap := by
  rw [Int.compare_swap, Int.compare_eq_ite_lt, Int.compare_eq_ite_lt]
  simp only [Int.neg_lt_neg_iff]

/-- Unpacked doubles compare as their ranks do. -/
theorem compare_eq_compare_rank (a b : UnpackedFloat) :
    a.compare b = (unpackedRank a).bind fun p => (unpackedRank b).map fun q => compare p q := by
  -- the classes settle all but two finite doubles of one sign
  rcases a with (_ | _) | _ | _ | ⟨(_ | _), m, e, _⟩ <;>
    rcases b with (_ | _) | _ | _ | ⟨(_ | _), n, f, _⟩ <;> try rfl
  case finite.negative.finite.negative =>
    show some ((compare e f).then (compare m n)).swap =
      some ((compare (-e) (-f)).then (compare (-m : ℤ) (-n)))
    rw [compare_neg_neg, compare_neg_neg, compare_natCast, Ordering.swap_then]
  case finite.positive.finite.positive =>
    show some ((compare e f).then (compare m n)) = some ((compare e f).then (compare (m : ℤ) n))
    rw [compare_natCast]

theorem lt_iff_rank {x y : Float} :
    x < y ↔ ∃ p q, rank x = some p ∧ rank y = some q ∧ p < q := by
  have h : x < y ↔ x.toModel.unpack.compare y.toModel.unpack = some .lt :=
    decide_eq_true_iff.trans beq_iff_eq
  rw [h, compare_eq_compare_rank]
  unfold rank
  cases unpackedRank x.toModel.unpack <;> cases unpackedRank y.toModel.unpack <;>
    simp [compare_lt_iff_lt]

theorem le_iff_rank {x y : Float} :
    x ≤ y ↔ ∃ p q, rank x = some p ∧ rank y = some q ∧ p ≤ q := by
  have h : x ≤ y ↔ (x.toModel.unpack.compare y.toModel.unpack).any (·.isLE) = true :=
    decide_eq_true_iff
  rw [h, compare_eq_compare_rank]
  unfold rank
  cases unpackedRank x.toModel.unpack <;> cases unpackedRank y.toModel.unpack <;>
    simp [← Ordering.ne_gt_iff_isLE, compare_le_iff_le]

/-! ## Order laws -/

theorem float_not_le_of_lt {x y : Float} (h : x < y) : ¬y ≤ x := by
  intro h2
  obtain ⟨p, q, hp, hq, hpq⟩ := lt_iff_rank.mp h
  obtain ⟨q2, p2, hq2, hp2, hqp⟩ := le_iff_rank.mp h2
  rw [hp, Option.some.injEq] at hp2
  rw [hq, Option.some.injEq] at hq2
  rw [← hp2, ← hq2] at hqp
  exact not_le_of_gt hpq hqp

theorem float_le_of_lt {x y : Float} (h : x < y) : x ≤ y := by
  obtain ⟨p, q, hp, hq, hpq⟩ := lt_iff_rank.mp h
  exact le_iff_rank.mpr ⟨p, q, hp, hq, le_of_lt hpq⟩

theorem float_lt_asymm {x y : Float} (h : x < y) : ¬y < x :=
  fun h2 => float_not_le_of_lt h (float_le_of_lt h2)

end TrendLadder
