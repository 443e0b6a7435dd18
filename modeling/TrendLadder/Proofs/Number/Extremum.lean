import Mathlib.Data.List.Induction
import TrendLadder.Proofs.Number.Nonnegative

/-!
# The greater of two doubles

Doubles that are no NaN are ordered by `≤`, and `maxNum` gives an upper bound of its operands
(`le_maxNum_left`, `le_maxNum_right`), so a fold of it gives the highest of a list
(`isHighest_highest`). A finite double minus itself is zero, and so is zero divided by a positive
double.
-/

namespace TrendLadder

open Float.Model hiding pack unpack
open Float.Model.UnpackedFloat

/-! ## Order laws -/

theorem float_le_refl {x : Float} (number : ¬x.isNaN = true) : x ≤ x :=
  float_le_of_not_lt number number fun below => float_lt_asymm below below

theorem float_le_trans {x y z : Float} (h : x ≤ y) (h2 : y ≤ z) : x ≤ z := by
  obtain ⟨p, q, hp, hq, hpq⟩ := le_iff_rank.mp h
  obtain ⟨q2, r, hq2, hr, hqr⟩ := le_iff_rank.mp h2
  rw [hq, Option.some.injEq] at hq2
  subst hq2
  exact le_iff_rank.mpr ⟨p, r, hp, hr, hpq.trans hqr⟩

theorem float_lt_of_le_of_lt {x y z : Float} (h : x ≤ y) (h2 : y < z) : x < z := by
  obtain ⟨p, q, hp, hq, hpq⟩ := le_iff_rank.mp h
  obtain ⟨q2, r, hq2, hr, hqr⟩ := lt_iff_rank.mp h2
  rw [hq, Option.some.injEq] at hq2
  subst hq2
  exact lt_iff_rank.mpr ⟨p, r, hp, hr, lt_of_le_of_lt hpq hqr⟩

theorem float_lt_of_lt_of_le {x y z : Float} (h : x < y) (h2 : y ≤ z) : x < z := by
  obtain ⟨p, q, hp, hq, hpq⟩ := lt_iff_rank.mp h
  obtain ⟨q2, r, hq2, hr, hqr⟩ := le_iff_rank.mp h2
  rw [hq, Option.some.injEq] at hq2
  subst hq2
  exact lt_iff_rank.mpr ⟨p, r, hp, hr, lt_of_lt_of_le hpq hqr⟩

theorem not_isNaN_of_rank {x : Float} {p : ℤ ×ₗ ℤ ×ₗ ℤ} (h : rank x = some p) :
    ¬x.isNaN = true := by
  intro nan
  have none : rank x = none := congrArg unpackedRank (isNaN_iff.mp nan)
  rw [none] at h
  cases h

theorem not_isNaN_of_le {x y : Float} (h : x ≤ y) : ¬x.isNaN = true ∧ ¬y.isNaN = true := by
  obtain ⟨p, q, hp, hq, -⟩ := le_iff_rank.mp h
  exact ⟨not_isNaN_of_rank hp, not_isNaN_of_rank hq⟩

theorem float_lt_of_not_lt {x y : Float} (hx : ¬x.isNaN = true) (hy : ¬y.isNaN = true)
    (h : ¬y < x) (ne : (x == y) = false) : x < y := by
  obtain ⟨p, q, hp, hq, le⟩ := le_iff_rank.mp (float_le_of_not_lt hx hy h)
  refine lt_iff_rank.mpr ⟨p, q, hp, hq, lt_of_le_of_ne le ?_⟩
  rintro rfl
  refine absurd (beq_iff_compare.mpr ?_) (ne ▸ Bool.false_ne_true)
  have px : unpackedRank (unpacked x) = some p := hp
  have py : unpackedRank (unpacked y) = some p := hq
  rw [compare_eq_compare_rank, px, py]
  exact congrArg some (compare_eq_iff_eq.mpr rfl)

theorem float_bne_comm {x y : Float} (ne : (x == y) = false) : (y == x) = false := by
  rw [← Bool.not_eq_true, beq_iff_compare, compare_eq_compare_rank] at ne ⊢
  intro same
  cases hx : unpackedRank (unpacked x) with
  | none =>
    cases hy : unpackedRank (unpacked y) <;> rw [hx, hy] at same <;> cases same
  | some p =>
    cases hy : unpackedRank (unpacked y) with
    | none =>
      rw [hy] at same
      cases same
    | some q =>
      rw [hx, hy] at ne same
      have equal : compare q p = .eq := Option.some.inj same
      exact ne (congrArg some (compare_eq_iff_eq.mpr (compare_eq_iff_eq.mp equal).symm))

theorem float_bne_of_lt {x y : Float} (h : x < y) : (x == y) = false ∧ (y == x) = false := by
  have irrefl : ¬y < y := fun self => float_lt_asymm self self
  constructor <;> rw [← Bool.not_eq_true] <;> intro same
  · exact irrefl ((Alike.lt_iff (.inl same) (.refl y)).mp h)
  · exact irrefl ((Alike.lt_iff (Alike.symm (.inl same)) (.refl y)).mp h)

theorem isFinite_of_between {x y z : Float} (h : x < y) (h2 : y < z) : y.isFinite = true := by
  show (unpacked y).isFinite = true
  rw [lt_iff_compare] at h h2
  revert h h2
  rcases unpacked y with (_ | _) | _ | _ | _
  case infinity.negative => rcases unpacked x with (_ | _) | _ | _ | _ <;> exact nofun
  case infinity.positive => rcases unpacked z with (_ | _) | _ | _ | _ <;> exact nofun
  case notANumber => rcases unpacked x with (_ | _) | _ | _ | _ <;> exact nofun
  all_goals exact fun _ _ => rfl

theorem isFinite_of_le_of_le {x y z : Float} (hx : x.isFinite = true) (hz : z.isFinite = true)
    (h : x ≤ y) (h2 : y ≤ z) : y.isFinite = true := by
  have hx : (unpacked x).isFinite = true := hx
  have hz : (unpacked z).isFinite = true := hz
  show (unpacked y).isFinite = true
  rw [le_iff_compare] at h h2
  revert h h2
  rcases unpacked y with (_ | _) | _ | _ | _
  case infinity.negative =>
    revert hx
    rcases unpacked x with (_ | _) | _ | _ | _ <;> exact nofun
  case infinity.positive =>
    revert hz
    rcases unpacked z with (_ | _) | _ | _ | _ <;> exact nofun
  case notANumber => rcases unpacked x with (_ | _) | _ | _ | _ <;> exact nofun
  all_goals exact fun _ _ => rfl

/-! ## The greater operand -/

theorem le_maxNum_left {a b : Float} (number : ¬a.isNaN = true) : a ≤ maxNum a b := by
  rw [maxNum, if_neg number]
  split
  · next below => exact float_le_of_lt below
  · exact float_le_refl number

theorem le_maxNum_right {a b : Float} (number : ¬b.isNaN = true) : b ≤ maxNum a b := by
  unfold maxNum
  split
  · exact float_le_refl number
  · next other =>
    split
    · exact float_le_refl number
    · next above => exact float_le_of_not_lt number other above

theorem maxNum_eq_or (x y : Float) : maxNum x y = x ∨ maxNum x y = y := by
  unfold maxNum
  split
  · exact .inr rfl
  · split
    · exact .inr rfl
    · exact .inl rfl

theorem minNum_eq_or (x y : Float) : minNum x y = x ∨ minNum x y = y := by
  unfold minNum
  split
  · exact .inr rfl
  · split
    · exact .inr rfl
    · exact .inl rfl

/-! ## The highest of some doubles -/

/-- The highest of zero and some doubles. -/
def highest (xs : List Float) : Float := xs.foldl maxNum 0.0

/-- A double is zero or one of some doubles, and none of these is greater. -/
structure IsHighest (xs : List Float) (x : Float) : Prop where
  attained : x ∈ 0.0 :: xs
  nonneg : 0.0 ≤ x
  above : ∀ y ∈ xs, y ≤ x

theorem highest_concat (xs : List Float) (x : Float) :
    highest (xs ++ [x]) = maxNum (highest xs) x := List.foldl_concat ..

theorem isHighest_highest {xs : List Float} (numbers : ∀ x ∈ xs, ¬x.isNaN = true) :
    IsHighest xs (highest xs) := by
  induction xs using List.reverseRecOn with
  | nil => exact ⟨List.mem_cons_self, float_le_refl (by decide +kernel), nofun⟩
  | append_singleton xs x ih =>
    have before := ih fun y hy => numbers y (List.mem_append_left _ hy)
    have left : highest xs ≤ highest (xs ++ [x]) := by
      rw [highest_concat]
      exact le_maxNum_left (not_isNaN_of_le before.nonneg).2
    constructor
    case attained =>
      rw [highest_concat, ← List.cons_append]
      rcases maxNum_eq_or (highest xs) x with same | same <;> rw [same]
      · exact List.mem_append_left _ before.attained
      · exact List.mem_append_right _ (List.mem_singleton_self x)
    case nonneg => exact float_le_trans before.nonneg left
    case above =>
      intro y hy
      rcases List.mem_append.mp hy with earlier | now
      · exact float_le_trans (before.above y earlier) left
      · rw [List.mem_singleton.mp now, highest_concat]
        exact le_maxNum_right (numbers x (List.mem_append_right _ (List.mem_singleton_self x)))

theorem highest_append_toList (xs : List Float) (x : Option Float) :
    highest (xs ++ x.toList) = x.elim (highest xs) (maxNum (highest xs)) := by
  cases x with
  | none => rw [Option.toList_none, List.append_nil]; rfl
  | some x => exact highest_concat xs x

/-! ## Results that are zero -/

theorem float_sub_self {x : Float} (finite : x.isFinite = true) : x - x = 0.0 := by
  have finite : (unpacked x).isFinite = true := finite
  have zero : unpacked 0.0 = .zero .positive := rfl
  rw [sub_eq_ofUnpacked, ← ofUnpacked_unpacked 0.0, zero]
  congr 1
  revert finite
  rcases unpacked x with s | _ | s | ⟨s, m, e, pos⟩ <;> intro finite
  case infinity => cases finite
  case notANumber => cases finite
  case zero => cases s <;> rfl
  case finite =>
    unfold UnpackedFloat.sub
    dsimp only
    rw [Int.sub_self]
    rfl

theorem float_zero_div {x : Float} (positive : 0.0 < x) : 0.0 / x = 0.0 := by
  have zero : unpacked 0.0 = .zero .positive := rfl
  rw [lt_iff_compare, zero] at positive
  rw [← ofUnpacked_unpacked 0.0, div_eq_ofUnpacked, ofUnpacked_unpacked, zero]
  congr 1
  revert positive
  rcases unpacked x with (_ | _) | _ | (_ | _) | ⟨(_ | _), m, e, _⟩ <;> intro positive
  case infinity.positive | finite.positive => rfl
  all_goals cases positive

end TrendLadder
