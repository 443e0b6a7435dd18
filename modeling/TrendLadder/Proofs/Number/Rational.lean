import TrendLadder.Proofs.Number.Extremum
import TrendLadder.Proofs.Number.Faithful
import TrendLadder.Proofs.Number.Scientific

/-!
# Doubles as rational numbers

A finite double is a rational number, and finite doubles are ordered as these numbers are
(`lt_iff_rational`). `IsAtLeast` compares a rational number with a double that may be infinite;
a sum of doubles is at least every number of at most 53 bits that the exact sum is at least
(`isAtLeast_add`).
-/

namespace TrendLadder

open Float.Model hiding pack unpack
open Float.Model.UnpackedFloat

/-! ## The order of numbers in their own units -/

section Units

variable {m n : ℕ} {e f : ℤ}

/-- A number in a greater unit is greater, as it has all its bits. -/
theorem mul_two_zpow_lt_of_lt (hn : 0 < n) (unit : target m e = e) (unit2 : target n f = f)
    (lt : e < f) : (m : ℚ) * 2 ^ e < n * 2 ^ f := by
  have bounds := log2_le_of_unit unit
  have full := log2_eq_of_unit unit2 (by omega)
  have between : (2 : ℚ) ^ (m.log2 + 1 + e) ≤ 2 ^ (n.log2 + f) :=
    zpow_le_zpow_right₀ one_le_two (by omega)
  exact (lt_two_zpow m e).trans_le (between.trans (two_zpow_le hn f))

theorem mul_two_zpow_lt_iff (hm : 0 < m) (hn : 0 < n) (unit : target m e = e)
    (unit2 : target n f = f) : (m : ℚ) * 2 ^ e < n * 2 ^ f ↔ e < f ∨ e = f ∧ m < n := by
  rcases lt_trichotomy e f with lt | rfl | gt
  · exact iff_of_true (mul_two_zpow_lt_of_lt hn unit unit2 lt) (.inl lt)
  · rw [mul_lt_mul_iff_left₀ (zpow_pos two_pos e), Nat.cast_lt]
    simp
  · refine iff_of_false (mul_two_zpow_lt_of_lt hm unit2 unit gt).not_gt ?_
    omega

end Units

theorem mul_two_zpow_pos {m : ℕ} (pos : 0 < m) (e : ℤ) : (0 : ℚ) < m * 2 ^ e :=
  mul_pos (Nat.cast_pos.mpr pos) (zpow_pos two_pos e)

@[simp] theorem unpackedRational_positive {m : ℕ} {e : ℤ} (pos : 0 < m) :
    unpackedRational (.finite .positive m e pos) = m * 2 ^ e := rfl

@[simp] theorem unpackedRational_negative {m : ℕ} {e : ℤ} (pos : 0 < m) :
    unpackedRational (.finite .negative m e pos) = -(m * 2 ^ e) := by
  show ((-(m : ℤ) : ℤ) : ℚ) * 2 ^ e = _
  push_cast
  ring

theorem unpackedRational_neg (u : UnpackedFloat) :
    unpackedRational u.neg = -unpackedRational u := by
  rcases u with s | _ | s | ⟨(_ | _), m, e, pos⟩
  case finite.negative => exact ((neg_eq_iff_eq_neg.mpr (unpackedRational_negative pos))).symm
  case finite.positive => exact unpackedRational_negative pos
  all_goals rfl

/-- Unpacked doubles in their own units are ordered as the rational numbers. -/
theorem compare_proper {u w : UnpackedFloat} (hu : IsProper u) (hw : IsProper w) :
    u.compare w = some .lt ↔ unpackedRational u < unpackedRational w := by
  rcases u with _ | _ | s | ⟨(_ | _), m, e, hm⟩ <;> (try exact hu.elim) <;>
    rcases w with _ | _ | t | ⟨(_ | _), n, f, hn⟩ <;> (try exact hw.elim)
  case zero.zero => exact iff_of_false nofun (lt_irrefl 0)
  case zero.finite.negative =>
    rw [unpackedRational_negative]
    exact iff_of_false nofun (neg_neg_of_pos (mul_two_zpow_pos hn f)).not_gt
  case zero.finite.positive => exact iff_of_true rfl (mul_two_zpow_pos hn f)
  case finite.negative.zero =>
    rw [unpackedRational_negative]
    exact iff_of_true rfl (neg_neg_of_pos (mul_two_zpow_pos hm e))
  case finite.positive.zero => exact iff_of_false nofun (mul_two_zpow_pos hm e).not_gt
  case finite.negative.finite.positive =>
    rw [unpackedRational_negative]
    exact iff_of_true rfl
      ((neg_neg_of_pos (mul_two_zpow_pos hm e)).trans (mul_two_zpow_pos hn f))
  case finite.positive.finite.negative =>
    rw [unpackedRational_negative]
    exact iff_of_false nofun
      ((neg_neg_of_pos (mul_two_zpow_pos hn f)).trans (mul_two_zpow_pos hm e)).not_gt
  case finite.negative.finite.negative =>
    rw [unpackedRational_negative, unpackedRational_negative, neg_lt_neg_iff,
      mul_two_zpow_lt_iff hn hm hw hu]
    show some ((compare e f).then (compare m n)).swap = some .lt ↔ _
    rw [Ordering.swap_then, ← Int.compare_swap f e, ← Nat.compare_swap n m, Ordering.swap_swap,
      Ordering.swap_swap, Option.some.injEq, Ordering.then_eq_lt, compare_lt_iff_lt,
      compare_eq_iff_eq, compare_lt_iff_lt]
  case finite.positive.finite.positive =>
    rw [unpackedRational_positive, unpackedRational_positive, mul_two_zpow_lt_iff hm hn hu hw]
    show some ((compare e f).then (compare m n)) = some .lt ↔ _
    rw [Option.some.injEq, Ordering.then_eq_lt, compare_lt_iff_lt, compare_eq_iff_eq,
      compare_lt_iff_lt]

/-! ## Finite doubles -/

/-- The rational number that a finite double is. -/
def rational (x : Float) : ℚ := unpackedRational (unpacked x)

theorem rational_zero : rational 0.0 = 0 := rfl

theorem rational_neg (x : Float) : rational (-x) = -rational x := by
  rw [rational, unpacked_neg, unpackedRational_neg]
  rfl

theorem isFinite_of_unpacked {x : Float} {u : UnpackedFloat} (same : unpacked x = u)
    (finite : u.isFinite = true) : x.isFinite = true := by
  show (unpacked x).isFinite = true
  rw [same]
  exact finite

theorem isProper_unpacked {x : Float} (finite : x.isFinite = true) : IsProper (unpacked x) := by
  have finite : (unpacked x).isFinite = true := finite
  cases h : unpacked x with
  | notANumber | infinity s =>
    rw [h] at finite
    cases finite
  | zero s => exact trivial
  | finite s m e pos => exact (unit_of_unpacked h).1

/-- **Finite doubles are ordered as rational numbers.** -/
theorem lt_iff_rational {x y : Float} (hx : x.isFinite = true) (hy : y.isFinite = true) :
    x < y ↔ rational x < rational y :=
  lt_iff_compare.trans (compare_proper (isProper_unpacked hx) (isProper_unpacked hy))

/-- A finite double is a number of less than 54 bits in a unit that is not too small. -/
theorem exists_rational_eq {x : Float} (finite : x.isFinite = true) :
    ∃ k j : ℤ, rational x = k * 2 ^ j ∧ -2 ^ 53 < k ∧ k < 2 ^ 53 ∧ -1074 ≤ j ∧ j ≤ 971 := by
  have proper := isProper_unpacked finite
  cases h : unpacked x with
  | notANumber | infinity s =>
    rw [h] at proper
    exact proper.elim
  | zero s => exact ⟨0, 0, by rw [rational, h]; simp [unpackedRational], by norm_num⟩
  | finite s m e pos =>
    obtain ⟨unit, coarse⟩ := unit_of_unpacked h
    obtain ⟨bits, fine⟩ := log2_le_of_unit unit
    have short : m < 2 ^ 53 := (Nat.log2_lt pos.ne').mp (by omega)
    refine ⟨s.apply m, e, by rw [rational, h]; rfl, ?_, ?_, fine, coarse⟩ <;>
      cases s <;> simp only [Sign.apply] <;> omega

/-- Finite doubles are whole numbers of the least unit. -/
theorem exists_rational_eq_units {x : Float} (finite : x.isFinite = true) :
    ∃ k : ℤ, rational x = k * 2 ^ (-1074 : ℤ) := by
  obtain ⟨k, j, value, -, -, fine, -⟩ := exists_rational_eq finite
  refine ⟨k * 2 ^ (j + 1074).toNat, ?_⟩
  rw [value, Int.cast_mul, Int.cast_pow, mul_assoc, Int.cast_ofNat, ← zpow_natCast,
    ← zpow_add₀ two_ne_zero, Int.toNat_of_nonneg (by omega), add_neg_cancel_right]

theorem least_le_rational {x : Float} (finite : x.isFinite = true) (positive : 0.0 < x) :
    2 ^ (-1074 : ℤ) ≤ rational x := by
  obtain ⟨k, value⟩ := exists_rational_eq_units finite
  have unit : (0 : ℚ) < 2 ^ (-1074 : ℤ) := zpow_pos two_pos _
  rw [lt_iff_rational rfl finite, rational_zero, value] at positive
  have whole : 0 < k := by
    rw [← Int.cast_pos (R := ℚ)]
    exact pos_of_mul_pos_left positive unit.le
  rw [value]
  exact le_mul_of_one_le_left unit.le (Int.cast_one_le_of_pos whole)

/-! ## A rational number and a double -/

/-- A double is infinite or at least a rational number. -/
def IsAtLeast (q : ℚ) (x : Float) : Prop :=
  unpacked x = .infinity .positive ∨ x.isFinite = true ∧ q ≤ rational x

namespace IsAtLeast

variable {q : ℚ} {x y : Float}

theorem lt (h : IsAtLeast q y) (finite : x.isFinite = true) (below : rational x < q) : x < y := by
  rcases h with infinite | ⟨finite2, above⟩
  · have proper := isProper_unpacked finite
    rw [lt_iff_compare, infinite]
    cases u : unpacked x with
    | notANumber | infinity s =>
      rw [u] at proper
      exact proper.elim
    | zero s => rfl
    | finite s m e pos => cases s <;> rfl
  · exact (lt_iff_rational finite finite2).mpr (below.trans_le above)

theorem not_lt (h : IsAtLeast q y) (finite : x.isFinite = true) (le : rational x ≤ q) : ¬y < x := by
  rcases h with infinite | ⟨finite2, above⟩
  · rw [lt_iff_compare, infinite]
    rcases unpacked x with (_ | _) | _ | _ | _ <;> exact nofun
  · rw [lt_iff_rational finite2 finite, Rat.not_lt]
    exact le.trans above

theorem le_rational (h : IsAtLeast q x) (le : x ≤ y) (finite : y.isFinite = true) :
    q ≤ rational y := by
  by_contra above
  exact float_not_lt_of_le le (h.lt finite (not_le.mp above))

end IsAtLeast

/-! ## Rounding to a double -/

theorem unpacked_ofUnpacked_zero (s : Sign) : unpacked (ofUnpacked (.zero s)) = .zero s := by
  cases s <;> rfl

/-- What is not finite is packed as it is. -/
theorem unpacked_ofUnpacked_special {u : UnpackedFloat} (special : u.isFinite = false) :
    unpacked (ofUnpacked u) = u := by
  cases u with
  | notANumber => rfl
  | infinity s => exact unpack_packedInfinity s
  | zero s | finite s m e pos => cases special

/-- A number in too great a unit is packed as an infinity. -/
theorem unpacked_ofUnpacked_great (s : Sign) {m : ℕ} {e : ℤ} (pos : 0 < m) (great : 971 < e) :
    unpacked (ofUnpacked (.finite s m e pos)) = .infinity s := by
  have bias : (Format.binary64.exponentBias : ℤ) + Format.binary64.mantissaBitsWithoutImplicit =
      1075 := by decide
  show unpack .binary64 (pack .binary64 (.finite s m e pos)) = _
  rw [pack]
  dsimp only
  rw [if_pos, unpack_packedInfinity]
  rw [add_assoc, bias]
  omega

theorem isAtLeast_of_unpacked {x : Float} {u : UnpackedFloat} {q : ℚ} (same : unpacked x = u)
    (finite : u.isFinite = true) (le : q ≤ unpackedRational u) : IsAtLeast q x := by
  refine .inr ⟨isFinite_of_unpacked same finite, ?_⟩
  rw [rational, same]
  exact le

/-- A rounded number that is not below zero is a double, or infinite if it is too great. -/
theorem isAtLeast_ofUnpacked {u : UnpackedFloat} {q : ℚ} (proper : IsProper u)
    (nonneg : belowZero u = false) (le : q ≤ unpackedRational u) :
    IsAtLeast q (ofUnpacked u) := by
  rcases u with _ | _ | s | ⟨(_ | _), m, e, pos⟩ <;> try exact proper.elim
  case zero => exact isAtLeast_of_unpacked (unpacked_ofUnpacked_zero s) rfl le
  case finite.negative => cases nonneg
  case finite.positive =>
    rcases le_or_gt e 971 with small | great
    · exact isAtLeast_of_unpacked (unpacked_ofUnpacked_finite _ pos proper small) rfl le
    · exact .inl (unpacked_ofUnpacked_great _ pos great)

/-- A rounded number below zero is a double, if it is not below one. -/
theorem isAtLeast_ofUnpacked_neg {u : UnpackedFloat} {k : ℕ} {j : ℤ} (proper : IsProper u)
    (nonneg : belowZero u = false) (few : k < 2 ^ 53) (coarse : j ≤ 971)
    (le : unpackedRational u ≤ k * 2 ^ j) : IsAtLeast (-(k * 2 ^ j)) (ofUnpacked u.neg) := by
  have le2 : -((k : ℚ) * 2 ^ j) ≤ unpackedRational u.neg := by
    rw [unpackedRational_neg]
    exact neg_le_neg le
  rcases u with _ | _ | s | ⟨(_ | _), m, e, pos⟩ <;> try exact proper.elim
  case zero => exact isAtLeast_of_unpacked (unpacked_ofUnpacked_zero (-s)) rfl le2
  case finite.negative => cases nonneg
  case finite.positive =>
    have small : e ≤ 971 := by
      by_contra great
      have full := log2_eq_of_unit proper (by omega)
      have bound : (2 : ℚ) ^ (52 + 972 : ℤ) ≤ m * 2 ^ e := by
        refine (zpow_le_zpow_right₀ one_le_two ?_).trans (two_zpow_le pos e)
        omega
      have room : (k : ℚ) * 2 ^ j < 2 ^ (53 + 971 : ℤ) := by
        have bits : (k : ℚ) < ((2 ^ 53 : ℕ) : ℚ) := Nat.cast_lt.mpr few
        have power : ((2 ^ 53 : ℕ) : ℚ) = 2 ^ (53 : ℤ) := by norm_num
        calc (k : ℚ) * 2 ^ j < (2 ^ 53 : ℕ) * 2 ^ j :=
              mul_lt_mul_of_pos_right bits (zpow_pos two_pos j)
          _ = 2 ^ (53 + j) := by rw [power, zpow_add₀ two_ne_zero]
          _ ≤ 2 ^ (53 + 971 : ℤ) := zpow_le_zpow_right₀ one_le_two (by omega)
      exact absurd (bound.trans le) (not_le.mpr room)
    exact isAtLeast_of_unpacked (unpacked_ofUnpacked_finite .negative pos proper small) rfl le2

/-! ## Sums -/

section Sums

variable {k j : ℤ} {x y : Float}

/-- A rounded number of any sign is at least every number of less than 54 bits that the exact one is
at least. -/
theorem isAtLeast_normalize {n g : ℤ} (low : -2 ^ 53 < k) (high : k ≤ 2 ^ 53) (fine : -1074 ≤ j)
    (coarse : j ≤ 971) (le : (k : ℚ) * 2 ^ j ≤ n * 2 ^ g) :
    IsAtLeast (k * 2 ^ j) (ofUnpacked (UnpackedFloat.normalize .binary64 n g .positive)) := by
  have unit : (0 : ℚ) < 2 ^ j := zpow_pos two_pos j
  unfold UnpackedFloat.normalize
  rcases lt_trichotomy n 0 with neg | rfl | pos
  · have sign : compare n 0 = .lt := compare_lt_iff_lt.mpr neg
    obtain ⟨a, rfl⟩ : ∃ a : ℕ, n = -a := ⟨n.natAbs, by omega⟩
    have positive : 0 < a := by omega
    have below : (k : ℚ) * 2 ^ j < 0 := by
      refine le.trans_lt ?_
      push_cast
      rw [neg_mul]
      exact neg_neg_of_pos (mul_two_zpow_pos positive g)
    have kNeg : k < 0 := by
      by_contra nonneg
      exact below.not_ge (mul_nonneg (Int.cast_nonneg (not_lt.mp nonneg)) unit.le)
    obtain ⟨b, rfl⟩ : ∃ b : ℕ, k = -b := ⟨k.natAbs, by omega⟩
    have rounds := roundsTo_round positive g
    push_cast at le ⊢
    rw [neg_mul, neg_mul] at le
    rw [neg_mul, sign]
    dsimp only
    rw [Int.neg_neg, Int.toNat_natCast]
    have turned := round_neg .binary64 .positive a g
    have minus : -Sign.positive = Sign.negative := rfl
    rw [minus] at turned
    rw [turned]
    exact isAtLeast_ofUnpacked_neg rounds.isProper (belowZero_roundWithAccuracy ..) (by omega)
      coarse (rounds.le (by omega) fine (neg_le_neg_iff.mp le))
  · rw [Int.cast_zero, zero_mul] at le
    exact isAtLeast_of_unpacked (unpacked_ofUnpacked_zero .positive) rfl le
  · have sign : compare n 0 = .gt := compare_gt_iff_gt.mpr pos
    obtain ⟨a, rfl⟩ : ∃ a : ℕ, n = a := ⟨n.natAbs, by omega⟩
    have rounds := roundsTo_round (Int.natCast_pos.mp pos) g
    rw [sign]
    dsimp only
    rw [Int.toNat_natCast]
    refine isAtLeast_ofUnpacked rounds.isProper (belowZero_roundWithAccuracy ..) ?_
    rcases le_or_gt k 0 with nonpos | kPos
    · have nonneg : ((0 : ℕ) : ℚ) * 2 ^ j ≤ a * 2 ^ g := by
        rw [Nat.cast_zero, zero_mul]
        exact (mul_two_zpow_pos (Int.natCast_pos.mp pos) g).le
      have zero := rounds.ge (Nat.zero_le _) fine nonneg
      rw [Nat.cast_zero, zero_mul] at zero
      exact (mul_nonpos_of_nonpos_of_nonneg (Int.cast_nonpos.mpr nonpos) unit.le).trans zero
    · obtain ⟨b, rfl⟩ : ∃ b : ℕ, k = b := ⟨k.natAbs, by omega⟩
      exact rounds.ge (by omega) fine le

/-- A shifted number in the smaller of two units. -/
theorem apply_shiftLeft_mul (s : Sign) (m : ℕ) {e f : ℤ} (le : f ≤ e) :
    ((s.apply (m <<< (e - f).toNat : ℕ) : ℤ) : ℚ) * 2 ^ f = (s.apply m : ℤ) * 2 ^ e := by
  have shifted := shiftLeft_mul_two_zpow m le
  cases s with
  | positive => exact shifted
  | negative =>
    simp only [Sign.apply, Int.cast_neg, neg_mul, neg_inj]
    exact shifted

/-- **A sum does not fall below a number of at most 53 bits.** -/
theorem isAtLeast_add (hx : x.isFinite = true) (hy : y.isFinite = true) (low : -2 ^ 53 < k)
    (high : k ≤ 2 ^ 53) (fine : -1074 ≤ j) (coarse : j ≤ 971)
    (le : (k : ℚ) * 2 ^ j ≤ rational x + rational y) : IsAtLeast (k * 2 ^ j) (x + y) := by
  have properX := isProper_unpacked hx
  have properY := isProper_unpacked hy
  unfold rational at le
  rw [add_eq_ofUnpacked]
  cases u : unpacked x with
  | notANumber | infinity s =>
    rw [u] at properX
    exact properX.elim
  | zero s =>
    cases w : unpacked y with
    | notANumber | infinity t =>
      rw [w] at properY
      exact properY.elim
    | zero t =>
      rw [u, w] at le
      have sum : (0 : ℚ) + 0 = 0 := add_zero 0
      cases s <;> cases t <;>
        exact isAtLeast_of_unpacked (unpacked_ofUnpacked_zero _) rfl (le.trans_eq sum)
    | finite t n f pos =>
      rw [u, w] at le
      have same : ofUnpacked (.finite t n f pos) = y := by rw [← w, ofUnpacked_unpacked]
      show IsAtLeast _ (ofUnpacked (.finite t n f pos))
      rw [same]
      refine .inr ⟨hy, le.trans_eq ?_⟩
      rw [rational, w]
      exact zero_add _
  | finite s m e pos =>
    cases w : unpacked y with
    | notANumber | infinity t =>
      rw [w] at properY
      exact properY.elim
    | zero t =>
      rw [u, w] at le
      have same : ofUnpacked (.finite s m e pos) = x := by rw [← u, ofUnpacked_unpacked]
      show IsAtLeast _ (ofUnpacked (.finite s m e pos))
      rw [same]
      refine .inr ⟨hx, le.trans_eq ?_⟩
      rw [rational, u]
      exact add_zero _
    | finite t n f pos2 =>
      rw [u, w] at le
      refine isAtLeast_normalize low high fine coarse (le.trans_eq ?_)
      rw [Int.cast_add, add_mul, apply_shiftLeft_mul s m (min_le_left e f),
        apply_shiftLeft_mul t n (min_le_right e f)]
      rfl

end Sums

end TrendLadder
