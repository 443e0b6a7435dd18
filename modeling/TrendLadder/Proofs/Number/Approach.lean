import TrendLadder.Proofs.Number.Distance
import TrendLadder.Proofs.Number.Nearest

/-!
# Part of the way to a double

`x + a * (y - x)` is the double a part of the way from `x` to `y`, with three roundings. It does not
leave the interval if the part is less than one and the difference does not overflow
(`float_le_approach`, `float_approach_le`).

1. The difference may be rounded up. The double before it is then less than the exact difference,
   which would else have been rounded to it.
2. A part is at most `1 - 2 ^ -53`. That much of a double is nearer to the double before it than to
   the double itself (`mul_le_of_lt_one`), unless both are multiples of the least unit, where
   differences are exact.
3. So what is added is at most the exact difference (`mul_sub_le`), and the sum is not rounded past
   the other end.
-/

namespace TrendLadder

open Float.Model hiding pack unpack
open Float.Model.UnpackedFloat

/-! ## Positive results are rounded -/

section Results

variable {x y : Float}

theorem unpacked_of_positive (hx : x.isFinite = true) (positive : 0 < rational x) :
    ∃ (m : ℕ) (e : ℤ) (pos : 0 < m), unpacked x = .finite .positive m e pos ∧
      target m e = e ∧ e ≤ 971 ∧ rational x = m * 2 ^ e := by
  have proper := isProper_unpacked hx
  unfold rational at positive ⊢
  cases u : unpacked x with
  | notANumber | infinity s =>
    rw [u] at proper
    exact proper.elim
  | zero s =>
    rw [u] at positive
    exact absurd positive (lt_irrefl 0)
  | finite s m e pos =>
    obtain ⟨own, coarse⟩ := unit_of_unpacked u
    cases s with
    | positive => exact ⟨m, e, pos, rfl, own, coarse, rfl⟩
    | negative =>
      rw [u, unpackedRational_negative] at positive
      exact absurd positive (neg_neg_of_pos (mul_two_zpow_pos pos e)).not_gt

theorem unpacked_of_rational_eq_zero (hx : x.isFinite = true) (zero : rational x = 0) :
    ∃ s, unpacked x = .zero s := by
  have proper := isProper_unpacked hx
  unfold rational at zero
  cases u : unpacked x with
  | notANumber | infinity s =>
    rw [u] at proper
    exact proper.elim
  | zero s => exact ⟨s, rfl⟩
  | finite s m e pos =>
    have positive := mul_two_zpow_pos pos e
    rw [u] at zero
    cases s with
    | positive => exact absurd zero positive.ne'
    | negative =>
      rw [unpackedRational_negative] at zero
      exact absurd zero (neg_neg_of_pos positive).ne

theorem roundsTo_normalize {n g : ℤ} (positive : (0 : ℚ) < n * 2 ^ g) (s : Sign) :
    RoundsTo (n * 2 ^ g) (UnpackedFloat.normalize .binary64 n g s) := by
  have whole : 0 < n := Int.cast_pos.mp (pos_of_mul_pos_left positive (zpow_pos two_pos g).le)
  have sign : compare n 0 = .gt := compare_gt_iff_gt.mpr whole
  obtain ⟨a, rfl⟩ : ∃ a : ℕ, n = a := ⟨n.natAbs, by omega⟩
  unfold UnpackedFloat.normalize
  rw [sign]
  exact roundsTo_round (Int.natCast_pos.mp whole) g

theorem exists_roundsTo_self (hx : x.isFinite = true) (positive : 0 < rational x) :
    ∃ u, RoundsTo (rational x) u ∧ x = ofUnpacked u := by
  obtain ⟨m, e, pos, same, own, -, value⟩ := unpacked_of_positive hx positive
  refine ⟨_, value ▸ roundsTo_of_target_eq pos own, ?_⟩
  rw [← same, ofUnpacked_unpacked]

theorem add_of_zero {s : Sign} (zero : unpacked x = .zero s) (hy : y.isFinite = true)
    (positive : 0 < rational y) : x + y = y := by
  obtain ⟨n, f, pos, same, -, -, -⟩ := unpacked_of_positive hy positive
  rw [add_eq_ofUnpacked, zero, same]
  show ofUnpacked (.finite .positive n f pos) = y
  rw [← same, ofUnpacked_unpacked]

theorem exists_roundsTo_add (hx : x.isFinite = true) (hy : y.isFinite = true)
    (positive : 0 < rational x + rational y) :
    ∃ u, RoundsTo (rational x + rational y) u ∧ x + y = ofUnpacked u := by
  have properX := isProper_unpacked hx
  have properY := isProper_unpacked hy
  cases u : unpacked x with
  | notANumber | infinity s =>
    rw [u] at properX
    exact properX.elim
  | zero s =>
    have zero : rational x = 0 := by rw [rational, u]; rfl
    rw [zero, zero_add] at positive ⊢
    rw [add_of_zero u hy positive]
    exact exists_roundsTo_self hy positive
  | finite s m e pos =>
    cases w : unpacked y with
    | notANumber | infinity t =>
      rw [w] at properY
      exact properY.elim
    | zero t =>
      have zero : rational y = 0 := by rw [rational, w]; rfl
      rw [zero, add_zero] at positive ⊢
      rw [float_add_comm, add_of_zero w hx positive]
      exact exists_roundsTo_self hx positive
    | finite t n f pos2 =>
      have exact : ((s.apply (m <<< (e - min e f).toNat : ℕ) +
          t.apply (n <<< (f - min e f).toNat : ℕ) : ℤ) : ℚ) * 2 ^ min e f =
          rational x + rational y := by
        rw [rational, rational, u, w, Int.cast_add, add_mul,
          apply_shiftLeft_mul s m (min_le_left e f), apply_shiftLeft_mul t n (min_le_right e f)]
        rfl
      rw [← exact] at positive ⊢
      refine ⟨_, roundsTo_normalize positive .positive, ?_⟩
      rw [add_eq_ofUnpacked, u, w]
      rfl

theorem exists_roundsTo_mul (hx : x.isFinite = true) (hy : y.isFinite = true)
    (positiveX : 0 < rational x) (positiveY : 0 < rational y) :
    ∃ u, RoundsTo (rational x * rational y) u ∧ x * y = ofUnpacked u := by
  obtain ⟨m, e, hm, u, own, -, valueX⟩ := unpacked_of_positive hx positiveX
  obtain ⟨n, f, hn, w, own2, -, valueY⟩ := unpacked_of_positive hy positiveY
  rw [valueX, valueY]
  refine ⟨_, roundsTo_mul_own hm hn own own2, ?_⟩
  rw [mul_eq_ofUnpacked, u, w]

theorem mul_of_rational_eq_zero (hx : x.isFinite = true) (hy : y.isFinite = true)
    (zero : rational x = 0 ∨ rational y = 0) :
    (x * y).isFinite = true ∧ rational (x * y) = 0 := by
  have product : ∃ s, unpacked (x * y) = .zero s := by
    have properX := isProper_unpacked hx
    have properY := isProper_unpacked hy
    rw [mul_eq_ofUnpacked]
    rcases zero with zero | zero
    · obtain ⟨s, u⟩ := unpacked_of_rational_eq_zero hx zero
      rw [u]
      cases w : unpacked y with
      | notANumber | infinity t =>
        rw [w] at properY
        exact properY.elim
      | zero t | finite t n f pos => exact ⟨_, unpacked_ofUnpacked_zero _⟩
    · obtain ⟨s, w⟩ := unpacked_of_rational_eq_zero hy zero
      rw [w]
      cases u : unpacked x with
      | notANumber | infinity t =>
        rw [u] at properX
        exact properX.elim
      | zero t | finite t n f pos => exact ⟨_, unpacked_ofUnpacked_zero _⟩
  obtain ⟨s, same⟩ := product
  exact ⟨isFinite_of_unpacked same rfl, by rw [rational, same]; rfl⟩

end Results

/-! ## Numbers of at most 53 bits -/

/-- A number that is not negative and that a double holds exactly. -/
def IsShort (q : ℚ) : Prop :=
  ∃ (k : ℕ) (j : ℤ), q = k * 2 ^ j ∧ k < 2 ^ 53 ∧ -1074 ≤ j ∧ j ≤ 971

section Short

variable {v q : ℚ} {u : UnpackedFloat} {x : Float}

theorem IsShort.lt_overflowBound (h : IsShort q) : q < overflowBound := by
  obtain ⟨k, j, rfl, few, -, coarse⟩ := h
  have bits : (k : ℚ) ≤ ((2 ^ 53 - 1 : ℕ) : ℚ) := Nat.cast_le.mpr (by omega)
  have most : (k : ℚ) * 2 ^ j ≤ (2 ^ 53 - 1 : ℕ) * 2 ^ (971 : ℤ) :=
    mul_le_mul bits (zpow_le_zpow_right₀ one_le_two coarse) (zpow_pos two_pos j).le
      (Nat.cast_nonneg _)
  have unit : (0 : ℚ) < 2 ^ (971 : ℤ) := zpow_pos two_pos _
  have twice := two_mul_overflowBound
  rw [Nat.cast_add, Nat.cast_mul, Nat.cast_two, Nat.cast_one, add_mul, one_mul, mul_assoc] at twice
  refine most.trans_lt (lt_of_mul_lt_mul_left ?_ zero_le_two)
  rw [twice]
  exact lt_add_of_pos_right _ unit

/-- What is at most a short number is rounded to a double that is. -/
theorem RoundsTo.le_of_short (h : RoundsTo v u) (short : IsShort q) (le : v ≤ q) :
    (ofUnpacked u).isFinite = true ∧ rational (ofUnpacked u) ≤ q := by
  have finite := h.isFinite_iff.mpr (le.trans_lt short.lt_overflowBound)
  refine ⟨finite, ?_⟩
  obtain ⟨k, j, rfl, few, fine, -⟩ := short
  rw [h.rational_eq finite]
  exact h.le few.le fine le

theorem isShort_rational (hx : x.isFinite = true) (nonneg : 0 ≤ rational x) :
    IsShort (rational x) := by
  obtain ⟨k, j, value, -, high, fine, coarse⟩ := exists_rational_eq hx
  have sign : 0 ≤ k := by
    rw [value] at nonneg
    by_contra negative
    exact absurd nonneg (not_le.mpr (mul_neg_of_neg_of_pos
      (Int.cast_lt_zero.mpr (not_le.mp negative)) (zpow_pos two_pos j)))
  obtain ⟨a, rfl⟩ : ∃ a : ℕ, k = a := ⟨k.natAbs, by omega⟩
  exact ⟨a, j, value, by omega, fine, coarse⟩

end Short

/-! ## A part of a double -/

section Part

variable {a d : Float}

/-- The greatest double below one is `1 - 2 ^ -53`. -/
theorem rational_le_of_lt_one (ha : a.isFinite = true) (part : a < 1.0) :
    rational a ≤ 1 - 2 ^ (-53 : ℤ) := by
  have one : rational 1.0 = 1 := by
    show ((2 ^ 52 : ℕ) : ℚ) * 2 ^ (-52 : ℤ) = 1
    norm_num
  rw [lt_iff_rational ha rfl, one] at part
  obtain ⟨k, j, value, -, high, -, -⟩ := exists_rational_eq ha
  rw [value] at part ⊢
  have unit : (0 : ℚ) < 2 ^ (-53 : ℤ) := zpow_pos two_pos _
  have least : (1 : ℚ) - 2 ^ (-53 : ℤ) = (2 ^ 53 - 1 : ℤ) * 2 ^ (-53 : ℤ) := by
    push_cast
    norm_num
  rw [least]
  rcases le_or_gt (-53) j with coarse | fine
  · -- the number is a multiple of the unit below one
    have power : (2 : ℚ) ^ j = (2 ^ (j + 53).toNat : ℤ) * 2 ^ (-53 : ℤ) := by
      push_cast
      rw [← zpow_natCast, Int.toNat_of_nonneg (by omega), ← zpow_add₀ two_ne_zero]
      congr 1
      omega
    rw [power, ← mul_assoc, ← Int.cast_mul] at part ⊢
    have below : ((k * 2 ^ (j + 53).toNat : ℤ) : ℚ) * 2 ^ (-53 : ℤ) <
        ((2 ^ 53 : ℤ) : ℚ) * 2 ^ (-53 : ℤ) := part.trans_eq (by push_cast; norm_num)
    have whole := Int.cast_lt.mp (lt_of_mul_lt_mul_right below unit.le)
    exact mul_le_mul_of_nonneg_right (Int.cast_le.mpr (by omega)) unit.le
  · rcases le_or_gt k 0 with nonpos | positive
    · have below : (k : ℚ) * 2 ^ j ≤ 0 :=
        mul_nonpos_of_nonpos_of_nonneg (Int.cast_nonpos.mpr nonpos) (zpow_pos two_pos j).le
      exact below.trans (mul_nonneg (by norm_num) unit.le)
    · exact mul_le_mul (Int.cast_le.mpr (by omega)) (zpow_le_zpow_right₀ one_le_two (by omega))
        (zpow_pos two_pos j).le (by norm_num)

/-- A part of a double with all its bits is rounded to the double before it at most. -/
theorem RoundsTo.le_before {part : ℚ} (small : part ≤ 1 - 2 ^ (-53 : ℤ)) {n : ℕ} {f : ℤ}
    (own : target n f = f) (above : -1074 < f) (coarse : f ≤ 971) {u : UnpackedFloat}
    (h : RoundsTo (part * (n * 2 ^ f)) u) :
    ∃ q, IsShort q ∧ q < n * 2 ^ f ∧ unpackedRational u ≤ q := by
  have unit : (0 : ℚ) < 2 ^ f := zpow_pos two_pos f
  have full := log2_eq_of_unit own above
  have nonzero : n ≠ 0 := by
    rintro rfl
    cases full
  obtain ⟨least, short⟩ := (Nat.log2_eq_iff nonzero).mp full
  have exact : part * (n * 2 ^ f) ≤ (n - n * 2 ^ (-53 : ℤ)) * 2 ^ f := by
    calc part * (n * 2 ^ f) ≤ (1 - 2 ^ (-53 : ℤ)) * (n * 2 ^ f) :=
          mul_le_mul_of_nonneg_right small (mul_nonneg (Nat.cast_nonneg n) unit.le)
      _ = (n - n * 2 ^ (-53 : ℤ)) * 2 ^ f := by ring
  rcases least.lt_or_eq with more | rfl
  · -- the double before has the same unit, and what is rounded is nearer to it
    refine ⟨(n - 1 : ℕ) * 2 ^ f, ⟨n - 1, f, rfl, by omega, above.le, coarse⟩, ?_, ?_⟩
    · exact mul_lt_mul_of_pos_right (Nat.cast_lt.mpr (by omega)) unit
    · refine h.le_of_nearer (by omega) (by omega) above.le ?_
      have bits : ((2 ^ 52 : ℕ) : ℚ) < n := Nat.cast_lt.mpr more
      have power : (2 : ℚ) ^ (-53 : ℤ) = 1 / 2 ^ 53 := by norm_num
      have odd : ((2 * (n - 1) + 1 : ℕ) : ℚ) = 2 * n - 1 := by
        have natural : 2 * (n - 1) + 1 + 1 = 2 * n := by omega
        rw [eq_sub_iff_add_eq]
        exact_mod_cast natural
      have nearer : 2 * (n - n * 2 ^ (-53 : ℤ)) < (2 * n - 1 : ℚ) := by
        rw [power]
        push_cast at bits
        linarith
      calc 2 * (part * (n * 2 ^ f)) ≤ 2 * ((n - n * 2 ^ (-53 : ℤ)) * 2 ^ f) :=
            mul_le_mul_of_nonneg_left exact zero_le_two
        _ = 2 * (n - n * 2 ^ (-53 : ℤ)) * 2 ^ f := (mul_assoc ..).symm
        _ < (2 * n - 1) * 2 ^ f := mul_lt_mul_of_pos_right nearer unit
        _ = (2 * (n - 1) + 1 : ℕ) * 2 ^ f := by rw [odd]
  · -- the double before has half the unit, and what is rounded is at most that double
    have half : (2 : ℚ) ^ f = 2 * 2 ^ (f - 1) := by
      rw [← zpow_one_add₀ two_ne_zero]
      congr 1
      omega
    have before : (((2 ^ 52 : ℕ) : ℚ) - (2 ^ 52 : ℕ) * 2 ^ (-53 : ℤ)) * 2 ^ f =
        (2 ^ 53 - 1 : ℕ) * 2 ^ (f - 1) := by
      rw [half]
      norm_num
      ring
    refine ⟨(2 ^ 53 - 1 : ℕ) * 2 ^ (f - 1), ⟨_, _, rfl, by norm_num, by omega, by omega⟩, ?_, ?_⟩
    · rw [half, ← mul_assoc]
      refine mul_lt_mul_of_pos_right ?_ (zpow_pos two_pos _)
      norm_num
    · exact h.le (by norm_num) (by omega) (before ▸ exact)

/-- A part of a double is at most the double. It is at most a short number before the double, unless
the double is a small number of least units. -/
theorem mul_le_of_lt_one (ha : a.isFinite = true) (hd : d.isFinite = true)
    (positive : 0 < rational a) (part : a < 1.0) (positiveD : 0 < rational d) :
    (a * d).isFinite = true ∧ rational (a * d) ≤ rational d ∧
      ((∃ n : ℕ, rational d = n * 2 ^ (-1074 : ℤ) ∧ n < 2 ^ 53) ∨
        ∃ q, IsShort q ∧ q < rational d ∧ rational (a * d) ≤ q) := by
  obtain ⟨u, rounds, product⟩ := exists_roundsTo_mul ha hd positive positiveD
  have small := rational_le_of_lt_one ha part
  have one : rational a ≤ 1 := small.trans (sub_le_self _ (zpow_pos two_pos _).le)
  obtain ⟨finite, le⟩ := rounds.le_of_short (isShort_rational hd positiveD.le)
    (mul_le_of_le_one_left positiveD.le one)
  rw [product]
  refine ⟨finite, le, ?_⟩
  obtain ⟨n, f, hn, -, own, coarse, value⟩ := unpacked_of_positive hd positiveD
  obtain ⟨bits, fine⟩ := log2_le_of_unit own
  rcases fine.lt_or_eq with above | rfl
  · right
    rw [value] at rounds ⊢
    obtain ⟨q, short, below, most⟩ := rounds.le_before small own above coarse
    exact ⟨q, short, below, (rounds.rational_eq finite).trans_le most⟩
  · exact .inl ⟨n, value, (Nat.log2_lt hn.ne').mp (by omega)⟩

end Part

/-! ## A part of the way -/

section Way

variable {x y a : Float}

theorem rational_le_of_le (hx : x.isFinite = true) (hy : y.isFinite = true) (le : x ≤ y) :
    rational x ≤ rational y := by
  by_contra above
  exact float_not_lt_of_le le ((lt_iff_rational hy hx).mpr (not_le.mp above))

theorem exists_roundsTo_sub (hx : x.isFinite = true) (hy : y.isFinite = true) (lt : x < y) :
    ∃ u, RoundsTo (rational y - rational x) u ∧ y - x = ofUnpacked u := by
  have positive := sub_pos.mpr ((lt_iff_rational hx hy).mp lt)
  rw [sub_eq_add_neg, ← rational_neg] at positive ⊢
  rw [float_sub_eq_add_neg]
  exact exists_roundsTo_add hy (isFinite_neg x ▸ hx) positive

/-- A positive difference is a number of least units, and a short number if these are few. -/
theorem isShort_sub (hx : x.isFinite = true) (hy : y.isFinite = true) (lt : x < y) {n : ℕ}
    (few : n < 2 ^ 53) (less : rational y - rational x < n * 2 ^ (-1074 : ℤ)) :
    IsShort (rational y - rational x) := by
  obtain ⟨k, valueX⟩ := exists_rational_eq_units hx
  obtain ⟨l, valueY⟩ := exists_rational_eq_units hy
  have units : rational y - rational x = (l - k : ℤ) * 2 ^ (-1074 : ℤ) := by
    rw [valueX, valueY, Int.cast_sub, sub_mul]
  have unit : (0 : ℚ) < 2 ^ (-1074 : ℤ) := zpow_pos two_pos _
  have positive := sub_pos.mpr ((lt_iff_rational hx hy).mp lt)
  rw [units] at positive
  have whole : 0 < l - k := Int.cast_pos.mp (pos_of_mul_pos_left positive unit.le)
  obtain ⟨m, hm⟩ : ∃ m : ℕ, l - k = m := ⟨(l - k).natAbs, by omega⟩
  rw [hm] at units
  have fewer : m < n := Nat.cast_lt.mp (lt_of_mul_lt_mul_right (units.symm.trans_lt less) unit.le)
  exact ⟨m, -1074, units, fewer.trans few, le_refl _, by norm_num⟩

/-- A part of a difference is at most the exact difference. -/
theorem mul_sub_le (hx : x.isFinite = true) (hy : y.isFinite = true) (lt : x < y)
    (room : (y - x).isFinite = true) (ha : a.isFinite = true) (positive : 0 < rational a)
    (part : a < 1.0) :
    (a * (y - x)).isFinite = true ∧ rational (a * (y - x)) ≤ rational y - rational x := by
  have ahead : 0 < rational (y - x) := by
    have ahead := float_zero_lt_sub_iff.mpr lt
    rwa [lt_iff_rational rfl room, rational_zero] at ahead
  obtain ⟨u, rounds, same⟩ := exists_roundsTo_sub hx hy lt
  obtain ⟨finite, le, before⟩ := mul_le_of_lt_one ha room positive part ahead
  refine ⟨finite, ?_⟩
  by_contra above
  have up : rational y - rational x < rational (y - x) := (not_le.mp above).trans_le le
  -- a short number that is not less than the exact difference would be what that rounds to
  have not_above {q : ℚ} (short : IsShort q) (exactLe : rational y - rational x ≤ q) :
      rational (y - x) ≤ q := by
    rw [same]
    exact (rounds.le_of_short short exactLe).2
  rcases before with ⟨n, value, few⟩ | ⟨q, short, below, most⟩
  · have short := isShort_sub hx hy lt few (up.trans_eq value)
    exact absurd (not_above short (le_refl _)) (not_le.mpr up)
  · exact absurd (not_above short ((not_le.mp above).le.trans most)) (not_le.mpr below)

/-- A sum that is at most a double is not rounded past it. -/
theorem float_add_le (hx : x.isFinite = true) (ha : a.isFinite = true) (hy : y.isFinite = true)
    (le : rational x + rational a ≤ rational y) : x + a ≤ y := by
  obtain ⟨k, j, value, low, high, fine, coarse⟩ := exists_rational_eq hy
  -- seen from below: the negated sum does not fall below the negated double
  have exact : ((-k : ℤ) : ℚ) * 2 ^ j ≤ rational (-x) + rational (-a) := by
    rw [rational_neg, rational_neg, Int.cast_neg, neg_mul, ← value]
    linarith
  have negated : rational (-y) = ((-k : ℤ) : ℚ) * 2 ^ j := by
    rw [rational_neg, value, Int.cast_neg, neg_mul]
  have above := isAtLeast_add (isFinite_neg x ▸ hx) (isFinite_neg a ▸ ha) (by omega) (by omega)
    fine coarse exact
  have notBelow := above.not_lt (isFinite_neg y ▸ hy) negated.le
  rw [Alike.lt_iff (Alike.neg_add_neg x a) (.refl (-y)), float_neg_lt_neg] at notBelow
  exact float_le_of_not_lt (not_isNaN_add hx (not_isNaN_of_isFinite ha))
    (not_isNaN_of_isFinite hy) notBelow

/-- What is added to get a part of the way is not below zero and at most the exact difference. -/
theorem approach_bounds (hx : x.isFinite = true) (hy : y.isFinite = true) (le : x ≤ y)
    (room : (y - x).isFinite = true) (nonneg : ¬a < 0.0) (part : a < 1.0) :
    (a * (y - x)).isFinite = true ∧ ¬a * (y - x) < 0.0 ∧
      rational (a * (y - x)) ≤ rational y - rational x := by
  have zero : ¬(0.0 : Float).isNaN = true := by decide +kernel
  have numberA : ¬a.isNaN = true := (not_isNaN_of_le (float_le_of_lt part)).1
  have ha : a.isFinite = true :=
    isFinite_of_le_of_le rfl rfl (float_le_of_not_lt zero numberA nonneg) (float_le_of_lt part)
  have ordered := sub_nonneg.mpr (rational_le_of_le hx hy le)
  have ahead : ¬y - x < 0.0 := float_sub_lt_zero_iff.not.mpr (float_not_lt_of_le le)
  have product := float_mul_not_lt_zero nonneg ahead
  have sign : 0 ≤ rational a := by
    rwa [lt_iff_rational ha rfl, rational_zero, not_lt] at nonneg
  by_cases lt : x < y
  · rcases sign.lt_or_eq with positive | zero
    · obtain ⟨finite, most⟩ := mul_sub_le hx hy lt room ha positive part
      exact ⟨finite, product, most⟩
    · obtain ⟨finite, vanishes⟩ := mul_of_rational_eq_zero ha room (.inl zero.symm)
      exact ⟨finite, product, vanishes.trans_le ordered⟩
  · -- a difference that is neither above nor below zero is zero
    have same : rational (y - x) = 0 := by
      have notAbove : ¬0.0 < y - x := float_zero_lt_sub_iff.not.mpr lt
      rw [lt_iff_rational rfl room, rational_zero, not_lt] at notAbove
      rw [lt_iff_rational room rfl, rational_zero, not_lt] at ahead
      exact le_antisymm notAbove ahead
    obtain ⟨finite, vanishes⟩ := mul_of_rational_eq_zero ha room (.inr same)
    exact ⟨finite, product, vanishes.trans_le ordered⟩

/-- A part of the way does not lead back. -/
theorem float_le_approach (hx : x.isFinite = true) (hy : y.isFinite = true) (le : x ≤ y)
    (room : (y - x).isFinite = true) (nonneg : ¬a < 0.0) (part : a < 1.0) :
    x ≤ x + a * (y - x) := by
  obtain ⟨finite, forward, -⟩ := approach_bounds hx hy le room nonneg part
  exact float_le_of_not_lt (not_isNaN_of_isFinite hx)
    (not_isNaN_add hx (not_isNaN_of_isFinite finite)) (float_add_not_lt forward)

/-- **A part of the way does not lead past the end.** -/
theorem float_approach_le (hx : x.isFinite = true) (hy : y.isFinite = true) (le : x ≤ y)
    (room : (y - x).isFinite = true) (nonneg : ¬a < 0.0) (part : a < 1.0) :
    x + a * (y - x) ≤ y := by
  obtain ⟨finite, -, most⟩ := approach_bounds hx hy le room nonneg part
  exact float_add_le hx finite hy (by linarith)

theorem isFinite_sub_iff (hx : x.isFinite = true) (hy : y.isFinite = true) (lt : x < y) :
    (y - x).isFinite = true ↔ rational y - rational x < overflowBound := by
  obtain ⟨u, rounds, same⟩ := exists_roundsTo_sub hx hy lt
  rw [same]
  exact rounds.isFinite_iff

end Way

end TrendLadder
