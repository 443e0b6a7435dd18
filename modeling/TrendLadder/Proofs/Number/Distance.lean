import TrendLadder.Proofs.Number.Rational

/-!
# A double and a distance

A difference of doubles has the sign of their comparison (`float_sub_lt_zero_iff`). Adding a
distance that is not below zero never leads below a double, and subtracting it never above
(`float_add_not_lt`, `float_not_lt_sub`). It leads to another double if the distance is at least the
rounding unit there (`Clears`, `float_lt_add`, `float_sub_lt`); a smaller distance may be rounded
away. All of this includes the infinities and the NaN, which are looked at class by class.
-/

namespace TrendLadder

open Float.Model hiding pack unpack
open Float.Model.UnpackedFloat

/-! ## Numbers from numbers -/

theorem isNaN_unpack_packComponents {exponent : BitVec 11} {mantissa : BitVec 52} (s : Sign)
    (number : exponent ≠ -1#11) :
    (UnpackedFloat.unpack .binary64 (packComponents .binary64 s exponent mantissa)).isNaN =
      false := by
  unfold UnpackedFloat.unpack
  simp only [unpackMantissa_packComponents, unpackExponent_packComponents]
  rw [if_neg number]
  split_ifs <;> rfl

theorem not_isNaN_ofUnpacked {u : UnpackedFloat} (number : u.isNaN = false) :
    ¬(ofUnpacked u).isNaN = true := by
  show ¬(UnpackedFloat.unpack .binary64 (UnpackedFloat.pack .binary64 u)).isNaN = true
  rw [Bool.not_eq_true]
  cases u with
  | notANumber => cases number
  | infinity s =>
    show (UnpackedFloat.unpack .binary64 (packedInfinity .binary64 s)).isNaN = false
    rw [unpack_packedInfinity]
    rfl
  | zero s => cases s <;> rfl
  | finite s m e pos =>
    unfold UnpackedFloat.pack
    generalize (e + Format.binary64.exponentBias +
      Format.binary64.mantissaBitsWithoutImplicit).toNat = biased
    dsimp only
    split
    · rw [unpack_packedInfinity]
      rfl
    · next fits =>
      split
      · refine isNaN_unpack_packComponents s fun special => fits ?_
        have stored := congrArg BitVec.toNat special
        have ones : (-1#11).toNat = 2047 := by decide
        have reduced := Nat.mod_le biased (2 ^ 11)
        rw [ones, BitVec.toNat_ofNat] at stored
        show 2 ^ 11 ≤ biased + 1
        omega
      · exact isNaN_unpack_packComponents s (by decide)

theorem isNaN_normalize (spec : Format) (n e : ℤ) (s : Sign) :
    (UnpackedFloat.normalize spec n e s).isNaN = false := by
  have rounded (s : Sign) (m : ℕ) : (UnpackedFloat.round spec s m e).isNaN = false := by
    unfold UnpackedFloat.round roundWithAccuracy
    dsimp only
    split <;> rfl
  unfold UnpackedFloat.normalize
  cases compare n 0 with
  | lt => exact rounded ..
  | eq => rfl
  | gt => exact rounded ..

theorem isNaN_add_unpacked {u w : UnpackedFloat} (finite : u.isFinite = true)
    (number : w.isNaN = false) : (UnpackedFloat.add .binary64 u w).isNaN = false := by
  rcases u with s | _ | s | ⟨s, m, e, pos⟩ <;> rcases w with t | _ | t | ⟨t, n, f, pos2⟩ <;>
    first
      | exact absurd finite Bool.false_ne_true
      | exact absurd number.symm Bool.false_ne_true
      | rfl
      | skip
  case zero.zero => cases s <;> cases t <;> rfl
  case finite.finite => exact isNaN_normalize ..

theorem isNaN_mul_unpacked {u w : UnpackedFloat} (number : u.isNaN = false)
    (finite : w.isFinite = true) (positive : ((zero .positive).compare w == some .lt) = true) :
    (UnpackedFloat.mul .binary64 u w).isNaN = false := by
  rcases w with t | _ | t | ⟨(_ | _), n, f, pos2⟩ <;> rcases u with s | _ | s | ⟨s, m, e, pos⟩ <;>
    first
      | exact absurd finite Bool.false_ne_true
      | exact absurd positive Bool.false_ne_true
      | exact absurd number.symm Bool.false_ne_true
      | rfl
      | skip
  case finite.positive.finite =>
    unfold UnpackedFloat.mul roundWithAccuracy
    dsimp only
    split <;> rfl

theorem isNaN_mul_of_isFinite_unpacked {u w : UnpackedFloat} (hu : u.isFinite = true)
    (hw : w.isFinite = true) : (UnpackedFloat.mul .binary64 u w).isNaN = false := by
  rcases u with s | _ | s | ⟨s, m, e, pos⟩ <;> rcases w with t | _ | t | ⟨t, n, f, pos2⟩ <;>
    first
      | exact absurd hu Bool.false_ne_true
      | exact absurd hw Bool.false_ne_true
      | rfl
      | skip
  case finite.finite =>
    unfold UnpackedFloat.mul roundWithAccuracy
    dsimp only
    split <;> rfl

theorem isNaN_div_unpacked {u w : UnpackedFloat} (finite : u.isFinite = true)
    (positive : ((zero .positive).compare w == some .lt) = true) :
    (UnpackedFloat.div .binary64 u w).isNaN = false := by
  rcases w with (_ | _) | _ | t | ⟨(_ | _), n, f, pos2⟩ <;>
    rcases u with s | _ | s | ⟨s, m, e, pos⟩ <;>
    first
      | exact absurd finite Bool.false_ne_true
      | exact absurd positive Bool.false_ne_true
      | rfl
      | skip
  case finite.positive.finite =>
    unfold UnpackedFloat.div roundWithAccuracy
    dsimp only
    split <;> rfl

theorem belowZero_mul {u w : UnpackedFloat} (hu : belowZero u = false)
    (hw : belowZero w = false) : belowZero (UnpackedFloat.mul .binary64 u w) = false := by
  rcases u with (_ | _) | _ | (_ | _) | ⟨(_ | _), m, e, _⟩ <;>
    rcases w with (_ | _) | _ | (_ | _) | ⟨(_ | _), n, f, _⟩ <;>
    first
      | exact absurd hu.symm Bool.false_ne_true
      | exact absurd hw.symm Bool.false_ne_true
      | rfl
      | skip
  case finite.positive.finite.positive => exact belowZero_roundWithAccuracy ..

section Arithmetic

variable {x y : Float}

theorem isNaN_unpacked (number : ¬x.isNaN = true) : (unpacked x).isNaN = false :=
  Bool.not_eq_true _ ▸ number

theorem not_isNaN_add (finite : x.isFinite = true) (number : ¬y.isNaN = true) :
    ¬(x + y).isNaN = true := by
  rw [add_eq_ofUnpacked]
  exact not_isNaN_ofUnpacked (isNaN_add_unpacked finite (isNaN_unpacked number))

theorem not_isNaN_sub (finite : x.isFinite = true) (number : ¬y.isNaN = true) :
    ¬(x - y).isNaN = true := by
  rw [float_sub_eq_add_neg]
  exact not_isNaN_add finite (isNaN_neg y ▸ number)

theorem not_isNaN_mul (number : ¬x.isNaN = true) (finite : y.isFinite = true)
    (positive : 0.0 < y) : ¬(x * y).isNaN = true := by
  have zero : unpacked 0.0 = .zero .positive := rfl
  rw [lt_iff_compare, zero] at positive
  rw [mul_eq_ofUnpacked]
  exact not_isNaN_ofUnpacked
    (isNaN_mul_unpacked (isNaN_unpacked number) finite (beq_iff_eq.mpr positive))

theorem not_isNaN_mul_of_isFinite (hx : x.isFinite = true) (hy : y.isFinite = true) :
    ¬(x * y).isNaN = true := by
  rw [mul_eq_ofUnpacked]
  exact not_isNaN_ofUnpacked (isNaN_mul_of_isFinite_unpacked hx hy)

theorem not_isNaN_div (finite : x.isFinite = true) (positive : 0.0 < y) :
    ¬(x / y).isNaN = true := by
  have zero : unpacked 0.0 = .zero .positive := rfl
  rw [lt_iff_compare, zero] at positive
  rw [div_eq_ofUnpacked]
  exact not_isNaN_ofUnpacked (isNaN_div_unpacked finite (beq_iff_eq.mpr positive))

theorem float_mul_not_lt_zero (hx : ¬x < 0.0) (hy : ¬y < 0.0) : ¬x * y < 0.0 := by
  rw [not_lt_zero_iff] at hx hy ⊢
  rw [mul_eq_ofUnpacked]
  exact belowZero_ofUnpacked (belowZero_mul hx hy)

theorem float_abs_not_lt_zero (x : Float) : ¬x.abs < 0.0 := by
  rw [not_lt_zero_iff, abs_eq_ofUnpacked]
  refine belowZero_ofUnpacked ?_
  cases unpacked x <;> rfl

theorem not_isNaN_abs (number : ¬x.isNaN = true) : ¬x.abs.isNaN = true := by
  rw [abs_eq_ofUnpacked]
  refine not_isNaN_ofUnpacked ?_
  have number := isNaN_unpacked number
  cases u : unpacked x with
  | notANumber =>
    rw [u] at number
    cases number
  | infinity s | zero s | finite s m e pos => rfl

theorem float_one_mul (x : Float) : 1.0 * x = x := by
  have one : unpacked 1.0 = .finite .positive (2 ^ 52) (-52) (Nat.two_pow_pos 52) := rfl
  have unit : ((2 ^ 52 : ℕ) : ℚ) * 2 ^ (-52 : ℤ) = 1 := by norm_num
  -- the sign of a number is that of its product with one
  have positive {m : ℕ} {e : ℤ} (pos : 0 < m) (own : target m e = e) :
      UnpackedFloat.mul .binary64 (.finite .positive (2 ^ 52) (-52) (Nat.two_pow_pos 52))
        (.finite .positive m e pos) = .finite .positive m e pos := by
    have long : 52 ≤ (2 ^ 52 * m).log2 := by
      have length := (log2_mul_le (Nat.two_pow_pos 52) pos).1
      rw [Nat.log2_two_pow] at length
      omega
    have product := roundsTo_mul (e := -52) (f := e) (Nat.two_pow_pos 52) pos long
    rw [unit, one_mul] at product
    exact product.unique (roundsTo_of_target_eq pos own)
  rw [mul_eq_ofUnpacked, one]
  conv_rhs => rw [← ofUnpacked_unpacked x]
  congr 1
  cases u : unpacked x with
  | notANumber => rfl
  | infinity s | zero s => cases s <;> rfl
  | finite s m e pos =>
    have own := (unit_of_unpacked u).1
    cases s with
    | positive => exact positive pos own
    | negative =>
      have turned := neg_mul_unpacked .binary64 (.finite .positive m e pos)
        (.finite .positive (2 ^ 52) (-52) (Nat.two_pow_pos 52))
      rw [mul_comm_unpacked _ (.finite .positive m e pos), positive pos own,
        mul_comm_unpacked] at turned
      exact turned

theorem float_neg_lt_zero : -x < 0.0 ↔ 0.0 < x := by
  have zero : Alike 0.0 (-0.0) := .inl (by decide +kernel)
  exact (Alike.lt_iff (.refl _) zero).trans float_neg_lt_neg

theorem float_zero_lt_neg : 0.0 < -x ↔ x < 0.0 := by
  have turned := float_neg_lt_zero (x := -x)
  rw [float_neg_neg] at turned
  exact turned.symm

/-! ## Differences and their sign -/

theorem alike_neg_add (x y : Float) : Alike (-(x - y)) (-x + y) := by
  have sum := Alike.neg_add_neg x (-y)
  rw [float_neg_neg, ← float_sub_eq_add_neg] at sum
  exact sum.symm

theorem alike_neg_sub (x y : Float) : Alike (-(x - y)) (y - x) := by
  rw [float_sub_eq_add_neg y, float_add_comm y]
  exact alike_neg_add x y

theorem float_sub_lt_zero_of_finite (hx : x.isFinite = true) (hy : y.isFinite = true) :
    x - y < 0.0 ↔ x < y := by
  have zero : (0.0 : Float).isFinite = true := rfl
  rw [lt_iff_rational hx hy]
  constructor
  · intro below
    by_contra above
    have exact : ((0 : ℤ) : ℚ) * 2 ^ (0 : ℤ) ≤ rational x + rational (-y) := by
      rw [rational_neg, Int.cast_zero, zero_mul]
      linarith
    have sum := isAtLeast_add hx (isFinite_neg y ▸ hy) (by norm_num) (by norm_num) (by norm_num)
      (by norm_num) exact
    rw [float_sub_eq_add_neg] at below
    exact sum.not_lt zero (by rw [rational_zero]; simp) below
  · intro less
    obtain ⟨k, valueX⟩ := exists_rational_eq_units hx
    obtain ⟨l, valueY⟩ := exists_rational_eq_units hy
    have unit : (0 : ℚ) < 2 ^ (-1074 : ℤ) := zpow_pos two_pos _
    -- the exact difference is at least one least unit
    have exact : ((1 : ℤ) : ℚ) * 2 ^ (-1074 : ℤ) ≤ rational y + rational (-x) := by
      rw [valueX, valueY, mul_lt_mul_iff_left₀ unit, Int.cast_lt] at less
      rw [rational_neg, valueX, valueY, ← sub_eq_add_neg, ← sub_mul, ← Int.cast_sub]
      exact mul_le_mul_of_nonneg_right (Int.cast_le.mpr (by omega)) unit.le
    have sum := isAtLeast_add hy (isFinite_neg x ▸ hx) (by norm_num) (by norm_num) (by norm_num)
      (by norm_num) exact
    have positive := sum.lt zero (by rw [rational_zero, Int.cast_one, one_mul]; exact unit)
    rw [← float_sub_eq_add_neg, ← float_neg_lt_zero] at positive
    exact (Alike.lt_iff (alike_neg_sub y x) (.refl 0.0)).mp positive

theorem belowZero_sub_special {u w : UnpackedFloat}
    (special : (u.isFinite && w.isFinite) = false) :
    belowZero (unpacked (ofUnpacked (UnpackedFloat.sub .binary64 u w))) =
      (u.compare w == some .lt) := by
  rw [unpacked_ofUnpacked_special] <;>
    rcases u with (_ | _) | _ | s | ⟨(_ | _), m, e, pos⟩ <;>
    rcases w with (_ | _) | _ | t | ⟨(_ | _), n, f, pos2⟩ <;>
    first
      | rfl
      | exact absurd special.symm Bool.false_ne_true

/-- **A difference is below zero exactly if its first operand is less**, as no difference of
doubles is too small for a double. -/
theorem float_sub_lt_zero_iff : x - y < 0.0 ↔ x < y := by
  by_cases finite : (x.isFinite && y.isFinite) = true
  · obtain ⟨hx, hy⟩ := Bool.and_eq_true_iff.mp finite
    exact float_sub_lt_zero_of_finite hx hy
  · have special : ((unpacked x).isFinite && (unpacked y).isFinite) = false :=
      Bool.not_eq_true _ ▸ finite
    rw [lt_zero_iff, sub_eq_ofUnpacked, belowZero_sub_special special, beq_iff_eq, lt_iff_compare]

theorem float_zero_lt_sub_iff : 0.0 < x - y ↔ y < x := by
  rw [← float_neg_lt_zero, Alike.lt_iff (alike_neg_sub x y) (.refl 0.0)]
  exact float_sub_lt_zero_iff

/-! ## A distance that is not negative -/

theorem not_lt_add_special {u w : UnpackedFloat}
    (special : (u.isFinite && w.isFinite) = false) (hw : belowZero w = false) :
    ((unpacked (ofUnpacked (UnpackedFloat.add .binary64 u w))).compare u == some .lt) = false := by
  rw [unpacked_ofUnpacked_special] <;>
    rcases u with (_ | _) | _ | s | ⟨(_ | _), m, e, pos⟩ <;>
    rcases w with (_ | _) | _ | t | ⟨(_ | _), n, f, pos2⟩ <;>
    first
      | rfl
      | exact absurd hw.symm Bool.false_ne_true
      | exact absurd special.symm Bool.false_ne_true

/-- A double is not passed downwards by a distance that is added. -/
theorem float_add_not_lt (h : ¬y < 0.0) : ¬x + y < x := by
  by_cases finite : (x.isFinite && y.isFinite) = true
  · obtain ⟨hx, hy⟩ := Bool.and_eq_true_iff.mp finite
    obtain ⟨k, j, value, low, high, fine, coarse⟩ := exists_rational_eq hx
    have nonneg : 0 ≤ rational y := by
      rw [lt_iff_rational hy rfl, rational_zero] at h
      exact Rat.not_lt.mp h
    have exact : (k : ℚ) * 2 ^ j ≤ rational x + rational y := by
      rw [← value]
      exact le_add_of_nonneg_right nonneg
    exact (isAtLeast_add hx hy low high.le fine coarse exact).not_lt hx value.le
  · have special : ((unpacked x).isFinite && (unpacked y).isFinite) = false :=
      Bool.not_eq_true _ ▸ finite
    rw [not_lt_zero_iff] at h
    rw [lt_iff_compare, add_eq_ofUnpacked]
    exact beq_eq_false_iff_ne.mp (not_lt_add_special special h)

/-- A double is not passed upwards by a distance that is subtracted. -/
theorem float_not_lt_sub (h : ¬y < 0.0) : ¬x < x - y := by
  rw [← float_neg_lt_neg, Alike.lt_iff (alike_neg_add x y) (.refl (-x))]
  exact float_add_not_lt h

/-! ## A distance that is not rounded away -/

/-- The distance from one to the next double. -/
def roundingUnit : Float := 2.220446049250313e-16

/-- A distance is positive and at least the rounding unit at a double. -/
def Clears (distance x : Float) : Prop := 0.0 < distance ∧ x.abs * roundingUnit ≤ distance

instance : Decidable (Clears x y) := inferInstanceAs (Decidable (_ ∧ _))

theorem Clears.neg (h : Clears y x) : Clears y (-x) := by
  rwa [Clears, float_abs_neg]

/-- The size of a normal double times the rounding unit is at least the unit of its mantissa. -/
theorem isAtLeast_abs_mul {s : Sign} {m : ℕ} {e : ℤ} {pos : 0 < m}
    (same : unpacked x = .finite s m e pos) (full : m.log2 = 52) (fine : -1074 ≤ e) :
    IsAtLeast (2 ^ e) (x.abs * roundingUnit) := by
  have epsilon : unpacked roundingUnit =
      .finite .positive (2 ^ 52) (-104) (Nat.two_pow_pos 52) := by
    have power : roundingUnit =
        ofUnpacked (.finite .positive (2 ^ 52) (-104) (Nat.two_pow_pos 52)) := by
      decide +kernel
    rw [power]
    refine unpacked_ofUnpacked_finite .positive _ ?_ (by norm_num)
    rw [target_eq, Nat.log2_two_pow]
    norm_num
  have size : unpacked x.abs = .finite .positive m e pos := by
    obtain ⟨own, coarse⟩ := unit_of_unpacked same
    rw [abs_eq_ofUnpacked, same]
    exact unpacked_ofUnpacked_finite .positive pos own coarse
  have long : 52 ≤ (m * 2 ^ 52).log2 := by
    have length := (log2_mul_le pos (Nat.two_pow_pos 52)).1
    omega
  have rounds := roundsTo_mul (e := e) (f := -104) pos (Nat.two_pow_pos 52) long
  have bits : ((2 ^ 52 : ℕ) : ℚ) ≤ m := Nat.cast_le.mpr (full ▸ Nat.log2_self_le pos.ne')
  have exact : ((1 : ℕ) : ℚ) * 2 ^ e ≤ m * 2 ^ e * ((2 ^ 52 : ℕ) * 2 ^ (-104 : ℤ)) := by
    calc ((1 : ℕ) : ℚ) * 2 ^ e = (2 ^ 52 : ℕ) * 2 ^ e * ((2 ^ 52 : ℕ) * 2 ^ (-104 : ℤ)) := by
          norm_num
          ring
      _ ≤ m * 2 ^ e * ((2 ^ 52 : ℕ) * 2 ^ (-104 : ℤ)) := by gcongr
  have above := rounds.ge (by norm_num) fine exact
  rw [Nat.cast_one, one_mul] at above
  rw [mul_eq_ofUnpacked, size, epsilon]
  exact isAtLeast_ofUnpacked rounds.isProper (belowZero_roundWithAccuracy ..) above

/-- A distance that clears a double is at least the unit of its mantissa. -/
theorem Clears.le_rational {s : Sign} {m : ℕ} {e : ℤ} {pos : 0 < m} (h : Clears y x)
    (same : unpacked x = .finite s m e pos) (finite : y.isFinite = true) : 2 ^ e ≤ rational y := by
  obtain ⟨positive, least⟩ := h
  obtain ⟨-, fine⟩ := log2_le_of_unit (unit_of_unpacked same).1
  rcases eq_or_ne e (-1074) with rfl | above
  · exact least_le_rational finite positive
  · have full := log2_eq_of_unit (unit_of_unpacked same).1 (by omega)
    exact (isAtLeast_abs_mul same full fine).le_rational least finite

/-- Between a double and its sum with a distance that clears it there is a number of at most 53
bits. -/
theorem Clears.exists_between (h : Clears y x) (hx : x.isFinite = true) (hy : y.isFinite = true) :
    ∃ k j : ℤ, rational x < k * 2 ^ j ∧ k * 2 ^ j ≤ rational x + rational y ∧ -2 ^ 53 < k ∧
      k ≤ 2 ^ 53 ∧ -1074 ≤ j ∧ j ≤ 971 := by
  have proper := isProper_unpacked hx
  cases u : unpacked x with
  | notANumber | infinity s =>
    rw [u] at proper
    exact proper.elim
  | zero s =>
    have none : rational x = 0 := by rw [rational, u]; rfl
    refine ⟨1, -1074, ?_, ?_, by norm_num⟩
    · rw [none, Int.cast_one, one_mul]
      exact zpow_pos two_pos _
    · rw [none, zero_add, Int.cast_one, one_mul]
      exact least_le_rational hy h.1
  | finite s m e pos =>
    obtain ⟨own, coarse⟩ := unit_of_unpacked u
    obtain ⟨bits, fine⟩ := log2_le_of_unit own
    have short : m < 2 ^ 53 := (Nat.log2_lt pos.ne').mp (by omega)
    have value : rational x = s.apply m * 2 ^ e := by rw [rational, u]; rfl
    have next : ((s.apply m + 1 : ℤ) : ℚ) * 2 ^ e = rational x + 2 ^ e := by
      rw [value]
      push_cast
      ring
    refine ⟨s.apply m + 1, e, ?_, ?_, ?_, ?_, fine, coarse⟩
    · rw [next]
      exact lt_add_of_pos_right _ (zpow_pos two_pos e)
    · rw [next]
      exact add_le_add_right (h.le_rational u hy) _
    all_goals cases s <;> simp only [Sign.apply] <;> omega

theorem unpacked_of_infinite (positive : 0.0 < x) (infinite : ¬x.isFinite = true) :
    unpacked x = .infinity .positive := by
  have zero : unpacked 0.0 = .zero .positive := rfl
  rw [lt_iff_compare, zero] at positive
  cases u : unpacked x with
  | notANumber =>
    rw [u] at positive
    cases positive
  | infinity s =>
    rw [u] at positive
    cases s with
    | positive => rfl
    | negative => cases positive
  | zero s | finite s m e pos => exact absurd (isFinite_of_unpacked u rfl) infinite

/-- **A distance that clears a double leads to a greater one.** -/
theorem float_lt_add (hx : x.isFinite = true) (h : Clears y x) : x < x + y := by
  by_cases hy : y.isFinite = true
  · obtain ⟨k, j, above, exact, low, high, fine, coarse⟩ := h.exists_between hx hy
    exact (isAtLeast_add hx hy low high fine coarse exact).lt hx above
  · have above : IsAtLeast (rational x + 1) (x + y) := by
      have proper := isProper_unpacked hx
      left
      rw [add_eq_ofUnpacked, unpacked_of_infinite h.1 hy]
      cases u : unpacked x with
      | notANumber | infinity s =>
        rw [u] at proper
        exact proper.elim
      | zero s | finite s m e pos => exact unpacked_ofUnpacked_special rfl
    exact above.lt hx (lt_add_one _)

theorem float_sub_lt (hx : x.isFinite = true) (h : Clears y x) : x - y < x := by
  rw [← float_neg_lt_neg, Alike.lt_iff (.refl (-x)) (alike_neg_add x y)]
  exact float_lt_add (isFinite_neg x ▸ hx) h.neg

end Arithmetic

end TrendLadder
