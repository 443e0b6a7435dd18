import TrendLadder.Proofs.Number.Rounding

/-!
# Reading decimal numbers

A decimal number that is also a binary one is read as the double that the number rounds to
(`rounds_ofScientific`), whatever way the reading takes: small powers of ten are looked up in a
table, and for the others the exact product or quotient is rounded.
-/

namespace TrendLadder

open Float.Model hiding pack unpack
open Float.Model.UnpackedFloat

/-! ## Doubles that are numbers -/

theorem unit_of_unpack {b : BitVec Format.binary64.numBits} {s : Sign} {m : ℕ} {e : ℤ} {pos : 0 < m}
    (h : unpack .binary64 b = .finite s m e pos) : target m e = e ∧ e ≤ 971 := by
  have mantissaBound : (unpackMantissa b).toNat < 2 ^ 52 := (unpackMantissa b).isLt
  have bias : (Format.binary64.exponentBias : ℤ) + Format.binary64.mantissaBitsWithoutImplicit =
      1075 := by decide
  unfold unpack at h
  dsimp only at h
  rw [bias] at h
  split at h
  case isTrue =>
    split at h <;> cases h
  case isFalse number =>
    have small := exponent_lt number
    split at h
    case isTrue least =>
      split at h
      case isTrue => cases h
      case isFalse some =>
        cases h
        have positive : (unpackMantissa b).toNat ≠ 0 := fun h => some (BitVec.eq_of_toNat_eq h)
        have short := (Nat.log2_lt positive).mpr mantissaBound
        rw [target_eq, least, BitVec.toNat_zero]
        omega
    case isFalse normal =>
      cases h
      have positive : (unpackExponent b).toNat ≠ 0 := fun h => normal (BitVec.eq_of_toNat_eq h)
      rw [target_eq, log2_one_append]
      omega

/-- A finite double is written in its own unit, which is not too large. -/
theorem unit_of_unpacked {x : Float} {s : Sign} {m : ℕ} {e : ℤ} {pos : 0 < m}
    (h : unpacked x = .finite s m e pos) : target m e = e ∧ e ≤ 971 :=
  unit_of_unpack h

theorem unpack_normal (s : Sign) {m biased : ℕ} (pos : 0 < m) (full : m.log2 = 52)
    (positive : 0 < biased) (small : biased + 1 < 2 ^ 11) :
    unpack .binary64 (packComponents .binary64 s (BitVec.ofNat 11 biased) (BitVec.ofNat 52 m)) =
      .finite s m (biased - 1075) pos := by
  have exponent : (BitVec.ofNat 11 biased).toNat = biased := by
    rw [BitVec.toNat_ofNat, Nat.mod_eq_of_lt (by omega)]
  have notOnes : ¬BitVec.ofNat 11 biased = -1#11 := fun ones => by
    rw [ones] at exponent
    have value : (-1#11).toNat = 2047 := by decide
    omega
  have notZero : ¬BitVec.ofNat 11 biased = 0#11 := fun zero => by
    rw [zero, BitVec.toNat_zero] at exponent
    omega
  have mantissa : (1#1 ++ BitVec.ofNat 52 m).toNat = m := by
    have bounds := (Nat.log2_eq_iff pos.ne').mp full
    rw [toNat_one_append, BitVec.toNat_ofNat, Nat.mod_eq_sub_mod bounds.1, Nat.mod_eq_of_lt] <;>
      omega
  unfold unpack
  simp only [unpackMantissa_packComponents, unpackExponent_packComponents,
    unpackSign_packComponents, Sign.ofBitVec_toBitVec]
  rw [if_neg notOnes, if_neg notZero]
  congr 1
  rw [exponent]
  rfl

theorem unpack_subnormal (s : Sign) {m : ℕ} (pos : 0 < m) (short : m < 2 ^ 52) :
    unpack .binary64 (packComponents .binary64 s (0#11) (BitVec.ofNat 52 m)) =
      .finite s m (-1074) pos := by
  have mantissa : (BitVec.ofNat 52 m).toNat = m := by
    rw [BitVec.toNat_ofNat, Nat.mod_eq_of_lt short]
  have notZero : ¬BitVec.ofNat 52 m = 0#52 := fun zero => by
    rw [zero, BitVec.toNat_zero] at mantissa
    exact pos.ne mantissa
  unfold unpack
  simp only [unpackMantissa_packComponents, unpackExponent_packComponents,
    unpackSign_packComponents, Sign.ofBitVec_toBitVec]
  rw [if_neg (by decide), if_pos trivial, dif_neg notZero]
  congr 1

/-- A number in its own unit is a double, if the unit is not too large. -/
theorem unpacked_ofUnpacked_finite (s : Sign) {m : ℕ} {e : ℤ} (pos : 0 < m)
    (unit : target m e = e) (le : e ≤ 971) :
    unpacked (ofUnpacked (.finite s m e pos)) = .finite s m e pos := by
  show unpack .binary64 (pack .binary64 (.finite s m e pos)) = _
  have bias : (Format.binary64.exponentBias : ℤ) + Format.binary64.mantissaBitsWithoutImplicit =
      1075 := by decide
  have biased : (e + Format.binary64.exponentBias +
      Format.binary64.mantissaBitsWithoutImplicit).toNat = (e + 1075).toNat := by
    rw [add_assoc, bias]
  rw [target_eq] at unit
  have small : (e + 1075).toNat + 1 < 2 ^ 11 := by omega
  rw [pack]
  dsimp only
  rw [biased, mantissaBits_binary64, if_neg (Nat.not_le.mpr small)]
  by_cases full : m.log2 + 1 = 53
  · rw [if_pos full]
    refine (unpack_normal s pos (by omega) (by omega) small).trans ?_
    congr 1
    omega
  · have least : e = -1074 := by omega
    rw [if_neg full, least]
    exact unpack_subnormal s pos ((Nat.log2_lt pos.ne').mp (by omega))

/-! ## The table of small powers -/

theorem roundsTo_round {m : ℕ} (pos : 0 < m) (e : ℤ) :
    RoundsTo (m * 2 ^ e) (UnpackedFloat.round .binary64 .positive m e) := by
  have same : ((m <<< (e - target m e).toNat : ℕ) : ℚ) * 2 ^ (e - ((e - target m e).toNat : ℤ)) =
      m * 2 ^ e := by
    rw [Nat.shiftLeft_eq, zpow_sub₀ two_ne_zero, zpow_natCast]
    push_cast
    field_simp
  have positive : 0 < m <<< (e - target m e).toNat := Nat.shiftLeft_pos_iff.mpr pos
  refine ⟨_, _, positive, same, ?_, rfl⟩
  rw [target_congr positive pos same]
  omega

/-- A number of less than 54 bits, with all of them. -/
def normal (m : ℕ) (e : ℤ) (pos : 0 < m) : UnpackedFloat :=
  .finite .positive (m <<< (52 - m.log2)) (e - (52 - m.log2 : ℕ)) (Nat.shiftLeft_pos_iff.mpr pos)

theorem normal_value (m : ℕ) (e : ℤ) :
    ((m <<< (52 - m.log2) : ℕ) : ℚ) * 2 ^ (e - ((52 - m.log2 : ℕ) : ℤ)) = m * 2 ^ e := by
  rw [Nat.shiftLeft_eq, zpow_sub₀ two_ne_zero, zpow_natCast]
  push_cast
  field_simp

theorem log2_shiftLeft {m : ℕ} (pos : 0 < m) (j : ℕ) : (m <<< j).log2 = m.log2 + j := by
  have place := log2_add_congr (Nat.shiftLeft_pos_iff.mpr pos) pos (e := 0) (f := j)
    (by rw [Nat.shiftLeft_eq, zpow_natCast, zpow_zero]; push_cast; ring)
  omega

theorem normal_unit {m : ℕ} {e : ℤ} (pos : 0 < m) (short : m < 2 ^ 53) (le : -1022 ≤ e) :
    target (m <<< (52 - m.log2)) (e - (52 - m.log2 : ℕ)) = e - (52 - m.log2 : ℕ) := by
  have length := (Nat.log2_lt pos.ne').mpr short
  rw [target_eq, log2_shiftLeft pos]
  omega

theorem unpacked_toFloat {n : ℕ} (pos : 0 < n) (short : n < 2 ^ 53) :
    unpacked n.toUInt64.toFloat = normal n 0 pos := by
  have unit := normal_unit pos short (e := 0) (by omega)
  have reduced : n.toUInt64.toNat = n := Nat.mod_eq_of_lt (short.trans (by decide))
  have rounded : UnpackedFloat.ofUInt64 .binary64 n.toUInt64 =
      UnpackedFloat.round .binary64 .positive n 0 := by
    rw [UnpackedFloat.ofUInt64, reduced, UnpackedFloat.ofNat, UnpackedFloat.ofInt,
      UnpackedFloat.normalize]
    have positive : compare (n : ℤ) 0 = .gt := by
      rw [compare_gt_iff_gt]
      omega
    rw [positive]
    rfl
  have exact : UnpackedFloat.round .binary64 .positive n 0 = normal n 0 pos := by
    have itself := roundsTo_of_target_eq (Nat.shiftLeft_pos_iff.mpr pos) unit
    rw [normal_value] at itself
    exact (roundsTo_round pos 0).unique itself
  show unpacked (ofUnpacked (UnpackedFloat.ofUInt64 .binary64 n.toUInt64)) = _
  rw [rounded, exact]
  exact unpacked_ofUnpacked_finite .positive _ unit (by omega)

/-- The powers of ten in the table are exact. -/
theorem exactlyRepresentablePowersOfTen_eq (j : Fin Float.exactlyRepresentablePowersOfTen.size) :
    Float.exactlyRepresentablePowersOfTen[j] =
      ofUnpacked (normal (5 ^ (j : ℕ)) (j : ℕ) (Nat.pow_pos (by omega))) := by
  revert j
  decide +kernel

theorem unpacked_powerOfTen {j : ℕ} (h : j < Float.exactlyRepresentablePowersOfTen.size) :
    unpacked Float.exactlyRepresentablePowersOfTen[j] =
      normal (5 ^ j) j (Nat.pow_pos (by omega)) := by
  have small : j ≤ 22 := Nat.le_of_lt_succ h
  have short : 5 ^ j < 2 ^ 53 := (Nat.pow_le_pow_right (by omega) small).trans_lt (by decide)
  have entry : Float.exactlyRepresentablePowersOfTen[j] =
      ofUnpacked (normal (5 ^ j) j (Nat.pow_pos (by omega))) :=
    exactlyRepresentablePowersOfTen_eq ⟨j, h⟩
  rw [entry]
  exact unpacked_ofUnpacked_finite .positive _
    (normal_unit (Nat.pow_pos (by omega)) short (by omega)) (by omega)

theorem powerOfTen_value (j : ℕ) : ((5 ^ j : ℕ) : ℚ) * 2 ^ (j : ℤ) = 10 ^ j := by
  rw [zpow_natCast]
  push_cast
  rw [← mul_pow]
  norm_num

/-! ## Reading -/

variable {n q : ℕ} {k g : ℤ}

/-- A product with a power of the table is rounded. -/
theorem roundsTo_mul_powerOfTen (j : ℕ) (pos : 0 < n) :
    RoundsTo (n * 10 ^ j) (UnpackedFloat.mul .binary64 (normal n 0 pos)
      (normal (5 ^ j) j (Nat.pow_pos (by omega)))) := by
  have power : 0 < 5 ^ j := Nat.pow_pos (by omega)
  have hn : 0 < n <<< (52 - n.log2) := Nat.shiftLeft_pos_iff.mpr pos
  have hj : 0 < 5 ^ j <<< (52 - (5 ^ j).log2) := Nat.shiftLeft_pos_iff.mpr power
  have long : 52 ≤ (n <<< (52 - n.log2) * 5 ^ j <<< (52 - (5 ^ j).log2)).log2 := by
    have length := (log2_mul_le hn hj).1
    rw [log2_shiftLeft pos] at length
    omega
  have product := roundsTo_mul (e := 0 - ((52 - n.log2 : ℕ) : ℤ))
    (f := j - ((52 - (5 ^ j).log2 : ℕ) : ℤ)) hn hj long
  rw [normal_value, normal_value, powerOfTen_value, zpow_zero, mul_one] at product
  exact product

/-- A quotient by a power of the table is rounded if it is exact. -/
theorem roundsTo_div_powerOfTen {j : ℕ} (pos : 0 < n) (short : n < 2 ^ 53) (hq : 0 < q)
    (value : (n : ℚ) = q * 2 ^ g * 10 ^ j) (fits : 0 ≤ g ∨ target q g ≤ g) :
    RoundsTo (q * 2 ^ g) (UnpackedFloat.div .binary64 (normal n 0 pos)
      (normal (5 ^ j) j (Nat.pow_pos (by omega)))) := by
  have unit : target q g ≤ g := by
    rcases fits with whole | fits
    · have below : (2 : ℚ) ^ (q.log2 + g) < 2 ^ (53 : ℤ) := by
        have ten : (1 : ℚ) ≤ 10 ^ j := one_le_pow₀ (by norm_num)
        have positive : (0 : ℚ) < q * 2 ^ g :=
          mul_pos (Nat.cast_pos.mpr hq) (zpow_pos two_pos g)
        calc (2 : ℚ) ^ (q.log2 + g) ≤ q * 2 ^ g := two_zpow_le hq g
          _ ≤ q * 2 ^ g * 10 ^ j := le_mul_of_one_le_right positive.le ten
          _ = n := value.symm
          _ < 2 ^ (53 : ℤ) := by exact_mod_cast short
      have := lt_of_two_zpow_lt below
      rw [target_eq]
      omega
    · exact fits
  have power : 0 < 5 ^ j := Nat.pow_pos (by omega)
  refine roundsTo_div (Nat.shiftLeft_pos_iff.mpr pos) (Nat.shiftLeft_pos_iff.mpr power) hq ?_
    (.inr unit)
  rw [normal_value, normal_value, powerOfTen_value, zpow_zero, mul_one, value]

/-- Large decimal numbers are read from their exact value. -/
theorem roundsTo_ofScientific (pos : 0 < n) (hq : 0 < q) (value : (n : ℚ) * 10 ^ k = q * 2 ^ g)
    (fits : 0 ≤ g ∨ target q g ≤ g) (most : k ≤ 2048) (least : -(2048 + n.log2) ≤ k) :
    RoundsTo (q * 2 ^ g) (UnpackedFloat.ofScientific .binary64 n k) := by
  have bits : (2 : ℤ) ^ Format.binary64.exponentBits = 2048 := by decide
  rw [UnpackedFloat.ofScientific, dif_neg pos.ne', bits, if_neg (Int.not_lt.mpr most),
    if_neg (Int.not_lt.mpr least)]
  split
  case isTrue whole =>
    have power : (10 : ℚ) ^ k = ((10 ^ k.toNat : ℕ) : ℚ) * 2 ^ (0 : ℤ) := by
      conv_lhs => rw [← Int.toNat_of_nonneg whole]
      rw [zpow_natCast, zpow_zero, mul_one, Nat.cast_pow, Nat.cast_ofNat]
    have hn : 0 < n <<< 53 := Nat.shiftLeft_pos_iff.mpr pos
    have hk : 0 < 10 ^ k.toNat := Nat.pow_pos (by omega)
    have long : 52 ≤ (n <<< 53 * 10 ^ k.toNat).log2 := by
      have length := (log2_mul_le hn hk).1
      rw [log2_shiftLeft pos] at length
      omega
    have product := roundsTo_mul (e := -53) (f := 0) hn hk long
    have shifted : ((n <<< 53 : ℕ) : ℚ) * 2 ^ (-53 : ℤ) = n := by
      rw [Nat.shiftLeft_eq, Nat.cast_mul, Nat.cast_pow, Nat.cast_ofNat, zpow_neg]
      exact mul_inv_cancel_right₀ (pow_ne_zero 53 two_ne_zero) _
    rw [shifted, ← power, value] at product
    exact product
  case isFalse fraction =>
    refine roundsTo_div pos (Nat.pow_pos (by omega)) hq ?_ (by simpa using fits)
    have power : ((10 ^ (-k).toNat : ℕ) : ℚ) * 2 ^ (0 : ℤ) = (10 ^ k)⁻¹ := by
      rw [← zpow_neg]
      conv_rhs => rw [← Int.toNat_of_nonneg (by omega : 0 ≤ -k)]
      rw [zpow_natCast, zpow_zero, mul_one, Nat.cast_pow, Nat.cast_ofNat]
    rw [power, ← value, zpow_zero, mul_one, mul_inv_cancel_right₀]
    exact zpow_ne_zero k (by norm_num)

/-- **A decimal number that is a binary one is read as the double it rounds to.** -/
theorem rounds_ofScientific (pos : 0 < n) (hq : 0 < q) (value : (n : ℚ) * 10 ^ k = q * 2 ^ g)
    (fits : 0 ≤ g ∨ target q g ≤ g) (most : k ≤ 2048) (least : -(2048 + n.log2) ≤ k) :
    ∃ u, RoundsTo (q * 2 ^ g) u ∧ Float.ofScientific n (k < 0) k.natAbs = ofUnpacked u := by
  by_cases small : n < 2 ^ 53 ∧ k.natAbs ≤ 22
  · have inTable : k.natAbs < Float.exactlyRepresentablePowersOfTen.size :=
      Nat.lt_succ_iff.mpr small.2
    rw [Float.ofScientific, dif_pos small]
    dsimp only
    by_cases negative : k < 0
    · rw [if_pos (decide_eq_true negative)]
      refine ⟨_, ?_, div_eq_ofUnpacked _ _⟩
      rw [unpacked_toFloat pos small.1, unpacked_powerOfTen inTable]
      refine roundsTo_div_powerOfTen pos small.1 hq ?_ fits
      have power : (10 : ℚ) ^ k = (10 ^ k.natAbs)⁻¹ := by
        rw [← zpow_natCast, ← zpow_neg]
        congr 1
        omega
      rw [← value, power, inv_mul_cancel_right₀ (pow_ne_zero _ (by norm_num))]
    · rw [if_neg (by simpa using negative)]
      refine ⟨_, ?_, mul_eq_ofUnpacked _ _⟩
      rw [unpacked_toFloat pos small.1, unpacked_powerOfTen inTable, ← value]
      have power : (10 : ℚ) ^ k = 10 ^ k.natAbs := by
        rw [← zpow_natCast]
        congr 1
        omega
      rw [power]
      exact roundsTo_mul_powerOfTen _ pos
  · have exponent : (if decide (k < 0) = true then Int.negOfNat k.natAbs
        else Int.ofNat k.natAbs) = k := by
      simp only [decide_eq_true_eq, Int.negOfNat_eq, Int.ofNat_eq_natCast]
      split <;> omega
    refine ⟨_, roundsTo_ofScientific pos hq value fits most least, ?_⟩
    rw [Float.ofScientific, dif_neg small]
    dsimp only
    rw [exponent]
    rfl

end TrendLadder
