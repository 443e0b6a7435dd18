import Mathlib.Algebra.Order.Field.Power
import Mathlib.Algebra.Order.Ring.Rat
import Mathlib.Tactic.FieldSimp
import Mathlib.Tactic.Ring
import TrendLadder.Proofs.Number.Packing

/-!
# Exact numbers and their rounding

What a positive rational number rounds to depends on the number alone, if it is written as a natural
number of units that are small enough (`round_congr`, `RoundsTo.unique`). Products are rounded in
that way (`roundsTo_mul`), and so are quotients that are exact (`roundsTo_div`). A decimal number
that is also a binary one is therefore read as the double nearest to it, and a decimal number that
is a double is read as that double (`rounds_ofScientific`).
-/

namespace TrendLadder

open Float.Model hiding pack unpack
open Float.Model.UnpackedFloat

/-! ## Units -/

/-- The exponent of the unit in which a double holds the number `m * 2 ^ e`. -/
def target (m : ℕ) (e : ℤ) : ℤ := Format.binary64.targetExponent (totalExponent m e)

theorem target_eq (m : ℕ) (e : ℤ) : target m e = max (m.log2 + 1 + e - 53) (-1074) := by
  have least : Format.binary64.minExponent = -1074 := by decide
  unfold target Format.targetExponent totalExponent
  rw [least, mantissaBits_binary64]
  rfl

theorem two_zpow_le {m : ℕ} (pos : 0 < m) (e : ℤ) : (2 : ℚ) ^ (m.log2 + e) ≤ m * 2 ^ e := by
  have bound : ((2 ^ m.log2 : ℕ) : ℚ) ≤ m := Nat.cast_le.mpr (Nat.log2_self_le pos.ne')
  rw [zpow_add₀ two_ne_zero, zpow_natCast]
  push_cast at bound
  exact mul_le_mul_of_nonneg_right bound (zpow_nonneg zero_le_two e)

theorem lt_two_zpow (m : ℕ) (e : ℤ) : (m : ℚ) * 2 ^ e < 2 ^ (m.log2 + 1 + e) := by
  have bound : (m : ℚ) < ((2 ^ (m.log2 + 1) : ℕ) : ℚ) := Nat.cast_lt.mpr Nat.lt_log2_self
  rw [zpow_add₀ two_ne_zero]
  push_cast at bound
  have power : (2 : ℚ) ^ ((m.log2 : ℤ) + 1) = 2 ^ (m.log2 + 1) := by
    rw [← zpow_natCast, Nat.cast_add, Nat.cast_one]
  rw [power]
  exact mul_lt_mul_of_pos_right bound (zpow_pos two_pos e)

theorem lt_of_two_zpow_lt {a b : ℤ} (h : (2 : ℚ) ^ a < 2 ^ b) : a < b :=
  (zpow_lt_zpow_iff_right₀ one_lt_two).mp h

/-- The place of the leading bit of a number does not depend on how the number is written. -/
theorem log2_add_congr {m n : ℕ} {e f : ℤ} (hm : 0 < m) (hn : 0 < n)
    (value : (m : ℚ) * 2 ^ e = n * 2 ^ f) : m.log2 + e = n.log2 + f := by
  have below : (m.log2 : ℤ) + e < n.log2 + 1 + f :=
    lt_of_two_zpow_lt ((two_zpow_le hm e).trans_lt (value ▸ lt_two_zpow n f))
  have above : (n.log2 : ℤ) + f < m.log2 + 1 + e :=
    lt_of_two_zpow_lt ((two_zpow_le hn f).trans_lt (value ▸ lt_two_zpow m e))
  omega

theorem target_congr {m n : ℕ} {e f : ℤ} (hm : 0 < m) (hn : 0 < n)
    (value : (m : ℚ) * 2 ^ e = n * 2 ^ f) : target m e = target n f := by
  have place := log2_add_congr hm hn value
  rw [target_eq, target_eq]
  omega

/-- A number in smaller units is the number shifted. -/
theorem shiftLeft_mul_two_zpow {e f : ℤ} (m : ℕ) (le : f ≤ e) :
    ((m <<< (e - f).toNat : ℕ) : ℚ) * 2 ^ f = m * 2 ^ e := by
  have split : (2 : ℚ) ^ e = 2 ^ (e - f).toNat * 2 ^ f := by
    rw [← zpow_natCast, Int.toNat_of_nonneg (by omega), ← zpow_add₀ two_ne_zero, sub_add_cancel]
  rw [split, Nat.shiftLeft_eq]
  push_cast
  ring

theorem eq_of_mul_two_zpow_eq {m n : ℕ} {e : ℤ} (h : (m : ℚ) * 2 ^ e = n * 2 ^ e) : m = n :=
  Nat.cast_injective (mul_right_cancel₀ (zpow_ne_zero e two_ne_zero) h)

theorem log2_mul_le {m n : ℕ} (hm : 0 < m) (hn : 0 < n) :
    m.log2 + n.log2 ≤ (m * n).log2 ∧ (m * n).log2 ≤ m.log2 + n.log2 + 1 := by
  have product : m * n ≠ 0 := (Nat.mul_pos hm hn).ne'
  constructor
  · rw [Nat.le_log2 product, pow_add]
    exact Nat.mul_le_mul (Nat.log2_self_le hm.ne') (Nat.log2_self_le hn.ne')
  · rw [← Nat.lt_succ_iff, Nat.log2_lt product]
    have split : m.log2 + n.log2 + 1 + 1 = (m.log2 + 1) + (n.log2 + 1) := by omega
    rw [Nat.succ_eq_add_one, split, pow_add]
    exact Nat.mul_lt_mul'' Nat.lt_log2_self Nat.lt_log2_self

/-! ## Rounding -/

theorem repeat_succ_left {α : Type} (f : α → α) (n : ℕ) (a : α) :
    (n + 1).repeat f a = n.repeat f (f a) := by
  induction n with
  | zero => rfl
  | succ n ih => exact congrArg f ih

/-- Zeros that are shifted out leave no trace. -/
theorem shiftLeft_shiftRight (m j i : ℕ) :
    (⟨m <<< j, false, false⟩ : ExtendedMantissa) >>> (j + i) =
      (⟨m, false, false⟩ : ExtendedMantissa) >>> i := by
  show (j + i).repeat ExtendedMantissa.shiftRightOne _ = _
  induction j with
  | zero =>
    rw [Nat.zero_add]
    rfl
  | succ j ih =>
    have one : ExtendedMantissa.shiftRightOne ⟨m <<< (j + 1), false, false⟩ =
        ⟨m <<< j, false, false⟩ := by
      rw [ExtendedMantissa.shiftRightOne, Nat.shiftLeft_succ, Nat.mul_div_cancel_left _ two_pos,
        Nat.mul_mod_right]
      rfl
    rw [Nat.add_right_comm, repeat_succ_left, one]
    exact ih

/-- A number that is written in units small enough rounds as in smaller units. -/
theorem round_shiftLeft (s : Sign) {m : ℕ} {e : ℤ} (pos : 0 < m) (small : e ≤ target m e) (j : ℕ) :
    roundWithAccuracy .binary64 s (m <<< j) (e - j) .exact =
      roundWithAccuracy .binary64 s m e .exact := by
  have same : ((m <<< j : ℕ) : ℚ) * 2 ^ (e - j) = m * 2 ^ e := by
    rw [Nat.shiftLeft_eq, zpow_sub₀ two_ne_zero, zpow_natCast]
    push_cast
    field_simp
  have unit : Format.binary64.targetExponent (totalExponent (m <<< j) (e - j)) = target m e :=
    target_congr (Nat.shiftLeft_pos_iff.mpr pos) pos same
  have amount : (target m e - (e - j)).toNat = j + (target m e - e).toNat := by omega
  have first : shiftToTargetExponent .binary64 (m <<< j) (e - j) .exact =
      shiftToTargetExponent .binary64 m e .exact := by
    unfold shiftToTargetExponent shiftToExponent
    rw [unit]
    show _ = ((_ : ExtendedMantissa) >>> (target m e - e).toNat, e + (target m e - e).toNat)
    dsimp only
    rw [amount]
    refine Prod.ext (shiftLeft_shiftRight m j _) ?_
    push_cast
    omega
  unfold roundWithAccuracy
  rw [first]

/-- **What a number rounds to depends on the number alone.** -/
theorem round_congr (s : Sign) {m n : ℕ} {e f : ℤ} (hm : 0 < m) (hn : 0 < n)
    (value : (m : ℚ) * 2 ^ e = n * 2 ^ f) (he : e ≤ target m e) (hf : f ≤ target n f) :
    roundWithAccuracy .binary64 s m e .exact = roundWithAccuracy .binary64 s n f .exact := by
  have shifted {m n : ℕ} {e f : ℤ} (hm : 0 < m) (value : (m : ℚ) * 2 ^ e = n * 2 ^ f)
      (he : e ≤ target m e) (le : f ≤ e) :
      roundWithAccuracy .binary64 s n f .exact = roundWithAccuracy .binary64 s m e .exact := by
    have unit : f = e - (e - f).toNat := by omega
    have finer : n = m <<< (e - f).toNat :=
      eq_of_mul_two_zpow_eq (value.symm.trans (shiftLeft_mul_two_zpow m le).symm)
    have same := round_shiftLeft s hm he (e - f).toNat
    rwa [← finer, ← unit] at same
  rcases le_total f e with le | le
  · exact (shifted hm value he le).symm
  · exact shifted hn value.symm hf le

/-- What is a double already is not rounded. -/
theorem round_of_target_eq (s : Sign) {m : ℕ} {e : ℤ} (pos : 0 < m) (unit : target m e = e) :
    roundWithAccuracy .binary64 s m e .exact = .finite s m e pos := by
  have unit2 : Format.binary64.targetExponent (totalExponent m e) = e := unit
  have first : shiftToTargetExponent .binary64 m e .exact = (⟨m, false, false⟩, e) := by
    unfold shiftToTargetExponent shiftToExponent
    rw [unit2]
    dsimp only
    rw [Int.sub_self]
    exact Prod.ext rfl (Int.add_zero e)
  have rounded : (⟨m, false, false⟩ : ExtendedMantissa).roundedMantissa = m := rfl
  unfold roundWithAccuracy
  simp only [first, rounded]
  exact dif_neg pos.ne'

/-- The positive number rounds to the unpacked double. -/
def RoundsTo (v : ℚ) (u : UnpackedFloat) : Prop :=
  ∃ (m : ℕ) (e : ℤ), 0 < m ∧ (m : ℚ) * 2 ^ e = v ∧ e ≤ target m e ∧
    u = roundWithAccuracy .binary64 .positive m e .exact

theorem RoundsTo.unique {v : ℚ} {u w : UnpackedFloat} (hu : RoundsTo v u) (hw : RoundsTo v w) :
    u = w := by
  obtain ⟨m, e, hm, rfl, he, rfl⟩ := hu
  obtain ⟨n, f, hn, value, hf, rfl⟩ := hw
  exact round_congr .positive hm hn value.symm he hf

theorem roundsTo_of_target_eq {m : ℕ} {e : ℤ} (pos : 0 < m) (unit : target m e = e) :
    RoundsTo (m * 2 ^ e) (.finite .positive m e pos) :=
  ⟨m, e, pos, rfl, unit.ge, (round_of_target_eq .positive pos unit).symm⟩

/-- A product is rounded, if the product of the units is small enough. -/
theorem roundsTo_mul_of_le {m n : ℕ} {e f : ℤ} (hm : 0 < m) (hn : 0 < n)
    (small : e + f ≤ target (m * n) (e + f)) :
    RoundsTo (m * 2 ^ e * (n * 2 ^ f))
      (UnpackedFloat.mul .binary64 (.finite .positive m e hm) (.finite .positive n f hn)) := by
  refine ⟨m * n, e + f, Nat.mul_pos hm hn, ?_, small, rfl⟩
  rw [zpow_add₀ two_ne_zero]
  push_cast
  ring

/-- Long enough operands have a product that is rounded. -/
theorem roundsTo_mul {m n : ℕ} {e f : ℤ} (hm : 0 < m) (hn : 0 < n) (long : 52 ≤ (m * n).log2) :
    RoundsTo (m * 2 ^ e * (n * 2 ^ f))
      (UnpackedFloat.mul .binary64 (.finite .positive m e hm) (.finite .positive n f hn)) := by
  refine roundsTo_mul_of_le hm hn ?_
  rw [target_eq]
  omega

theorem roundsTo_mul_own {m n : ℕ} {e f : ℤ} (hm : 0 < m) (hn : 0 < n) (own : target m e = e)
    (own2 : target n f = f) :
    RoundsTo (m * 2 ^ e * (n * 2 ^ f))
      (UnpackedFloat.mul .binary64 (.finite .positive m e hm) (.finite .positive n f hn)) := by
  have length := log2_mul_le hm hn
  refine roundsTo_mul_of_le hm hn ?_
  rw [target_eq] at own own2 ⊢
  omega

/-- A quotient that is a natural number of units is rounded, if the units are not smaller than those
of the operands or small enough. -/
theorem roundsTo_div {m n q : ℕ} {e f g : ℤ} (hm : 0 < m) (hn : 0 < n) (hq : 0 < q)
    (value : (m : ℚ) * 2 ^ e = q * 2 ^ g * (n * 2 ^ f)) (fits : e - f ≤ g ∨ target q g ≤ g) :
    RoundsTo (q * 2 ^ g)
      (UnpackedFloat.div .binary64 (.finite .positive m e hm) (.finite .positive n f hn)) := by
  have product : (m : ℚ) * 2 ^ e = (q * n : ℕ) * 2 ^ (g + f) := by
    rw [value, zpow_add₀ two_ne_zero]
    push_cast
    ring
  have place := log2_add_congr hm (Nat.mul_pos hq hn) product
  obtain ⟨low, high⟩ := log2_mul_le hq hn
  obtain ⟨t, ht⟩ : ∃ t, t = min (e - f)
    (Format.binary64.targetExponent (totalExponent m e - totalExponent n f)) := ⟨_, rfl⟩
  -- the unit of the quotient is at most that of the number it is rounded to
  have unit : t ≤ target q g ∧ t ≤ g := by
    have least : Format.binary64.minExponent = -1074 := by decide
    rw [Format.targetExponent, least, mantissaBits_binary64] at ht
    unfold totalExponent at ht
    rw [target_eq] at fits ⊢
    omega
  have exact : m <<< (e - f - t).toNat = q <<< (g - t).toNat * n := by
    refine eq_of_mul_two_zpow_eq (e := t + f) ?_
    have left := shiftLeft_mul_two_zpow m (e := e) (f := t + f) (by omega)
    have right := shiftLeft_mul_two_zpow q unit.2
    rw [show e - (t + f) = e - f - t by ring] at left
    rw [left, value, ← right, zpow_add₀ two_ne_zero]
    push_cast
    ring
  have accuracy : accuracyOfFraction (m <<< (e - f - t).toNat % n) n = .exact := by
    rw [exact, Nat.mul_mod_left]
    rfl
  have quotient : m <<< (e - f - t).toNat / n = q <<< (g - t).toNat := by
    rw [exact, Nat.mul_div_cancel _ hn]
  have same := shiftLeft_mul_two_zpow q unit.2
  have positive : 0 < q <<< (g - t).toNat := Nat.shiftLeft_pos_iff.mpr hq
  refine ⟨q <<< (g - t).toNat, t, positive, same, ?_, ?_⟩
  · rw [target_congr positive hq same]
    exact unit.1
  · rw [UnpackedFloat.div, divCore]
    dsimp only
    rw [← ht, quotient, accuracy]
    rfl

end TrendLadder
