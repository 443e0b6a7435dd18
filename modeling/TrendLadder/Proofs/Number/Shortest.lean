import TrendLadder.Number.Shortest
import TrendLadder.Proofs.Number.Scientific

/-!
# Shortest decimals read back

The shortest decimal number of a double is read as that double (`toFloat_of_shortest`). On a grid
this is what is tried; the exact expansion, which is taken where no grid is fine enough, is the
double itself and so not rounded.
-/

namespace TrendLadder

open Float.Model hiding pack unpack
open Float.Model.UnpackedFloat

namespace Decimal

/-! ## Trailing zeros -/

/-- Trimming leaves the number as it is, makes the significand smaller and the exponent larger. -/
theorem trimSignificand_spec (fuel : ℕ) {m : ℕ} (pos : 0 < m) (e : ℤ) :
    0 < (trimSignificand fuel m e).1 ∧ e ≤ (trimSignificand fuel m e).2 ∧
      ((trimSignificand fuel m e).1 : ℚ) * 10 ^ (trimSignificand fuel m e).2 = m * 10 ^ e := by
  induction fuel generalizing m e with
  | zero => exact ⟨pos, le_rfl, rfl⟩
  | succ fuel ih =>
    rw [trimSignificand]
    split
    case isTrue zeros =>
      have whole : m / 10 * 10 = m := Nat.div_mul_cancel (Nat.dvd_of_mod_eq_zero zeros.2)
      obtain ⟨positive, larger, same⟩ := ih (m := m / 10) (by omega) (e + 1)
      refine ⟨positive, by omega, same.trans ?_⟩
      have cast : ((m / 10 : ℕ) : ℚ) * 10 = m := by exact_mod_cast whole
      rw [zpow_add_one₀ (by norm_num), ← cast]
      ring
    case isFalse => exact ⟨pos, le_rfl, rfl⟩

@[simp] theorem trim_negative (d : Decimal) : d.trim.negative = d.negative := rfl

theorem trim_spec {d : Decimal} (pos : 0 < d.significand) :
    0 < d.trim.significand ∧ d.exponent ≤ d.trim.exponent ∧
      (d.trim.significand : ℚ) * 10 ^ d.trim.exponent = d.significand * 10 ^ d.exponent :=
  trimSignificand_spec _ pos d.exponent

/-! ## The exact expansion -/

theorem ofBinary_spec (negative : Bool) {m : ℕ} (pos : 0 < m) (e : ℤ) :
    (ofBinary negative m e).negative = negative ∧ 0 < (ofBinary negative m e).significand ∧
      min e 0 ≤ (ofBinary negative m e).exponent ∧
      ((ofBinary negative m e).significand : ℚ) * 10 ^ (ofBinary negative m e).exponent =
        m * 2 ^ e := by
  unfold ofBinary
  split
  case isTrue whole =>
    refine ⟨rfl, Nat.mul_pos pos (Nat.pow_pos (by omega)), min_le_right e 0, ?_⟩
    have power : (2 : ℚ) ^ e = 2 ^ e.toNat := by
      rw [← zpow_natCast, Int.toNat_of_nonneg whole]
    rw [power, zpow_zero, mul_one]
    exact_mod_cast rfl
  case isFalse fraction =>
    refine ⟨rfl, Nat.mul_pos pos (Nat.pow_pos (by omega)), min_le_left e 0, ?_⟩
    have power : ((5 ^ e.natAbs : ℕ) : ℚ) = 5 ^ (-e) := by
      rw [Nat.cast_pow, ← zpow_natCast, Nat.cast_ofNat]
      congr 1
      omega
    have ten : (10 : ℚ) ^ e = 5 ^ e * 2 ^ e := by
      rw [← mul_zpow]
      norm_num
    show ((m * 5 ^ e.natAbs : ℕ) : ℚ) * 10 ^ e = _
    rw [Nat.cast_mul, power, ten, zpow_neg]
    field_simp

/-- A sign in front of a number that is read. -/
theorem toFloat_of_magnitude {d : Decimal} {u : UnpackedFloat}
    (magnitude : Float.ofScientific d.significand (d.exponent < 0) d.exponent.natAbs =
      ofUnpacked u) :
    d.toFloat = ofUnpacked (if d.negative then u.neg else u) := by
  unfold toFloat
  rw [magnitude]
  cases d.negative
  · rfl
  · refine eq_of_unpacked_eq ?_
    exact (unpacked_neg _).trans (unpacked_ofUnpacked_neg u).symm

/-- A number below a power of two has no larger power of ten. -/
theorem exponent_le {n m : ℕ} {k e : ℤ} (pos : 0 < n) (value : (n : ℚ) * 10 ^ k = m * 2 ^ e) :
    k ≤ max 0 (m.log2 + 1 + e) := by
  by_contra large
  have whole : 0 ≤ k := by omega
  have one : (1 : ℚ) ≤ n := Nat.one_le_cast.mpr pos
  have base : (2 : ℚ) ≤ 10 := by exact_mod_cast (by decide : 2 ≤ 10)
  have bound : (2 : ℚ) ^ k < 2 ^ (m.log2 + 1 + e) :=
    calc (2 : ℚ) ^ k ≤ 10 ^ k := zpow_le_zpow_left₀ whole zero_le_two base
      _ ≤ n * 10 ^ k := le_mul_of_one_le_left (zpow_nonneg (by norm_num) k) one
      _ = m * 2 ^ e := value
      _ < 2 ^ (m.log2 + 1 + e) := lt_two_zpow m e
  have := lt_of_two_zpow_lt bound
  omega

/-- The exact expansion of a double is read as the double. -/
theorem toFloat_ofBinary_trim {x : Float} {s : Sign} {m : ℕ} {e : ℤ} {pos : 0 < m}
    (h : unpacked x = .finite s m e pos) : (ofBinary (isMinus s) m e).trim.toFloat = x := by
  obtain ⟨unit, small⟩ := unit_of_unpacked h
  obtain ⟨sign, positive, low, value⟩ := ofBinary_spec (isMinus s) pos e
  obtain ⟨trimmed, raised, same⟩ := trim_spec positive
  rw [target_eq] at unit
  have most := exponent_le trimmed (same.trans value)
  obtain ⟨u, rounded, magnitude⟩ := rounds_ofScientific trimmed pos (same.trans value)
    (.inr (unit_of_unpacked h).1.le) (by omega) (by omega)
  have itself := roundsTo_of_target_eq pos (unit_of_unpacked h).1
  rw [toFloat_of_magnitude magnitude, trim_negative, sign, rounded.unique itself]
  refine Eq.trans ?_ ((congrArg ofUnpacked h).symm.trans (ofUnpacked_unpacked x))
  cases s <;> rfl

/-! ## The grids -/

/-- A hit is read as the double. -/
theorem toFloat_of_firstHit {tie : Tie} {x : Float} {negative : Bool} {r : Ratio} {n fuel : ℕ}
    {d : Decimal} (h : firstHit tie x negative r n fuel = some d) : d.toFloat = x := by
  induction fuel with
  | zero => cases h
  | succ fuel ih =>
    rw [firstHit] at h
    split at h
    case h_1 hit =>
      cases h
      unfold onGrid at hit
      exact of_decide_eq_true (List.find?_some (p := fun d : Decimal => d.toFloat = x) hit)
    case h_2 => exact ih h

theorem toFloat_shortestOfBinary (tie : Tie) {x : Float} {s : Sign} {m : ℕ} {e : ℤ} {pos : 0 < m}
    (h : unpacked x = .finite s m e pos) :
    (shortestOfBinary tie x (isMinus s) m e).toFloat = x := by
  unfold shortestOfBinary
  cases hit : firstHit tie x (isMinus s) (.ofBinary m e) maxDigits maxDigits with
  | none => exact toFloat_ofBinary_trim h
  | some d => exact toFloat_of_firstHit hit

/-! ## Zero -/

theorem ofScientific_zero (negative : Bool) (k : ℕ) :
    Float.ofScientific 0 negative k = ofUnpacked (.zero .positive) := by
  rw [Float.ofScientific]
  split
  case isTrue small =>
    have inTable : k < Float.exactlyRepresentablePowersOfTen.size := Nat.lt_succ_iff.mpr small.2
    have zero : unpacked (Nat.toUInt64 0).toFloat = .zero .positive := rfl
    dsimp only
    rw [mul_eq_ofUnpacked, div_eq_ofUnpacked, zero, unpacked_powerOfTen inTable]
    split <;> rfl
  case isFalse => rfl

theorem toFloat_zero (negative : Bool) (k : ℤ) :
    toFloat ⟨negative, 0, k⟩ = ofUnpacked (.zero (if negative then .negative else .positive)) := by
  rw [toFloat_of_magnitude (ofScientific_zero _ _)]
  cases negative <;> rfl

end Decimal

theorem Reading.shortest_eq (tie : Tie) (x : Float) :
    Reading.shortest tie x = match unpacked x with
      | .notANumber => .nan
      | .infinity s => .infinity (isMinus s)
      | .zero s => .decimal ⟨isMinus s, 0, 0⟩
      | .finite s m e _ => .decimal (.shortestOfBinary tie x (isMinus s) m e) := rfl

theorem Reading.exists_decimal (tie : Tie) {x : Float} (finite : x.isFinite = true) :
    ∃ d, Reading.shortest tie x = .decimal d := by
  have number : (unpacked x).isFinite = true := finite
  rw [Reading.shortest_eq]
  cases h : unpacked x with
  | notANumber | infinity => rw [h] at number; cases number
  | zero | finite => exact ⟨_, rfl⟩

/-- **The shortest decimal of a double is read as the double.** -/
theorem Reading.toFloat_of_shortest {tie : Tie} {x : Float} {d : Decimal}
    (h : Reading.shortest tie x = .decimal d) : d.toFloat = x := by
  have itself := ofUnpacked_unpacked x
  rw [Reading.shortest_eq] at h
  split at h
  case h_1 | h_2 => cases h
  case h_3 s zero =>
    cases h
    rw [Decimal.toFloat_zero, ← itself, zero]
    cases s <;> rfl
  case h_4 s m e pos finite =>
    cases h
    exact Decimal.toFloat_shortestOfBinary tie finite

end TrendLadder
