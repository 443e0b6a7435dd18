import TrendLadder.Proofs.Number.Rational

/-!
# Rounding to the nearest

A positive number is rounded down if it lies in the lower half between two multiples of its unit
(`RoundsTo.le_of_nearer`), and up if it lies in the upper half or in the middle below an even one
(`RoundsTo.ge_of_nearer`). The bits that are shifted out decide this, and of those only the last one
and the parity of what is left (`shiftRounded_succ_le`, `le_shiftRounded_succ`).

It follows which numbers are rounded to a finite double: those below the middle between the greatest
double and the next power of two (`RoundsTo.isFinite_iff`), and so which natural numbers become one
(`isFinite_toFloat_iff`).
-/

namespace TrendLadder

open Float.Model hiding pack unpack
open Float.Model.UnpackedFloat

/-! ## The last bit that is shifted out -/

section Shift

variable {em : ExtendedMantissa} {m k q : ℕ}

theorem roundedMantissa_of_roundBit_false (dropped : em.roundBit = false) :
    em.roundedMantissa = em.mantissa := by
  obtain ⟨m, round, sticky⟩ := em
  obtain rfl : round = false := dropped
  cases sticky <;> rfl

theorem roundedMantissa_of_odd (dropped : em.roundBit = true) (odd : em.mantissa % 2 = 1) :
    em.roundedMantissa = em.mantissa + 1 := by
  obtain ⟨m, round, sticky⟩ := em
  obtain rfl : round = true := dropped
  cases sticky with
  | false => exact congrArg (m + ·) odd
  | true => rfl

theorem shiftRight_succ (em : ExtendedMantissa) (k : ℕ) :
    em >>> (k + 1) = (em >>> k).shiftRightOne :=
  rfl

/-- The bit that the last of some shifts drops. -/
theorem roundBit_shiftRight_succ (m k : ℕ) :
    ((⟨m, false, false⟩ : ExtendedMantissa) >>> (k + 1)).roundBit = (m / 2 ^ k % 2 != 0) := by
  rw [shiftRight_succ, ExtendedMantissa.shiftRightOne, mantissa_shiftRight]

theorem mantissa_shiftRight_succ (m k : ℕ) :
    ((⟨m, false, false⟩ : ExtendedMantissa) >>> (k + 1)).mantissa = m / 2 ^ k / 2 := by
  rw [shiftRight_succ, ExtendedMantissa.shiftRightOne, mantissa_shiftRight]

/-- The last of some shifts rounds up only if it drops a one. -/
theorem shiftRounded_succ_le (m k : ℕ) : shiftRounded m (k + 1) ≤ (m / 2 ^ k + 1) / 2 := by
  have left := mantissa_shiftRight_succ m k
  have dropped := roundBit_shiftRight_succ m k
  unfold shiftRounded
  rcases Nat.mod_two_eq_zero_or_one (m / 2 ^ k) with zero | one
  · rw [roundedMantissa_of_roundBit_false (by rw [dropped, zero]; rfl), left]
    omega
  · have most := (roundedMantissa_bounds ((⟨m, false, false⟩ : ExtendedMantissa) >>> (k + 1))).2
    rw [left] at most
    omega

/-- The last of some shifts rounds up if it drops a one and would leave an odd number. -/
theorem le_shiftRounded_succ (odd : m / 2 ^ k / 2 % 2 = 1) :
    (m / 2 ^ k + 1) / 2 ≤ shiftRounded m (k + 1) := by
  have left := mantissa_shiftRight_succ m k
  have dropped := roundBit_shiftRight_succ m k
  unfold shiftRounded
  rcases Nat.mod_two_eq_zero_or_one (m / 2 ^ k) with zero | one
  · have least := (roundedMantissa_bounds ((⟨m, false, false⟩ : ExtendedMantissa) >>> (k + 1))).1
    rw [left] at least
    omega
  · rw [roundedMantissa_of_odd (by rw [dropped, one]; rfl) (left ▸ odd), left]
    omega

theorem shiftRounded_le_of_nearer (nearer : 2 * m < (2 * q + 1) * 2 ^ k) :
    shiftRounded m k ≤ q := by
  cases k with
  | zero => exact shiftRounded_le (by omega)
  | succ k =>
    have half : m / 2 ^ k < 2 * q + 1 := by
      rw [Nat.div_lt_iff_lt_mul (Nat.two_pow_pos k)]
      rw [Nat.pow_succ, ← Nat.mul_assoc, Nat.mul_comm 2 m] at nearer
      exact Nat.lt_of_mul_lt_mul_right nearer
    exact (shiftRounded_succ_le m k).trans (by omega)

theorem le_shiftRounded_of_nearer (odd : q % 2 = 1) (nearer : (2 * q + 1) * 2 ^ k ≤ 2 * m) :
    q + 1 ≤ shiftRounded m k := by
  cases k with
  | zero => exact le_shiftRounded (by omega)
  | succ k =>
    have half : 2 * q + 1 ≤ m / 2 ^ k := by
      rw [Nat.le_div_iff_mul_le (Nat.two_pow_pos k)]
      rw [Nat.pow_succ, ← Nat.mul_assoc, Nat.mul_comm 2 m] at nearer
      exact Nat.le_of_mul_le_mul_right nearer two_pos
    rcases half.lt_or_eq with above | middle
    · refine le_shiftRounded ?_
      rw [Nat.pow_succ, Nat.mul_comm _ 2, ← Nat.mul_assoc, ← Nat.le_div_iff_mul_le
        (Nat.two_pow_pos k)]
      omega
    · have up := le_shiftRounded_succ (m := m) (k := k) (by omega)
      omega

end Shift

/-! ## The nearer multiple -/

section Nearer

variable {v : ℚ} {u : UnpackedFloat} {q : ℕ} {j : ℤ}

/-- A number between neighbours of 53 bits is rounded in their unit. -/
theorem RoundsTo.between (h : RoundsTo v u) (full : 2 ^ 52 ≤ q) (short : q < 2 ^ 53)
    (fine : -1074 ≤ j) (above : q * 2 ^ j ≤ v) (below : v < (q + 1 : ℕ) * 2 ^ j) :
    ∃ m k : ℕ, v * 2 ^ k = m * 2 ^ j ∧ unpackedRational u = shiftRounded m k * 2 ^ j := by
  obtain ⟨m, e, pos, rfl, small, rfl⟩ := h
  have log : q.log2 = 52 := (Nat.log2_eq_iff (by omega)).mpr ⟨full, short⟩
  have least : (2 : ℚ) ^ (52 + j) ≤ m * 2 ^ e := by
    have bound := two_zpow_le (m := q) (by omega) j
    rw [log] at bound
    exact bound.trans above
  have most : (m : ℚ) * 2 ^ e < 2 ^ (53 + j) := by
    refine below.trans_le ?_
    rw [zpow_add₀ two_ne_zero]
    refine mul_le_mul_of_nonneg_right ?_ (zpow_pos two_pos j).le
    have bits : ((q + 1 : ℕ) : ℚ) ≤ ((2 ^ 53 : ℕ) : ℚ) := Nat.cast_le.mpr short
    exact bits.trans (by norm_num)
  have first := lt_of_two_zpow_lt (least.trans_lt (lt_two_zpow m e))
  have last := lt_of_two_zpow_lt ((two_zpow_le pos e).trans_lt most)
  have unit : target m e = j := by
    rw [target_eq]
    omega
  refine ⟨m, (j - e).toNat, ?_, ?_⟩
  · rw [unit] at small
    have power : (2 : ℚ) ^ j = 2 ^ e * 2 ^ (j - e).toNat := by
      rw [← zpow_natCast, Int.toNat_of_nonneg (by omega), ← zpow_add₀ two_ne_zero]
      congr 1
      omega
    rw [power, mul_assoc]
  · rw [(rounded_spec pos small).2, unit]

/-- **A number in the lower half is rounded down.** -/
theorem RoundsTo.le_of_nearer (h : RoundsTo v u) (full : 2 ^ 52 ≤ q) (short : q < 2 ^ 53)
    (fine : -1074 ≤ j) (nearer : 2 * v < (2 * q + 1 : ℕ) * 2 ^ j) :
    unpackedRational u ≤ q * 2 ^ j := by
  have unit : (0 : ℚ) < 2 ^ j := zpow_pos two_pos j
  rcases le_or_gt v (q * 2 ^ j) with below | above
  · exact h.le short.le fine below
  · push_cast at nearer
    have next : v < (q + 1 : ℕ) * 2 ^ j := by
      push_cast
      linarith
    obtain ⟨m, k, value, rounded⟩ := h.between full short fine above.le next
    rw [rounded]
    refine mul_le_mul_of_nonneg_right (Nat.cast_le.mpr (shiftRounded_le_of_nearer ?_)) unit.le
    have power : (0 : ℚ) < 2 ^ k := pow_pos two_pos k
    have scaled : 2 * (m : ℚ) * 2 ^ j < (2 * q + 1) * 2 ^ k * 2 ^ j := by
      calc 2 * (m : ℚ) * 2 ^ j = 2 * v * 2 ^ k := by rw [mul_assoc, ← value]; ring
        _ < (2 * q + 1) * 2 ^ j * 2 ^ k := mul_lt_mul_of_pos_right nearer power
        _ = (2 * q + 1) * 2 ^ k * 2 ^ j := by ring
    exact_mod_cast lt_of_mul_lt_mul_right scaled unit.le

/-- **A number in the upper half is rounded up**, and so is the middle if that leads to an even
multiple. -/
theorem RoundsTo.ge_of_nearer (h : RoundsTo v u) (full : 2 ^ 52 ≤ q) (short : q < 2 ^ 53)
    (odd : q % 2 = 1) (fine : -1074 ≤ j) (nearer : (2 * q + 1 : ℕ) * 2 ^ j ≤ 2 * v) :
    ((q + 1 : ℕ) : ℚ) * 2 ^ j ≤ unpackedRational u := by
  have unit : (0 : ℚ) < 2 ^ j := zpow_pos two_pos j
  rcases lt_or_ge v ((q + 1 : ℕ) * 2 ^ j) with below | above
  · push_cast at nearer
    have least : (q : ℚ) * 2 ^ j ≤ v := by linarith
    obtain ⟨m, k, value, rounded⟩ := h.between full short fine least below
    rw [rounded]
    refine mul_le_mul_of_nonneg_right (Nat.cast_le.mpr (le_shiftRounded_of_nearer odd ?_)) unit.le
    have power : (0 : ℚ) < 2 ^ k := pow_pos two_pos k
    have scaled : (2 * q + 1) * 2 ^ k * 2 ^ j ≤ 2 * (m : ℚ) * 2 ^ j := by
      calc ((2 * q + 1) * 2 ^ k * 2 ^ j : ℚ) = (2 * q + 1) * 2 ^ j * 2 ^ k := by ring
        _ ≤ 2 * v * 2 ^ k := mul_le_mul_of_nonneg_right nearer power.le
        _ = 2 * (m : ℚ) * 2 ^ j := by rw [mul_assoc, value]; ring
    exact_mod_cast le_of_mul_le_mul_right scaled unit
  · exact h.ge (by omega) fine above

end Nearer

/-! ## What is rounded to a finite double -/

section Finite

variable {v : ℚ} {u : UnpackedFloat} {m : ℕ} {e : ℤ}

theorem unit_le_iff (pos : 0 < m) (own : target m e = e) :
    e ≤ 971 ↔ (m : ℚ) * 2 ^ e < 2 ^ (1024 : ℤ) := by
  constructor
  · intro coarse
    obtain ⟨bits, -⟩ := log2_le_of_unit own
    exact (lt_two_zpow m e).trans_le (zpow_le_zpow_right₀ one_le_two (by omega))
  · intro below
    have place := lt_of_two_zpow_lt ((two_zpow_le pos e).trans_lt below)
    by_contra great
    have full := log2_eq_of_unit own (by omega)
    omega

/-- What a rounded number is packed as is finite, and is that number, if it has room. -/
theorem isFinite_ofUnpacked_iff (proper : IsProper u) (nonneg : belowZero u = false) :
    (ofUnpacked u).isFinite = true ↔ unpackedRational u < 2 ^ (1024 : ℤ) := by
  rcases u with _ | _ | s | ⟨(_ | _), m, e, pos⟩ <;> try exact proper.elim
  case zero =>
    exact iff_of_true (isFinite_of_unpacked (unpacked_ofUnpacked_zero s) rfl) (zpow_pos two_pos _)
  case finite.negative => cases nonneg
  case finite.positive =>
    rw [unpackedRational_positive, ← unit_le_iff pos proper]
    constructor
    · intro finite
      by_contra great
      have finite : (unpacked (ofUnpacked (.finite .positive m e pos))).isFinite = true := finite
      rw [unpacked_ofUnpacked_great _ pos (not_le.mp great)] at finite
      cases finite
    · intro small
      exact isFinite_of_unpacked (unpacked_ofUnpacked_finite _ pos proper small) rfl

theorem rational_ofUnpacked (proper : IsProper u) (finite : (ofUnpacked u).isFinite = true) :
    rational (ofUnpacked u) = unpackedRational u := by
  have finite : (unpacked (ofUnpacked u)).isFinite = true := finite
  unfold rational
  rcases u with _ | _ | s | ⟨s, m, e, pos⟩ <;> try exact proper.elim
  case zero => rw [unpacked_ofUnpacked_zero]
  case finite =>
    rcases le_or_gt e 971 with small | great
    · rw [unpacked_ofUnpacked_finite _ pos proper small]
    · rw [unpacked_ofUnpacked_great _ pos great] at finite
      cases finite

/-- The middle between the greatest double and the next power of two. -/
def overflowBound : ℚ := (2 ^ 54 - 1 : ℕ) * 2 ^ (970 : ℤ)

theorem two_mul_overflowBound :
    2 * overflowBound = (2 * (2 ^ 53 - 1) + 1 : ℕ) * 2 ^ (971 : ℤ) := by
  have power : (2 : ℚ) ^ (971 : ℤ) = 2 * 2 ^ (970 : ℤ) := by
    rw [← zpow_one_add₀ two_ne_zero]
    rfl
  have odd : 2 * (2 ^ 53 - 1) + 1 = 2 ^ 54 - 1 := by norm_num
  rw [overflowBound, power, odd]
  ring

theorem RoundsTo.belowZero (h : RoundsTo v u) : belowZero u = false := by
  obtain ⟨m, e, pos, -, -, rfl⟩ := h
  exact belowZero_roundWithAccuracy ..

/-- **A number is rounded to a finite double exactly if it is below the overflow bound.** -/
theorem RoundsTo.isFinite_iff (h : RoundsTo v u) :
    (ofUnpacked u).isFinite = true ↔ v < overflowBound := by
  have power : ((2 ^ 53 : ℕ) : ℚ) * 2 ^ (971 : ℤ) = 2 ^ (1024 : ℤ) := by
    have bits : ((2 ^ 53 : ℕ) : ℚ) = 2 ^ (53 : ℤ) := by norm_num
    rw [bits, ← zpow_add₀ two_ne_zero]
    rfl
  rw [isFinite_ofUnpacked_iff h.isProper h.belowZero, ← power]
  constructor
  · intro room
    by_contra great
    have nearer : ((2 * (2 ^ 53 - 1) + 1 : ℕ) : ℚ) * 2 ^ (971 : ℤ) ≤ 2 * v := by
      rw [← two_mul_overflowBound]
      linarith
    have up := h.ge_of_nearer (by norm_num) (by norm_num) (by norm_num) (by norm_num) nearer
    exact absurd room (not_lt.mpr up)
  · intro below
    have nearer : 2 * v < ((2 * (2 ^ 53 - 1) + 1 : ℕ) : ℚ) * 2 ^ (971 : ℤ) := by
      rw [← two_mul_overflowBound]
      linarith
    have down := h.le_of_nearer (by norm_num) (by norm_num) (by norm_num) nearer
    refine down.trans_lt (mul_lt_mul_of_pos_right ?_ (zpow_pos two_pos _))
    exact Nat.cast_lt.mpr (by norm_num)

/-- A finite rounded double is the number that was rounded to. -/
theorem RoundsTo.rational_eq (h : RoundsTo v u) (finite : (ofUnpacked u).isFinite = true) :
    rational (ofUnpacked u) = unpackedRational u :=
  rational_ofUnpacked h.isProper finite

end Finite

/-! ## Natural numbers -/

/-- **A natural number becomes a finite double exactly if it is below the overflow bound.** -/
theorem isFinite_toFloat_iff {n : ℕ} : n.toFloat.isFinite = true ↔ (n : ℚ) < overflowBound := by
  rcases n.eq_zero_or_pos with rfl | pos
  · have zero : (Nat.toFloat 0).isFinite = true := by decide +kernel
    refine iff_of_true zero ?_
    rw [Nat.cast_zero, overflowBound]
    positivity
  · obtain ⟨u, rounded, read⟩ := rounds_ofScientific (k := 0) (g := 0) pos pos
      (by rw [zpow_zero, zpow_zero]) (.inl le_rfl) (by decide) (by omega)
    rw [zpow_zero, mul_one] at rounded
    have same : n.toFloat = ofUnpacked u := read
    rw [same]
    exact rounded.isFinite_iff

theorem isFinite_toFloat {n : ℕ} (small : n < 2 ^ 64) : n.toFloat.isFinite = true := by
  rw [isFinite_toFloat_iff]
  have power : (2 : ℚ) ^ 64 ≤ 2 ^ (970 : ℤ) := by
    rw [← zpow_natCast]
    exact zpow_le_zpow_right₀ one_le_two (by norm_num)
  calc (n : ℚ) < 2 ^ 64 := by exact_mod_cast small
    _ ≤ 2 ^ (970 : ℤ) := power
    _ ≤ overflowBound := le_mul_of_one_le_left (zpow_pos two_pos _).le (by norm_num)

end TrendLadder
