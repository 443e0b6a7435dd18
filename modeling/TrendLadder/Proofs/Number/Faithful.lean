import TrendLadder.Proofs.Number.Rounding

/-!
# Rounding does not pass a double

A positive number is rounded to one of the two multiples of its unit next to it, so rounding never
passes a number that is a multiple of the unit itself. With at most 53 bits a number of smaller
units is not passed either (`RoundsTo.ge`, `RoundsTo.le`): where its unit is smaller than that of
what is rounded, it lies at or below the bottom of the binade.

The rounded number is in its own unit again (`IsProper`), also where it takes a bit more than it has
room for.
-/

namespace TrendLadder

open Float.Model hiding pack unpack
open Float.Model.UnpackedFloat

/-! ## Shifting -/

theorem mantissa_shiftRight (em : ExtendedMantissa) (k : ℕ) :
    (em >>> k).mantissa = em.mantissa / 2 ^ k := by
  show (k.repeat ExtendedMantissa.shiftRightOne em).mantissa = _
  induction k with
  | zero => exact (Nat.div_one _).symm
  | succ k ih =>
    show (k.repeat ExtendedMantissa.shiftRightOne em).mantissa / 2 = _
    rw [ih, Nat.div_div_eq_div_mul, Nat.pow_succ]

theorem roundedMantissa_bounds (em : ExtendedMantissa) :
    em.mantissa ≤ em.roundedMantissa ∧ em.roundedMantissa ≤ em.mantissa + 1 := by
  obtain ⟨m, round, sticky⟩ := em
  cases round <;> cases sticky <;>
    simp only [ExtendedMantissa.roundedMantissa, ExtendedMantissa.accuracy,
      Accuracy.roundToNearestEven] <;> omega

/-- The number of units that `m` is rounded to when `k` bits are shifted out. -/
def shiftRounded (m k : ℕ) : ℕ :=
  ((⟨m, false, false⟩ : ExtendedMantissa) >>> k).roundedMantissa

theorem le_shiftRounded {m k q : ℕ} (h : q * 2 ^ k ≤ m) : q ≤ shiftRounded m k := by
  have bounds := (roundedMantissa_bounds ((⟨m, false, false⟩ : ExtendedMantissa) >>> k)).1
  rw [mantissa_shiftRight] at bounds
  exact ((Nat.le_div_iff_mul_le (Nat.two_pow_pos k)).mpr h).trans bounds

theorem shiftRounded_le {m k q : ℕ} (h : m ≤ q * 2 ^ k) : shiftRounded m k ≤ q := by
  rcases h.lt_or_eq with below | rfl
  · have bounds := (roundedMantissa_bounds ((⟨m, false, false⟩ : ExtendedMantissa) >>> k)).2
    rw [mantissa_shiftRight] at bounds
    have floor : m / 2 ^ k < q := (Nat.div_lt_iff_lt_mul (Nat.two_pow_pos k)).mpr below
    exact bounds.trans floor
  · -- nothing but zeros is shifted out
    have exact := shiftLeft_shiftRight q k 0
    rw [Nat.shiftLeft_eq, Nat.add_zero] at exact
    rw [shiftRounded, exact]
    exact Nat.le_refl q

/-! ## The rounded number -/

/-- The rational number that an unpacked double stands for; zero for one that is not finite. -/
def unpackedRational : UnpackedFloat → ℚ
  | .finite s m e _ => s.apply m * 2 ^ e
  | _ => 0

/-- An unpacked double is finite and in its own unit. -/
def IsProper : UnpackedFloat → Prop
  | .finite _ m e _ => target m e = e
  | .zero _ => True
  | _ => False

theorem log2_eq_of_unit {m : ℕ} {e : ℤ} (unit : target m e = e) (above : -1074 < e) :
    m.log2 = 52 := by
  rw [target_eq] at unit
  omega

theorem log2_le_of_unit {m : ℕ} {e : ℤ} (unit : target m e = e) : m.log2 ≤ 52 ∧ -1074 ≤ e := by
  rw [target_eq] at unit
  omega

/-- Shifting at the end of rounding, where at most one bit too many is left. -/
theorem shiftToTarget_of_target {r : ℕ} {t u : ℤ} (unit : target r t = u) :
    shiftToTargetExponent .binary64 r t .exact =
      ((⟨r, false, false⟩ : ExtendedMantissa) >>> (u - t).toNat, t + (u - t).toNat) := by
  unfold shiftToTargetExponent shiftToExponent
  show ((_ : ExtendedMantissa) >>> (target r t - t).toNat, t + ((target r t - t).toNat : ℤ)) = _
  rw [unit]
  rfl

/-- A number with room for all its bits is not shifted. -/
theorem shiftToTarget_short {r : ℕ} {t : ℤ} (short : r < 2 ^ 53) (fine : -1074 ≤ t) :
    target r t ≤ t ∧
      shiftToTargetExponent .binary64 r t .exact = (⟨r, false, false⟩, t) := by
  have unit : target r t ≤ t := by
    have bits : r.log2 ≤ 52 := by
      rcases Nat.eq_zero_or_pos r with rfl | positive
      · exact Nat.zero_le _
      · exact Nat.lt_succ_iff.mp ((Nat.log2_lt positive.ne').mpr short)
    rw [target_eq]
    omega
  refine ⟨unit, ?_⟩
  rw [shiftToTarget_of_target rfl, Int.toNat_of_nonpos (by omega)]
  exact Prod.ext rfl (Int.add_zero t)

/-- A number with one bit too many is shifted by one, and all that is shifted out is a zero. -/
theorem shiftToTarget_carry {t : ℤ} (fine : -1074 ≤ t) :
    shiftToTargetExponent .binary64 (2 ^ 53) t .exact = (⟨2 ^ 52, false, false⟩, t + 1) := by
  have unit : target (2 ^ 53) t = t + 1 := by
    rw [target_eq, Nat.log2_two_pow]
    omega
  rw [shiftToTarget_of_target unit, add_sub_cancel_left]
  rfl

/-- The place of the leading bit of a number, in terms of the amount by which it is shifted to its
unit `t`. -/
theorem log2_of_shift {m k : ℕ} {e t : ℤ} (small : e ≤ t) (unit : target m e = t)
    (amount : (t - e).toNat = k) :
    m.log2 ≤ 52 + k ∧ (m.log2 = 52 + k ∨ t = -1074) ∧ -1074 ≤ t ∧ e + k = t := by
  have exponent := target_eq m e
  omega

theorem shiftRounded_le_of_short {m k : ℕ} (short : m.log2 ≤ 52 + k) :
    shiftRounded m k ≤ 2 ^ 53 := by
  apply shiftRounded_le
  rw [← pow_add]
  exact (Nat.lt_log2_self.trans_le (Nat.pow_le_pow_right two_pos (by omega))).le

theorem le_shiftRounded_of_full {m k : ℕ} (pos : 0 < m) (full : m.log2 = 52 + k) :
    2 ^ 52 ≤ shiftRounded m k := by
  apply le_shiftRounded
  rw [← pow_add, ← full]
  exact Nat.log2_self_le pos.ne'

/-- What a number rounds to is in its own unit and is the number of units that is left when the
number is shifted to its unit. -/
theorem rounded_spec {m : ℕ} {e : ℤ} (pos : 0 < m) (small : e ≤ target m e) :
    IsProper (roundWithAccuracy .binary64 .positive m e .exact) ∧
    unpackedRational (roundWithAccuracy .binary64 .positive m e .exact) =
      shiftRounded m (target m e - e).toNat * 2 ^ target m e := by
  obtain ⟨t, unit⟩ : ∃ t, target m e = t := ⟨_, rfl⟩
  obtain ⟨k, amount⟩ : ∃ k, (t - e).toNat = k := ⟨_, rfl⟩
  rw [unit] at small
  obtain ⟨short, long, fine, shifted⟩ := log2_of_shift small unit amount
  have most := shiftRounded_le_of_short short
  have enough := fun full => le_shiftRounded_of_full (k := k) pos full
  obtain ⟨r, rounded⟩ : ∃ r, shiftRounded m k = r := ⟨_, rfl⟩
  have first : shiftToTargetExponent .binary64 m e .exact =
      ((⟨m, false, false⟩ : ExtendedMantissa) >>> k, t) := by
    rw [shiftToTarget_of_target unit, amount, shifted]
  have mantissa : ((⟨m, false, false⟩ : ExtendedMantissa) >>> k).roundedMantissa = r := rounded
  rw [unit, amount]
  rw [rounded] at most enough ⊢
  unfold roundWithAccuracy
  simp only [first, mantissa]
  rcases most.lt_or_eq with fits | rfl
  · obtain ⟨unit2, second⟩ := shiftToTarget_short fits fine
    simp only [second]
    split
    · next none =>
      rw [none, Nat.cast_zero, zero_mul]
      exact ⟨trivial, rfl⟩
    · next some =>
      refine ⟨?_, rfl⟩
      show target r t = t
      rw [target_eq] at unit2 ⊢
      rcases long with full | bottom
      · have bits := (Nat.le_log2 some).mpr (enough full)
        omega
      · omega
  · simp only [shiftToTarget_carry fine]
    refine ⟨?_, ?_⟩
    · show target (2 ^ 52) (t + 1) = t + 1
      rw [target_eq, Nat.log2_two_pow]
      omega
    · show (((2 ^ 52 : ℕ) : ℤ) : ℚ) * 2 ^ (t + 1) = ((2 ^ 53 : ℕ) : ℚ) * 2 ^ t
      rw [zpow_add₀ two_ne_zero]
      push_cast
      ring

/-! ## What rounding does not pass -/

/-- A number is rounded in some unit, whose multiples are not passed, and has at least 53 bits in it
unless it is the least unit. -/
theorem RoundsTo.exists_unit {v : ℚ} {u : UnpackedFloat} (h : RoundsTo v u) :
    ∃ t : ℤ, -1074 ≤ t ∧ (t = -1074 ∨ ((2 ^ 52 : ℕ) : ℚ) * 2 ^ t ≤ v) ∧
      (∀ q : ℕ, q * 2 ^ t ≤ v → q * 2 ^ t ≤ unpackedRational u) ∧
      ∀ q : ℕ, v ≤ q * 2 ^ t → unpackedRational u ≤ q * 2 ^ t := by
  obtain ⟨m, e, pos, rfl, small, rfl⟩ := h
  rw [(rounded_spec pos small).2]
  obtain ⟨t, unit⟩ : ∃ t, target m e = t := ⟨_, rfl⟩
  obtain ⟨k, amount⟩ : ∃ k, (t - e).toNat = k := ⟨_, rfl⟩
  have exponent := target_eq m e
  rw [unit] at small exponent ⊢
  rw [amount]
  have positive : (0 : ℚ) < 2 ^ t := zpow_pos two_pos t
  have shifted (q : ℕ) : (q : ℚ) * 2 ^ t = (q * 2 ^ k : ℕ) * 2 ^ e := by
    rw [← shiftLeft_mul_two_zpow q small, amount, Nat.shiftLeft_eq]
  have exact : (0 : ℚ) < 2 ^ e := zpow_pos two_pos e
  refine ⟨t, by omega, ?_, fun q le => ?_, fun q ge => ?_⟩
  · rcases eq_or_ne t (-1074) with least | above
    · exact .inl least
    · right
      rw [shifted, ← pow_add]
      refine mul_le_mul_of_nonneg_right (Nat.cast_le.mpr ?_) exact.le
      have full : 52 + k = m.log2 := by omega
      rw [full]
      exact Nat.log2_self_le pos.ne'
  · rw [shifted] at le
    have units := le_shiftRounded (Nat.cast_le.mp (le_of_mul_le_mul_right le exact))
    exact mul_le_mul_of_nonneg_right (Nat.cast_le.mpr units) positive.le
  · rw [shifted] at ge
    have units := shiftRounded_le (Nat.cast_le.mp (le_of_mul_le_mul_right ge exact))
    exact mul_le_mul_of_nonneg_right (Nat.cast_le.mpr units) positive.le

theorem RoundsTo.isProper {v : ℚ} {u : UnpackedFloat} (h : RoundsTo v u) : IsProper u := by
  obtain ⟨m, e, pos, -, small, rfl⟩ := h
  exact (rounded_spec pos small).1

section Grid

variable {v : ℚ} {u : UnpackedFloat} {k : ℕ} {j t : ℤ}

/-- A number of at most 53 bits in a smaller unit is at most a number of 53 bits. -/
theorem le_of_few (few : k ≤ 2 ^ 53) (smaller : j < t) :
    (k : ℚ) * 2 ^ j ≤ (2 ^ 52 : ℕ) * 2 ^ t := by
  have bits : (k : ℚ) ≤ ((2 ^ 53 : ℕ) : ℚ) := Nat.cast_le.mpr few
  have units : (2 : ℚ) ^ (j + 1) ≤ 2 ^ t := zpow_le_zpow_right₀ one_le_two (by omega)
  calc (k : ℚ) * 2 ^ j ≤ (2 ^ 53 : ℕ) * 2 ^ j :=
        mul_le_mul_of_nonneg_right bits (zpow_pos two_pos j).le
    _ = (2 ^ 52 : ℕ) * 2 ^ (j + 1) := by
        rw [zpow_add₀ two_ne_zero]
        push_cast
        ring
    _ ≤ (2 ^ 52 : ℕ) * 2 ^ t := mul_le_mul_of_nonneg_left units (Nat.cast_nonneg _)

/-- **Rounding does not fall below a number of at most 53 bits.** -/
theorem RoundsTo.ge (h : RoundsTo v u) (few : k ≤ 2 ^ 53) (fine : -1074 ≤ j)
    (le : k * 2 ^ j ≤ v) : k * 2 ^ j ≤ unpackedRational u := by
  obtain ⟨t, -, bottom, ge, -⟩ := h.exists_unit
  rcases le_or_gt t j with coarser | finer
  · rw [← shiftLeft_mul_two_zpow k coarser] at le ⊢
    exact ge _ le
  · have normal := bottom.resolve_left (by omega)
    exact (le_of_few few finer).trans (ge _ normal)

/-- **Rounding does not rise above a number of at most 53 bits.** -/
theorem RoundsTo.le (h : RoundsTo v u) (few : k ≤ 2 ^ 53) (fine : -1074 ≤ j)
    (ge : v ≤ k * 2 ^ j) : unpackedRational u ≤ k * 2 ^ j := by
  obtain ⟨t, -, bottom, -, le⟩ := h.exists_unit
  rcases le_or_gt t j with coarser | finer
  · rw [← shiftLeft_mul_two_zpow k coarser] at ge ⊢
    exact le _ ge
  · have normal := bottom.resolve_left (by omega)
    exact (le _ (ge.trans (le_of_few few finer))).trans (normal.trans ge)

end Grid

end TrendLadder
