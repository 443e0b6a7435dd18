import TrendLadder.Number.Layout
import TrendLadder.Number.Literal
import TrendLadder.Proofs.Number.Shortest
import TrendLadder.Proofs.Text.Digits

/-!
# Doubles in configuration files

A configuration file writes the shortest decimal of a double positionally, which may move the
point of the number. The digits before and after the point still spell the double
(`Decimal.exists_spells`).
-/

namespace TrendLadder

open Float.Model hiding pack unpack
open Float.Model.UnpackedFloat

/-! ## Signs -/

theorem sign_append {c : Char} {rest : List Char} (negative : Bool) (digit : c.isDigit = true) :
    Literal.sign (Layout.sign negative ++ c :: rest) = (negative, c :: rest) := by
  cases negative with
  | true => rfl
  | false =>
    show Literal.sign (c :: rest) = _
    unfold Literal.sign
    split
    case h_1 heq =>
      cases heq
      cases digit
    case h_2 heq =>
      cases heq
      cases digit
    case h_3 => rfl

theorem sign_whole_append (negative : Bool) {whole : List Char}
    (digits : ∀ c ∈ whole, c.isDigit = true) (some : whole ≠ []) (rest : List Char) :
    Literal.sign (Layout.sign negative ++ (whole ++ rest)) = (negative, whole ++ rest) := by
  obtain ⟨c, more, rfl⟩ := List.exists_cons_of_ne_nil some
  exact sign_append negative (digits c List.mem_cons_self)

namespace Decimal

/-! ## Moving the point -/

/-- A whole number is read the same with its zeros written out and one behind the point. -/
theorem toFloat_zeros (negative : Bool) (n : ℕ) {k : ℕ} (small : k ≤ 2048) :
    toFloat ⟨negative, n * 10 ^ (k + 1), -1⟩ = toFloat ⟨negative, n, k⟩ := by
  rcases Nat.eq_zero_or_pos n with rfl | pos
  · rw [Nat.zero_mul, toFloat_zero, toFloat_zero]
  · have whole : 0 < n * 10 ^ k := Nat.mul_pos pos (Nat.pow_pos (by omega))
    have longer : 0 < n * 10 ^ (k + 1) := Nat.mul_pos pos (Nat.pow_pos (by omega))
    have value : (n : ℚ) * 10 ^ (k : ℤ) = (n * 10 ^ k : ℕ) * 2 ^ (0 : ℤ) := by
      rw [zpow_natCast, zpow_zero, mul_one, Nat.cast_mul, Nat.cast_pow, Nat.cast_ofNat]
    have value' : ((n * 10 ^ (k + 1) : ℕ) : ℚ) * 10 ^ (-1 : ℤ) =
        (n * 10 ^ k : ℕ) * 2 ^ (0 : ℤ) := by
      rw [pow_succ, ← mul_assoc, Nat.cast_mul, zpow_neg_one, Nat.cast_ofNat,
        mul_inv_cancel_right₀ (by norm_num), zpow_zero, mul_one]
    obtain ⟨u, short, magnitude⟩ :=
      rounds_ofScientific pos whole value (.inl le_rfl) (by omega) (by omega)
    obtain ⟨w, long, magnitude'⟩ :=
      rounds_ofScientific longer whole value' (.inl le_rfl) (by omega) (by omega)
    rw [toFloat_of_magnitude (d := ⟨negative, n, k⟩) magnitude,
      toFloat_of_magnitude (d := ⟨negative, n * 10 ^ (k + 1), -1⟩) magnitude', short.unique long]

/-- A number with a power of ten that large is read as an infinity. -/
theorem unpacked_toFloat_of_large (negative : Bool) {n k : ℕ} (pos : 0 < n) (large : 2048 < k) :
    unpacked (toFloat ⟨negative, n, k⟩) =
      .infinity (if negative then .negative else .positive) := by
  have magnitude : Float.ofScientific n (decide ((k : ℤ) < 0)) (k : ℤ).natAbs =
      ofUnpacked (.infinity .positive) := by
    have bits : (2 : ℤ) ^ Format.binary64.exponentBits = 2048 := by decide
    have sign : decide ((k : ℤ) < 0) = false := decide_eq_false (by omega)
    rw [sign, Float.ofScientific, dif_neg (by omega)]
    show ofUnpacked (UnpackedFloat.ofScientific .binary64 n k) = _
    rw [UnpackedFloat.ofScientific, dif_neg pos.ne', bits, if_pos (by omega)]
  rw [toFloat_of_magnitude (d := ⟨negative, n, k⟩) magnitude]
  cases negative <;> exact unpack_packedInfinity _

end Decimal

/-! ## The written parts -/

/-- The digits around a point spell the number, as far as doubles go. -/
structure Spells (whole fraction : List Char) (d : Decimal) : Prop where
  isDigit_whole : ∀ c ∈ whole, c.isDigit = true
  isDigit_fraction : ∀ c ∈ fraction, c.isDigit = true
  /-- There is no leading zero but one that stands alone. -/
  plain : whole = ['0'] ∨ whole ≠ [] ∧ whole.head? ≠ some '0'
  fraction_ne_nil : fraction ≠ []
  toFloat_eq : (Decimal.ofParts d.negative whole fraction 0).toFloat = d.toFloat

namespace Decimal

variable (negative : Bool) {n : ℕ} {k : ℤ}

theorem isDigit_zeros {k : ℕ} {c : Char} (h : c ∈ List.replicate k '0') : c.isDigit = true := by
  rw [List.eq_of_mem_replicate h]
  rfl

theorem isDigit_zero : ∀ c ∈ ['0'], c.isDigit = true := fun _ h => isDigit_zeros (k := 1) h

theorem spells_zero : Spells ['0'] ['0'] ⟨negative, 0, k⟩ where
  isDigit_whole := isDigit_zero
  isDigit_fraction := isDigit_zero
  plain := .inl rfl
  fraction_ne_nil := List.cons_ne_nil _ _
  toFloat_eq := (toFloat_zero negative _).trans (toFloat_zero negative k).symm

/-- The digits of a small number stand behind the point. -/
theorem spells_below (below : (Nat.toDigits 10 n).length + k ≤ 0) :
    Spells ['0'] (List.replicate ((Nat.toDigits 10 n).length + k).natAbs '0' ++ Nat.toDigits 10 n)
      ⟨negative, n, k⟩ where
  isDigit_whole := isDigit_zero
  isDigit_fraction c h := (List.mem_append.mp h).elim isDigit_zeros isDigit_toDigits
  plain := .inl rfl
  fraction_ne_nil := List.append_ne_nil_of_right_ne_nil _ Nat.toDigits_ne_nil
  toFloat_eq := by
    have number := natOfRun_zeros_append (((Nat.toDigits 10 n).length + k).natAbs + 1)
      (Nat.toDigits 10 n)
    rw [natOfRun_toDigits] at number
    unfold ofParts
    rw [List.singleton_append, ← List.cons_append, ← List.replicate_succ, number,
      List.length_append, List.length_replicate]
    congr 2
    omega

/-- The digits of a large number stand in front of the point, with zeros behind them. -/
theorem spells_whole (pos : 0 < n) {k : ℕ} (small : k ≤ 2048) :
    Spells (Nat.toDigits 10 n ++ List.replicate k '0') ['0'] ⟨negative, n, k⟩ where
  isDigit_whole c h := (List.mem_append.mp h).elim isDigit_toDigits isDigit_zeros
  isDigit_fraction := isDigit_zero
  plain := by
    refine .inr ⟨List.append_ne_nil_of_left_ne_nil Nat.toDigits_ne_nil _, ?_⟩
    rw [List.head?_append_of_ne_nil _ Nat.toDigits_ne_nil]
    exact head_toDigits_ne_zero pos
  fraction_ne_nil := List.cons_ne_nil _ _
  toFloat_eq := by
    have number := natOfRun_append_zeros (Nat.toDigits 10 n) (k + 1)
    rw [natOfRun_toDigits, List.replicate_succ', ← List.append_assoc] at number
    unfold ofParts
    rw [number]
    exact toFloat_zeros negative n small

/-- The point stands among the digits of the other numbers. -/
theorem spells_inside (pos : 0 < n) {point : ℕ} (positive : 0 < point)
    (inside : point < (Nat.toDigits 10 n).length) (hk : (Nat.toDigits 10 n).length + k = point) :
    Spells ((Nat.toDigits 10 n).take point) ((Nat.toDigits 10 n).drop point) ⟨negative, n, k⟩ where
  isDigit_whole c h := isDigit_toDigits (List.mem_of_mem_take h)
  isDigit_fraction c h := isDigit_toDigits (List.mem_of_mem_drop h)
  plain := by
    refine .inr ⟨?_, ?_⟩
    · rw [Ne, List.take_eq_nil_iff]
      exact not_or.mpr ⟨positive.ne', Nat.toDigits_ne_nil⟩
    · rw [List.head?_take, if_neg positive.ne']
      exact head_toDigits_ne_zero pos
  fraction_ne_nil := by
    rw [Ne, List.drop_eq_nil_iff]
    omega
  toFloat_eq := by
    unfold ofParts
    rw [List.take_append_drop, natOfRun_toDigits, List.length_drop]
    congr 2
    omega

/-- The digits of a number that is not too large to be a double, written positionally with the point
of whole numbers, spell it. -/
theorem exists_spells_positional (pos : 0 < n) (small : k ≤ 2048) :
    ∃ whole fraction,
      Layout.positional ['.', '0'] (Nat.toDigits 10 n) ((Nat.toDigits 10 n).length + k) =
          whole ++ '.' :: fraction ∧
        Spells whole fraction ⟨negative, n, k⟩ := by
  unfold Layout.positional
  by_cases below : (Nat.toDigits 10 n).length + k ≤ 0
  · rw [if_pos below]
    exact ⟨['0'], _, rfl, spells_below negative below⟩
  · rw [if_neg below]
    by_cases whole : (Nat.toDigits 10 n).length ≤ ((Nat.toDigits 10 n).length + k).toNat
    · obtain ⟨zeros, rfl⟩ := Int.eq_ofNat_of_zero_le (by omega : 0 ≤ k)
      have count : ((Nat.toDigits 10 n).length + (zeros : ℤ)).toNat -
          (Nat.toDigits 10 n).length = zeros := by omega
      rw [if_pos whole, count]
      exact ⟨_, ['0'], rfl, spells_whole negative pos (Int.ofNat_le.mp small)⟩
    · rw [if_neg whole]
      exact ⟨_, _, rfl, spells_inside negative pos (by omega) (by omega) (by omega)⟩

/-- **The digits that are written for a decimal number spell it**, unless it is too large to be a
double. -/
theorem exists_spells {d : Decimal} (small : 0 < d.significand → d.exponent ≤ 2048) :
    ∃ whole fraction, Layout.configuration.writeDecimal d = whole ++ '.' :: fraction ∧
      Spells whole fraction d := by
  obtain ⟨negative, n, k⟩ := d
  unfold Layout.writeDecimal
  by_cases none : n = 0
  · subst none
    exact ⟨['0'], ['0'], rfl, spells_zero negative⟩
  · have pos : 0 < n := Nat.pos_of_ne_zero none
    have positional : Layout.configuration.isPositional (Decimal.point ⟨negative, n, k⟩) = true :=
      rfl
    rw [if_neg none, if_pos positional]
    exact exists_spells_positional negative pos (small pos)

end Decimal

/-- A double that is written with digits has no large power of ten. -/
theorem Reading.exponent_le_of_shortest {tie : Tie} {x : Float} {d : Decimal}
    (h : Reading.shortest tie x = .decimal d) (pos : 0 < d.significand) : d.exponent ≤ 2048 := by
  by_contra large
  obtain ⟨k, hk⟩ := Int.eq_ofNat_of_zero_le (by omega : 0 ≤ d.exponent)
  obtain ⟨negative, n, _⟩ := d
  obtain rfl := hk
  have infinite := Decimal.unpacked_toFloat_of_large negative pos
    (Int.ofNat_lt.mp (Int.not_le.mp large))
  rw [Reading.toFloat_of_shortest h] at infinite
  rw [Reading.shortest_eq, infinite] at h
  cases h

/-- A double that is written with digits is spelled by them. -/
theorem exists_spells_of_shortest {x : Float} {d : Decimal}
    (h : Reading.shortest Layout.configuration.tie x = .decimal d) :
    ∃ whole fraction, Spells whole fraction d ∧
      Layout.configuration.write x = Layout.sign d.negative ++ (whole ++ '.' :: fraction) := by
  obtain ⟨whole, fraction, text, spells⟩ :=
    Decimal.exists_spells (Reading.exponent_le_of_shortest h)
  refine ⟨whole, fraction, spells, ?_⟩
  unfold Layout.write
  rw [h]
  exact congrArg _ text

end TrendLadder
