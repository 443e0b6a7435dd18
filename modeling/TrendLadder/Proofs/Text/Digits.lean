import TrendLadder.Text.Digits
import Mathlib.Algebra.Group.Nat.Defs
import Mathlib.Data.List.Basic

/-!
# Runs of characters

A run of a class is taken off a text where it ends, and the digits of a natural number spell it.
-/

namespace TrendLadder

/-! ## Classes -/

/-- A run of characters of a class ends at the first one that is not of the class. -/
theorem takeWhile_dropWhile_append {p : Char → Bool} {run : List Char}
    (inside : ∀ c ∈ run, p c = true) (rest : List Char) (ends : ∀ c ∈ rest.head?, p c = false) :
    (run ++ rest).takeWhile p = run ∧ (run ++ rest).dropWhile p = rest := by
  rw [List.takeWhile_append_of_pos inside, List.dropWhile_append_of_pos inside]
  cases rest with
  | nil => exact ⟨List.append_nil run, rfl⟩
  | cons c rest =>
    have stop : ¬p c = true := by simp [ends c rfl]
    rw [List.takeWhile_cons_of_neg stop, List.dropWhile_cons_of_neg stop]
    exact ⟨List.append_nil run, rfl⟩

theorem ne_of_class {p : Char → Bool} {c d : Char} (inside : p c = true) (outside : p d = false) :
    c ≠ d := fun same => by
  rw [same, outside] at inside
  cases inside

/-! ## Digits -/

theorem takeDigits_append {ds : List Char} (digits : ∀ c ∈ ds, c.isDigit = true)
    (rest : List Char) (ends : ∀ c ∈ rest.head?, c.isDigit = false) :
    takeDigits (ds ++ rest) = (ds, rest) := by
  obtain ⟨taken, left⟩ := takeWhile_dropWhile_append digits rest ends
  rw [takeDigits, taken, left]

theorem takeDigits_eq {ds : List Char} (digits : ∀ c ∈ ds, c.isDigit = true) :
    takeDigits ds = (ds, []) := by
  have := takeDigits_append digits [] (by simp)
  rwa [List.append_nil] at this

theorem head_toDigits_ne_zero {n : ℕ} (pos : 0 < n) : (Nat.toDigits 10 n).head? ≠ some '0' := by
  induction n using Nat.strongRecOn with
  | ind n ih =>
    rw [Nat.toDigits_eq_if (by omega)]
    split
    case isTrue => simpa [Nat.digitChar_eq_zero] using Nat.ne_of_gt pos
    case isFalse large =>
      rw [List.head?_append_of_ne_nil _ Nat.toDigits_ne_nil]
      exact ih (n / 10) (by omega) (by omega)

theorem isDigit_toDigits {n : ℕ} {c : Char} (h : c ∈ Nat.toDigits 10 n) : c.isDigit = true :=
  Nat.isDigit_of_mem_toDigits (by omega) (by omega) h

/-- A natural number is written as a zero or without a leading zero. -/
theorem plain_toDigits (n : ℕ) :
    Nat.toDigits 10 n = ['0'] ∨ Nat.toDigits 10 n ≠ [] ∧ (Nat.toDigits 10 n).head? ≠ some '0' := by
  rcases Nat.eq_zero_or_pos n with rfl | pos
  · exact .inl rfl
  · exact .inr ⟨Nat.toDigits_ne_nil, head_toDigits_ne_zero pos⟩

@[simp] theorem natOfRun_toDigits (n : ℕ) : natOfRun (Nat.toDigits 10 n) = n :=
  Nat.ofDigitChars_ten_toDigits

/-- Zeros in front of a run do not count. -/
theorem natOfRun_zeros_append (k : ℕ) (cs : List Char) :
    natOfRun (List.replicate k '0' ++ cs) = natOfRun cs := by
  rw [natOfRun, Nat.ofDigitChars_append, Nat.ofDigitChars_replicate_zero, Nat.mul_zero, natOfRun]

/-- Zeros behind a run are powers of ten. -/
theorem natOfRun_append_zeros (cs : List Char) (k : ℕ) :
    natOfRun (cs ++ List.replicate k '0') = natOfRun cs * 10 ^ k := by
  rw [natOfRun, Nat.ofDigitChars_append, Nat.ofDigitChars_replicate_zero, Nat.mul_comm, natOfRun]

end TrendLadder
