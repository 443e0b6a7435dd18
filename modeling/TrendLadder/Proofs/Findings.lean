import Mathlib.Data.List.Nodup

/-!
# Findings of checks

Something is put to checks in a fixed order, and each check that fails has a finding, from which the
check can be told. `(checks.filter fails).map finding` are then the findings, in the order of the
checks (`findings_ordered`), one of each failed check and none of the others (`findings_once`).
-/

namespace TrendLadder

variable {γ φ : Type} {fails : γ → Bool} {finding : γ → φ} {check : φ → γ}

theorem findings_eq_flatMap (fails : γ → Bool) (finding : γ → φ) (checks : List γ) :
    (checks.filter fails).map finding =
      checks.flatMap fun c => if fails c then [finding c] else [] := by
  induction checks with
  | nil => rfl
  | cons c checks ih =>
    rw [List.filter_cons, List.flatMap_cons, ← ih]
    split <;> rfl

section Named

variable (named : ∀ c, check (finding c) = c)

include named

theorem filter_findings (p : γ → Bool) (checks : List γ) :
    (((checks.filter fails).map finding).filter fun f => p (check f)) =
      ((checks.filter p).filter fails).map finding := by
  rw [List.filter_map, List.filter_comm]
  simp [Function.comp_def, named]

/-- A failed check has one finding, and any other one has none. -/
theorem findings_once [DecidableEq γ] {checks : List γ} (distinct : checks.Nodup) {c : γ}
    (asked : c ∈ checks) :
    (((checks.filter fails).map finding).filter fun f => check f = c) =
      if fails c then [finding c] else [] := by
  have one : (checks.filter fun x => decide (x = c)) = [c] := by
    rw [List.filter_eq, List.count_eq_one_of_mem distinct asked, List.replicate_one]
  rw [filter_findings named fun x => decide (x = c), one, List.filter_cons]
  split <;> rfl

theorem findings_ordered (checks : List γ) :
    (((checks.filter fails).map finding).map check).Sublist checks := by
  have checked : check ∘ finding = id := funext named
  rw [List.map_map, checked, List.map_id]
  exact List.filter_sublist

end Named

end TrendLadder
