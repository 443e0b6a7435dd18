import Mathlib.Algebra.Group.Nat.Defs
import TrendLadder.Document.Value

/-!
# Reading what was written

The readers of a value on the values that are written for their types: the parts of a value that is
read by parts are found where they were put.
-/

namespace TrendLadder

variable {α : Type}

namespace Value

/-! ## Scalars and lists -/

@[simp] theorem bool?_bool (b : Bool) : bool? (.bool b) = some b := rfl

@[simp] theorem float?_real (x : Float) : float? (.real x) = some x := rfl

theorem nat?_ofNat {width n : ℕ} (h : n < 2 ^ width) : nat? width (ofNat n) = some n :=
  if_pos ⟨Int.natCast_nonneg n, h⟩

/-- A list is read from what was written for its entries. -/
theorem mapM_map {write : α → Value} {read : Value → Option α} {xs : List α}
    (each : ∀ a ∈ xs, read (write a) = some a) : (xs.map write).mapM read = some xs := by
  induction xs with
  | nil => rfl
  | cons x xs ih =>
    obtain ⟨first, others⟩ := List.forall_mem_cons.mp each
    rw [List.map_cons, List.mapM_cons, first, ih others]
    rfl

end Value

/-! ## Fields by their names -/

namespace Fields

variable {name other : String} {v : Value} {fs : List (String × Value)} {named : Bool}
  {read : Value → Option α}

theorem get?_cons : get? ⟨(other, v) :: fs, named⟩ name =
    if name = other then some v else get? ⟨fs, named⟩ name := by
  unfold get?
  by_cases same : name = other
  · rw [if_pos same, same]
    exact List.lookup_cons_self
  · have differs : (name == other) = false := beq_eq_false_iff_ne.mpr same
    rw [if_neg same]
    simp only [List.lookup_cons, differs]

@[simp] theorem required_cons : required ⟨(other, v) :: fs, named⟩ name read =
    if name = other then read v else required ⟨fs, named⟩ name read := by
  unfold required
  rw [get?_cons]
  by_cases same : name = other <;> simp [same]

@[simp] theorem optional_cons : optional ⟨(other, v) :: fs, named⟩ name read =
    if name = other then v.nullable read else optional ⟨fs, named⟩ name read := by
  unfold optional
  rw [get?_cons]
  by_cases same : name = other <;> simp [same]

@[simp] theorem orElse_cons {absent : α} : orElse ⟨(other, v) :: fs, named⟩ name read absent =
    if name = other then read v else orElse ⟨fs, named⟩ name read absent := by
  unfold orElse
  rw [get?_cons]
  by_cases same : name = other <;> simp [same]

end Fields

namespace Value

/-! ## Records -/

/-- All the fields of a record are found by their names. -/
theorem fields?_record {names : List String} {fs : List (String × Value)}
    (named : fs.map Prod.fst = names) (distinct : names.Nodup) :
    (Value.record fs).fields? names = some ⟨fs, true⟩ := by
  have known : fs.filter (fun f => names.contains f.1) = fs := by
    rw [List.filter_eq_self]
    intro f hf
    rw [List.contains_iff_mem, ← named]
    exact List.mem_map_of_mem hf
  rw [fields?]
  simp only [known, named, if_pos distinct]

end Value

end TrendLadder
