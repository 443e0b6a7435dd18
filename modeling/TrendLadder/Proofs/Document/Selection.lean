import TrendLadder.Proofs.Document.Json.Plain

/-!
# Documents with fields left out

A `Selection` says which fields of a document are kept, and `Value.select` leaves out the others.
The part that is kept goes through a text like any value (`Value.part`), so a field of it is found
exactly if it is kept (`get?_partFields`). What a reader makes of a part is stated by `Takes`: it
succeeds exactly under a condition, and then with a known result. The lemmas here give the
condition and the result of a record from those of its fields.
-/

namespace TrendLadder

open Json Value

variable {α β : Type}

/-! ## Selections -/

/-- Which fields of a document are kept. A field is named by the path that leads to it. -/
abbrev Selection := List String → Bool

/-- The selection among the fields of a field. -/
def Selection.under (keep : Selection) (name : String) : Selection :=
  fun path => keep (name :: path)

namespace Value

mutual

/-- A value with the fields that are kept. A field that is left out takes along what it holds. -/
def select (keep : Selection) : Value → Value
  | .record fields => .record (selectFields keep fields)
  | v => v

/-- The fields that are kept, with the fields that are kept in them. -/
def selectFields (keep : Selection) : List (String × Value) → List (String × Value)
  | [] => []
  | (name, v) :: fs =>
    if keep [name] then (name, select (keep.under name) v) :: selectFields keep fs
    else selectFields keep fs

end

mutual

/-- Whether all doubles of a tree are finite. -/
def isFinite : Value → Bool
  | .real x => x.isFinite
  | .list _ items => allFinite items
  | .record fields => fieldsFinite fields
  | _ => true

/-- Whether all doubles of a list of trees are finite. -/
def allFinite : List Value → Bool
  | [] => true
  | v :: vs => isFinite v && allFinite vs

/-- Whether all doubles of the fields of a record are finite. -/
def fieldsFinite : List (String × Value) → Bool
  | [] => true
  | (_, v) :: fs => isFinite v && fieldsFinite fs

end

/-- The part of a value that is kept, as it is read from its text. -/
def part (keep : Selection) (v : Value) : Value := spelled (v.select keep)

/-- The fields of a record that are kept, as they are read from its text. -/
def partFields (keep : Selection) (fs : List (String × Value)) : Fields :=
  ⟨spelledFields (selectFields keep fs), true⟩

section Select

variable {keep : Selection} {name : String} {fs : List (String × Value)}

theorem selectFields_of_kept (kept : keep [name] = true) (v : Value) :
    selectFields keep ((name, v) :: fs) =
      (name, v.select (keep.under name)) :: selectFields keep fs := by
  rw [selectFields, if_pos kept]

theorem selectFields_of_left (left : ¬keep [name] = true) (v : Value) :
    selectFields keep ((name, v) :: fs) = selectFields keep fs := by
  rw [selectFields, if_neg left]

theorem map_fst_selectFields (keep : Selection) (fs : List (String × Value)) :
    (selectFields keep fs).map Prod.fst = (fs.map Prod.fst).filter fun name => keep [name] := by
  induction fs with
  | nil => rfl
  | cons f fs ih =>
    obtain ⟨name, v⟩ := f
    rw [List.map_cons, List.filter_cons]
    by_cases kept : keep [name] = true
    · rw [selectFields_of_kept kept, List.map_cons, if_pos kept, ih]
    · rw [selectFields_of_left kept, if_neg kept, ih]

/-- The doubles of a field have to be finite if it is kept. -/
@[simp] theorem fieldsFinite_selectFields_cons (v : Value) :
    fieldsFinite (selectFields keep ((name, v) :: fs)) = true ↔
      (keep [name] = true → isFinite (v.select (keep.under name)) = true) ∧
        fieldsFinite (selectFields keep fs) = true := by
  by_cases kept : keep [name] = true
  · rw [selectFields_of_kept kept, fieldsFinite, Bool.and_eq_true, forall_prop_of_true kept]
  · rw [selectFields_of_left kept, forall_prop_of_false kept, true_and]

@[simp] theorem fieldsFinite_selectFields_nil : fieldsFinite (selectFields keep []) = true := rfl

@[simp] theorem isFinite_select_record :
    ((Value.record fs).select keep).isFinite = fieldsFinite (selectFields keep fs) := rfl

@[simp] theorem isFinite_select_real (x : Float) :
    ((Value.real x).select keep).isFinite = x.isFinite := rfl

@[simp] theorem isFinite_select_bool (b : Bool) :
    ((Value.bool b).select keep).isFinite = true := rfl

@[simp] theorem isFinite_select_text (t : String) :
    ((Value.text t).select keep).isFinite = true := rfl

@[simp] theorem isFinite_select_ofNat (n : ℕ) : ((ofNat n).select keep).isFinite = true := rfl

@[simp] theorem isFinite_select_null : (Value.null.select keep).isFinite = true := rfl

@[simp] theorem isFinite_select_listReal {xs : List Float} :
    ((Value.list true (xs.map .real)).select keep).isFinite = true ↔
      ∀ x ∈ xs, x.isFinite = true := by
  show isFinite (.list true (xs.map .real)) = true ↔ _
  rw [isFinite]
  induction xs with
  | nil => exact iff_of_true rfl nofun
  | cons x xs ih =>
    rw [List.map_cons, allFinite, Bool.and_eq_true, ih, List.forall_mem_cons, isFinite]

end Select

/-! ## Parts -/

theorem map_fst_spelledFields (fs : List (String × Value)) :
    (spelledFields fs).map Prod.fst = fs.map Prod.fst := by
  induction fs with
  | nil => rfl
  | cons f fs ih => rw [spelledFields, List.map_cons, List.map_cons, ih]

theorem part_record (keep : Selection) (fs : List (String × Value)) :
    part keep (.record fs) = .record (partFields keep fs).found := by
  rw [part, select, spelled]
  rfl

theorem map_fst_found (keep : Selection) (fs : List (String × Value)) :
    (partFields keep fs).found.map Prod.fst =
      (fs.map Prod.fst).filter fun name => keep [name] := by
  rw [partFields, map_fst_spelledFields, map_fst_selectFields]

/-- A part has no fields of its own. -/
theorem fst_mem_of_mem_found {keep : Selection} {fs : List (String × Value)} {f : String × Value}
    (hf : f ∈ (partFields keep fs).found) : f.1 ∈ fs.map Prod.fst := by
  have mem : f.1 ∈ (partFields keep fs).found.map Prod.fst := List.mem_map_of_mem hf
  rw [map_fst_found] at mem
  exact List.mem_of_mem_filter mem

/-- Every field of a part is known to a reader of the whole, and none is repeated. -/
theorem fields?_part {names : List String} {fs : List (String × Value)}
    (named : fs.map Prod.fst = names) (distinct : names.Nodup) (keep : Selection) :
    (part keep (.record fs)).fields? names = some (partFields keep fs) := by
  have known : (partFields keep fs).found.filter (fun f => names.contains f.1) =
      (partFields keep fs).found := by
    rw [List.filter_eq_self]
    intro f hf
    exact List.contains_iff_mem.mpr (named ▸ fst_mem_of_mem_found hf)
  have once : ((partFields keep fs).found.map Prod.fst).Nodup := by
    rw [map_fst_found, named]
    exact distinct.filter _
  rw [part_record, fields?]
  simp only [known, if_pos once]
  rfl

/-- A field of a part is found exactly if it is kept. -/
theorem get?_partFields (keep : Selection) (fs : List (String × Value)) (name : String) :
    (partFields keep fs).get? name =
      if keep [name] then (fs.lookup name).map (part (keep.under name)) else none := by
  unfold partFields Fields.get?
  induction fs with
  | nil => rw [selectFields, spelledFields, List.lookup_nil, Option.map_none, ite_self]
  | cons f fs ih =>
    obtain ⟨other, v⟩ := f
    by_cases same : name = other
    · subst same
      by_cases kept : keep [name] = true
      · rw [selectFields_of_kept kept, spelledFields, List.lookup_cons_self, List.lookup_cons_self,
          if_pos kept]
        rfl
      · -- no later field of that name is kept either
        rw [selectFields_of_left kept]
        rw [if_neg kept] at ih ⊢
        exact ih
    · have differs : (name == other) = false := beq_eq_false_iff_ne.mpr same
      by_cases kept : keep [other] = true
      · rw [selectFields_of_kept kept, spelledFields, List.lookup_cons, List.lookup_cons, differs]
        exact ih
      · rw [selectFields_of_left kept, List.lookup_cons, differs]
        exact ih

/-- The tag of a part is found exactly if it is kept, and with it the other fields that are kept. -/
theorem tagged?_part {tag name : String} {fs : List (String × Value)}
    (fresh : ∀ f ∈ fs, f.1 ≠ tag) (keep : Selection) :
    tagged? tag (part keep (ofTagged tag name fs)) =
      if keep [tag] then some (name, part keep (.record fs)) else none := by
  have others : ∀ f ∈ (partFields keep fs).found, f.1 ≠ tag := by
    intro f hf
    obtain ⟨g, hg, same⟩ := List.mem_map.mp (fst_mem_of_mem_found hf)
    exact same ▸ fresh g hg
  have noTag : (partFields keep fs).found.filter (fun f => f.1 = tag) = [] :=
    List.filter_eq_nil_iff.mpr fun f hf => by simpa using others f hf
  have allOthers : (partFields keep fs).found.filter (fun f => f.1 ≠ tag) =
      (partFields keep fs).found :=
    List.filter_eq_self.mpr fun f hf => by simpa using others f hf
  have readable : isReadable (part keep (ofTagged tag name fs)) = true := isReadable_spelled _
  unfold tagged?
  rw [if_pos readable, ofTagged, part_record, part_record]
  by_cases kept : keep [tag] = true
  · have found : (partFields keep ((tag, .text name) :: fs)).found =
        (tag, .text name) :: (partFields keep fs).found := by
      rw [partFields, selectFields_of_kept kept]
      rfl
    dsimp only
    rw [if_pos kept, found, List.filter_cons_of_pos (by simp), List.filter_cons_of_neg (by simp),
      noTag, allOthers]
  · have found : (partFields keep ((tag, .text name) :: fs)).found =
        (partFields keep fs).found := by
      rw [partFields, selectFields_of_left kept]
      rfl
    dsimp only
    rw [if_neg kept, found, noTag]

mutual

/-- A part of what can be read from a text can be read from one. -/
theorem fits_select (v : Value) {depth : ℕ} (keep : Selection) (fit : fits depth v = true) :
    fits depth (v.select keep) = true := by
  cases v with
  | record fields =>
    obtain ⟨deep, inner⟩ := Bool.and_eq_true_iff.mp fit
    rw [select, fits, deep, fieldsFit_selectFields fields keep inner]
    rfl
  | null | bool b | int n | real x | text t | list whole items | unreadable => exact fit

theorem fieldsFit_selectFields (fields : List (String × Value)) {depth : ℕ} (keep : Selection)
    (fit : fieldsFit depth fields = true) : fieldsFit depth (selectFields keep fields) = true := by
  cases fields with
  | nil => rfl
  | cons f fs =>
    obtain ⟨name, v⟩ := f
    obtain ⟨first, others⟩ := Bool.and_eq_true_iff.mp fit
    by_cases kept : keep [name] = true
    · rw [selectFields_of_kept kept, fieldsFit, fits_select v (keep.under name) first,
        fieldsFit_selectFields fs keep others]
      rfl
    · rw [selectFields_of_left kept]
      exact fieldsFit_selectFields fs keep others

end

/-! ## What a reader takes a part for -/

/-- The result is there exactly under the condition `p`, and then it is `a`. -/
def Takes (r : Option α) (p : Prop) (a : α) : Prop := ∀ x, r = some x ↔ p ∧ x = a

namespace Takes

variable {r : Option α} {p q : Prop} {a : α} {b : β}

theorem congr (h : Takes r p a) (same : p ↔ q) : Takes r q a := by
  intro x
  rw [h x, same]

theorem bind {f : α → Option β} (h : Takes r p a) (next : Takes (f a) q b) :
    Takes (r.bind f) (p ∧ q) b := by
  intro x
  rw [Option.bind_eq_some_iff, and_assoc, ← next x]
  constructor
  · rintro ⟨a', taken, rest⟩
    obtain ⟨holds, rfl⟩ := (h a').mp taken
    exact ⟨holds, rest⟩
  · rintro ⟨holds, rest⟩
    exact ⟨a, (h a).mpr ⟨holds, rfl⟩, rest⟩

theorem eq_none (h : Takes r p a) (fails : ¬p) : r = none :=
  Option.eq_none_iff_forall_ne_some.mpr fun x taken => fails ((h x).mp taken).1

end Takes

theorem takes_some (a : α) : Takes (some a) True a := by
  intro x
  rw [Option.some.injEq, true_and, eq_comm]

theorem takes_none (a : α) : Takes none False a :=
  fun _ => iff_of_false nofun fun h => h.1

section Parts

variable {keep : Selection}

theorem part_real (x : Float) :
    part keep (.real x) = if x.isFinite then .real x else .null := rfl

theorem takes_real (x : Float) : Takes (float? (part keep (.real x))) (x.isFinite = true) x := by
  rw [part_real]
  split
  case isTrue finite => exact (takes_some x).congr (iff_of_true trivial finite)
  case isFalse special => exact (takes_none x).congr (iff_of_false id special)

theorem takes_bool (b : Bool) : Takes (bool? (part keep (.bool b))) True b := takes_some b

theorem takes_nat {width n : ℕ} (small : n < 2 ^ width) :
    Takes (nat? width (part keep (ofNat n))) True n := by
  have read : nat? width (part keep (ofNat n)) = some n := nat?_ofNat small
  rw [read]
  exact takes_some n

/-- A double that may be left out is told as none where it is not finite. -/
theorem takes_optionReal (x : Option Float) :
    Takes (nullable float? (part keep (ofOption .real x))) True (x.filter Float.isFinite) := by
  cases x with
  | none => exact takes_some none
  | some x =>
    rw [ofOption, part_real]
    split
    case isTrue finite =>
      rw [Option.filter_some_pos finite]
      exact takes_some (some x)
    case isFalse special =>
      rw [Option.filter_some_neg (eq_false_of_ne_true special)]
      exact takes_some none

theorem takes_listReal (xs : List Float) :
    Takes (list? float? (part keep (.list true (xs.map .real)))) (∀ x ∈ xs, x.isFinite = true)
      xs := by
  show Takes ((spelledItems (xs.map .real)).mapM float?) _ _
  induction xs with
  | nil => exact (takes_some []).congr (iff_of_true trivial nofun)
  | cons x xs ih =>
    rw [List.map_cons, spelledItems, List.mapM_cons]
    have first : Takes (float? (part keep (.real x))) (x.isFinite = true) x := takes_real x
    refine Takes.congr (first.bind (ih.bind (takes_some (x :: xs)))) ?_
    rw [and_true, List.forall_mem_cons]

variable {read : Value → Option α} {name : String} {fs : List (String × Value)} {v : Value}
  {p q : Prop} {a : α}

theorem takes_orElse (found : fs.lookup name = some v)
    (own : Takes (read (part (keep.under name) v)) p a) (absent : α) :
    Takes ((partFields keep fs).orElse name read absent) (keep [name] = true → p)
      (if keep [name] then a else absent) := by
  unfold Fields.orElse
  rw [get?_partFields, found]
  by_cases kept : keep [name] = true
  · rw [if_pos kept, if_pos kept]
    exact own.congr (forall_prop_of_true (q := fun _ => p) kept).symm
  · rw [if_neg kept, if_neg kept]
    exact (takes_some absent).congr (forall_prop_of_false kept).symm

theorem takes_required (found : fs.lookup name = some v)
    (own : Takes (read (part (keep.under name) v)) p a) :
    Takes ((partFields keep fs).required name read) (keep [name] = true ∧ p) a := by
  unfold Fields.required
  rw [get?_partFields, found]
  by_cases kept : keep [name] = true
  · rw [if_pos kept]
    exact own.congr (and_iff_right kept).symm
  · rw [if_neg kept]
    exact (takes_none a).congr (iff_of_false id fun h => kept h.1)

/-- A record is taken for what its fields build, under what they ask for. -/
theorem takes_record {names : List String} {build : Fields → Option α}
    (named : fs.map Prod.fst = names) (distinct : names.Nodup)
    (built : Takes (build (partFields keep fs)) p a) (same : p ↔ q) :
    Takes (((part keep (.record fs)).fields? names).bind build) q a := by
  rw [fields?_part named distinct, Option.bind_some]
  exact built.congr same

/-- A tagged record is taken for what follows from its tag, which has to be there. -/
theorem takes_tagged {tag : String} {next : String × Value → Option α}
    (fresh : ∀ f ∈ fs, f.1 ≠ tag) (told : Takes (next (name, part keep (.record fs))) p a)
    (same : keep [tag] = true ∧ p ↔ q) :
    Takes ((tagged? tag (part keep (ofTagged tag name fs))).bind next) q a := by
  rw [tagged?_part fresh]
  refine Takes.congr ?_ same
  by_cases kept : keep [tag] = true
  · rw [if_pos kept, Option.bind_some]
    exact told.congr (and_iff_right kept).symm
  · rw [if_neg kept, Option.bind_none]
    exact (takes_none a).congr (iff_of_false id fun h => kept h.1)

end Parts

end Value

end TrendLadder
