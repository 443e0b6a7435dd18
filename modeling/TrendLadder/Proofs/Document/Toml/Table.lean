import Mathlib.Data.List.Nodup
import TrendLadder.Document.Toml.Writer
import TrendLadder.Document.Toml.Reader

/-!
# Records as sections

A record is written as a section of its own fields and one for each table inside it. The sections
are put together to the record again (`build_sections`): its tables stand behind the other fields,
and nulls are gone.
-/

namespace TrendLadder

namespace Toml

/-! ## What is kept of a record -/

/-- The characters that stand for themselves inside a text. -/
def isPlainChar (c : Char) : Bool := isPrintable c && Json.writeChar c = [c]

/-- The value of a field as it is read: the items of a list may be fewer than what reads it asks
for. -/
def keptLeaf : Value → Value
  | .list _ items => .list false items
  | v => v

/-- Whether a value has a section instead of a line. -/
def isTable : Value → Bool
  | .record _ => true
  | _ => false

/-- Whether a value has a line. -/
def isLeaf : Value → Bool
  | .record _ | .null => false
  | _ => true

/-- The fields that stand on lines of their own. -/
def leaves (fields : List (String × Value)) : List (String × Value) :=
  (fields.filter fun f => isLeaf f.2).map fun f => (f.1, keptLeaf f.2)

mutual

/-- A value as it is read: tables behind the other fields and no nulls. -/
def kept : Value → Value
  | .record fields => .record (leaves fields ++ keptTables fields)
  | v => keptLeaf v

/-- The tables among the fields of a record. -/
def keptTables : List (String × Value) → List (String × Value)
  | [] => []
  | (name, v) :: rest => if isTable v then (name, kept v) :: keptTables rest else keptTables rest

end

/-- Whether a value can be written as an item, and without escapes. -/
def isItem : Value → Bool
  | .bool _ | .real _ => true
  | .int n => inRange n
  | .text s => s.toList.all isPlainChar
  | _ => false

/-- Whether a value can be written on a line. -/
def isLine : Value → Bool
  | .list _ items => items.all isItem
  | v => isItem v

mutual

/-- Whether a value can be written: its tables are not too deep, the names of their fields are bare
and different, and a table that is not empty has something to keep. -/
def isTidy (depth : ℕ) : Value → Bool
  | .record fields =>
    depth < maxParts && (fields.map Prod.fst).Nodup && fields.all (isBareKey ·.1) &&
      (fields = [] || fields.any fun f => isLeaf f.2 || isTable f.2) &&
      fieldsTidy (depth + 1) fields
  | .null => true
  | v => isLine v

def fieldsTidy (depth : ℕ) : List (String × Value) → Bool
  | [] => true
  | (_, v) :: rest => isTidy depth v && fieldsTidy depth rest

end

theorem isTidy_record {depth : ℕ} {fields : List (String × Value)} :
    isTidy depth (.record fields) = true ↔ depth < maxParts ∧ (fields.map Prod.fst).Nodup ∧
      (∀ f ∈ fields, isBareKey f.1 = true) ∧
      (fields = [] ∨ ∃ f ∈ fields, isLeaf f.2 = true ∨ isTable f.2 = true) ∧
      fieldsTidy (depth + 1) fields = true := by
  simp [isTidy, and_assoc]

/-! ## Sections of a record -/

/-- The lines of a section as assignments. -/
def assignments (fields : List (String × Value)) : List Assignment :=
  fields.map fun f => ⟨[], f.1, f.2⟩

/-- A section with the header of a table. -/
structure TableSection where
  path : List String
  name : String
  body : List Assignment

namespace TableSection

/-- The section in a document. -/
def toSection (s : TableSection) : Section := ⟨.table s.path s.name, s.body⟩

/-- The section inside another table. -/
def under (name : String) (s : TableSection) : TableSection := { s with path := name :: s.path }

end TableSection

/-- Whether a table has no section of its own. -/
def isImplied (fields : List (String × Value)) : Bool := leaves fields = [] && fields ≠ []

mutual

/-- The sections of a table and of the tables inside it. -/
def tableSections (path : List String) (name : String) : Value → List TableSection
  | .record fields =>
    (if isImplied fields then [] else [⟨path, name, assignments (leaves fields)⟩]) ++
      fieldSections (path ++ [name]) fields
  | _ => []

/-- The sections of the tables among the fields of a record. -/
def fieldSections (path : List String) : List (String × Value) → List TableSection
  | [] => []
  | (name, v) :: rest => tableSections path name v ++ fieldSections path rest

end

/-! ## Trees -/

/-- Fields on lines in the tree of a document. -/
def leafNodes (fields : List (String × Value)) : List (String × Node) :=
  fields.map fun (name, v) => (name, .leaf v)

mutual

/-- A value in the tree of a document. -/
def node : Value → Node
  | .record fields =>
    .table (if isImplied fields then .implied else .header)
      (leafNodes (leaves fields) ++ tableNodes fields)
  | v => .leaf (keptLeaf v)

/-- The tables among the fields of a record in the tree of a document. -/
def tableNodes : List (String × Value) → List (String × Node)
  | [] => []
  | (name, v) :: rest => if isTable v then (name, node v) :: tableNodes rest else tableNodes rest

end

theorem fieldsToValue_append (a b : List (String × Node)) :
    fieldsToValue (a ++ b) = fieldsToValue a ++ fieldsToValue b := by
  induction a with
  | nil => rfl
  | cons f a ih => rw [List.cons_append, fieldsToValue, fieldsToValue, ih, List.cons_append]

theorem fieldsToValue_leafNodes (fields : List (String × Value)) :
    fieldsToValue (leafNodes fields) = fields := by
  induction fields with
  | nil => rfl
  | cons f fields ih =>
    show (f.1, f.2) :: fieldsToValue (leafNodes fields) = f :: fields
    rw [ih]

mutual

theorem toValue_node (v : Value) : (node v).toValue = kept v := by
  cases v with
  | record fields =>
    rw [node, kept, Node.toValue, fieldsToValue_append, fieldsToValue_leafNodes,
      fieldsToValue_tableNodes fields]
  | _ => rfl

theorem fieldsToValue_tableNodes (fields : List (String × Value)) :
    fieldsToValue (tableNodes fields) = keptTables fields := by
  cases fields with
  | nil => rfl
  | cons f rest =>
    obtain ⟨name, v⟩ := f
    rw [tableNodes, keptTables]
    split
    case isTrue => rw [fieldsToValue, toValue_node v, fieldsToValue_tableNodes rest]
    case isFalse => exact fieldsToValue_tableNodes rest

end

/-! ## Putting sections together -/

section

variable {name : String} {fields : List (String × Node)}

theorem lookup_append_of_fresh (fresh : fields.lookup name = none) (n : Node) :
    (fields ++ [(name, n)]).lookup name = some n := by
  rw [List.lookup_append, fresh]
  simp

/-- A new field is added at the end, and the field at the end is replaced there. -/
theorem setField_of_fresh (fresh : fields.lookup name = none) (n : Node) :
    setField name n fields = fields ++ [(name, n)] ∧
      ∀ m, setField name n (fields ++ [(name, m)]) = fields ++ [(name, n)] := by
  induction fields with
  | nil => exact ⟨rfl, fun m => if_pos rfl⟩
  | cons f fields ih =>
    obtain ⟨other, m⟩ := f
    rw [List.lookup_cons] at fresh
    split at fresh
    case h_1 => cases fresh
    case h_2 different =>
      have ne : other ≠ name := fun h => by simp [h] at different
      obtain ⟨added, replaced⟩ := ih fresh
      refine ⟨?_, fun m => ?_⟩
      · rw [setField, if_neg ne, added, List.cons_append]
      · rw [List.cons_append, setField, if_neg ne, replaced, List.cons_append]

/-- An edit of a table at the end of a path does not depend on where the table is from. -/
theorem editAt_origin (edit : List (String × Node) → Option (List (String × Node)))
    (path : List String) (o o' : Origin) :
    editAt false (fun _ => edit) path o fields = editAt false (fun _ => edit) path o' fields := by
  cases path <;> rfl

/-- A section inside a table leaves the other fields as they are. -/
theorem addTo_under_table (fresh : fields.lookup name = none) (s : TableSection) (o : Origin)
    (sub : List (String × Node)) :
    (s.under name).toSection.addTo (fields ++ [(name, .table o sub)]) =
      (s.toSection.addTo sub).map fun sub => fields ++ [(name, .table o sub)] := by
  unfold Section.addTo TableSection.toSection TableSection.under
  dsimp only
  rw [editAt, lookup_append_of_fresh fresh]
  simp only [Bool.false_eq_true, false_and, if_false]
  rw [editAt_origin _ s.path o .header]
  generalize editAt false _ s.path .header sub = edited
  cases edited with
  | none => rfl
  | some sub => exact congrArg some ((setField_of_fresh fresh _).2 _)

/-- A section inside a table that is not there makes the table on the way. -/
theorem addTo_under_fresh (fresh : fields.lookup name = none) (s : TableSection) :
    (s.under name).toSection.addTo fields =
      (s.toSection.addTo []).map fun sub => fields ++ [(name, .table .implied sub)] := by
  unfold Section.addTo TableSection.toSection TableSection.under
  dsimp only
  rw [editAt, fresh]
  simp only [Bool.false_eq_true, if_false]
  rw [editAt_origin _ s.path .implied .header]
  generalize editAt false _ s.path .header [] = edited
  cases edited with
  | none => rfl
  | some sub => exact congrArg some (setField_of_fresh fresh _).1

/-- Adds sections to a tree, one after the other. -/
def addTables (fields : List (String × Node)) (sections : List TableSection) :
    Option (List (String × Node)) :=
  sections.foldlM (fun fields s => s.toSection.addTo fields) fields

theorem addTables_append (a b : List TableSection) :
    addTables fields (a ++ b) = (addTables fields a).bind (addTables · b) :=
  List.foldlM_append

theorem addTables_under_table (fresh : fields.lookup name = none) (sections : List TableSection)
    (o : Origin) (sub : List (String × Node)) :
    addTables (fields ++ [(name, .table o sub)]) (sections.map (.under name)) =
      (addTables sub sections).map fun sub => fields ++ [(name, .table o sub)] := by
  induction sections generalizing sub with
  | nil => rfl
  | cons s sections ih =>
    rw [List.map_cons, addTables, List.foldlM_cons, addTo_under_table fresh, addTables,
      List.foldlM_cons]
    cases s.toSection.addTo sub with
    | none => rfl
    | some sub => exact ih sub

/-- The first of some sections inside a table that is not there makes the table. -/
theorem addTables_under_fresh (fresh : fields.lookup name = none) {sections : List TableSection}
    (some : sections ≠ []) :
    addTables fields (sections.map (.under name)) =
      (addTables [] sections).map fun sub => fields ++ [(name, .table .implied sub)] := by
  obtain ⟨s, sections, rfl⟩ := List.exists_cons_of_ne_nil some
  rw [List.map_cons, addTables, List.foldlM_cons, addTo_under_fresh fresh, addTables,
    List.foldlM_cons]
  cases s.toSection.addTo [] with
  | none => rfl
  | some sub => exact addTables_under_table fresh sections .implied sub

theorem addTo_header (fresh : fields.lookup name = none) (body : List Assignment) :
    (TableSection.mk [] name body).toSection.addTo fields =
      (Assignment.addAll [] body).map fun sub => fields ++ [(name, .table .header sub)] := by
  unfold Section.addTo TableSection.toSection
  dsimp only
  rw [editAt, fresh]
  simp only [Option.bind_eq_bind, Option.bind_some]
  cases Assignment.addAll [] body with
  | none => rfl
  | some sub => exact congrArg some (setField_of_fresh fresh _).1

theorem addTo_leaf (fresh : fields.lookup name = none) (v : Value) :
    (Assignment.mk [] name v).addTo fields = some (fields ++ [(name, .leaf v)]) := by
  rw [Assignment.addTo, editAt, if_neg (by simp), fresh]
  rfl

theorem lookup_append_single {other : String} (n : Node) (ne : other ≠ name)
    (fresh : fields.lookup other = none) : (fields ++ [(name, n)]).lookup other = none := by
  have different : (other == name) = false := beq_false_of_ne ne
  rw [List.lookup_append, fresh, List.lookup_cons, different]
  rfl

/-- Assignments of new names are added at the end. -/
theorem addAll_assignments {leaves : List (String × Value)} (nodup : (leaves.map Prod.fst).Nodup)
    (fresh : ∀ f ∈ leaves, fields.lookup f.1 = none) :
    Assignment.addAll fields (assignments leaves) = some (fields ++ leafNodes leaves) := by
  induction leaves generalizing fields with
  | nil => exact congrArg some (List.append_nil fields).symm
  | cons f leaves ih =>
    obtain ⟨name, v⟩ := f
    obtain ⟨hname, nodup⟩ := List.nodup_cons.mp nodup
    have hfirst := fresh (name, v) List.mem_cons_self
    have hrest : ∀ f ∈ leaves, (fields ++ [(name, Node.leaf v)]).lookup f.1 = none :=
      fun f hf => by
        have mem : f.1 ∈ leaves.map Prod.fst := List.mem_map_of_mem hf
        have ne : f.1 ≠ name := fun h => hname (h ▸ mem)
        exact lookup_append_single (.leaf v) ne (fresh f (List.mem_cons_of_mem _ hf))
    show Assignment.addAll fields (⟨[], name, v⟩ :: assignments leaves) = _
    rw [Assignment.addAll, List.foldlM_cons, addTo_leaf hfirst]
    show Assignment.addAll (fields ++ [(name, .leaf v)]) (assignments leaves) = _
    rw [ih nodup hrest, List.append_assoc]
    rfl

end

/-! ## Sections of a table -/

mutual

theorem tableSections_under (outer : String) (path : List String) (name : String) (v : Value) :
    tableSections (outer :: path) name v = (tableSections path name v).map (.under outer) := by
  cases v with
  | record fields =>
    rw [tableSections, tableSections, List.map_append, List.cons_append,
      fieldSections_under outer (path ++ [name]) fields]
    split <;> rfl
  | _ => rfl

theorem fieldSections_under (outer : String) (path : List String)
    (fields : List (String × Value)) :
    fieldSections (outer :: path) fields = (fieldSections path fields).map (.under outer) := by
  cases fields with
  | nil => rfl
  | cons f rest =>
    obtain ⟨name, v⟩ := f
    rw [fieldSections, fieldSections, List.map_append, tableSections_under outer path name v,
      fieldSections_under outer path rest]

end

theorem names_leaves (fields : List (String × Value)) :
    (leaves fields).map Prod.fst = (fields.filter fun f => isLeaf f.2).map Prod.fst := by
  rw [leaves, List.map_map]
  rfl

theorem nodup_leaves {fields : List (String × Value)} (nodup : (fields.map Prod.fst).Nodup) :
    ((leaves fields).map Prod.fst).Nodup := by
  rw [names_leaves]
  exact nodup.sublist (List.filter_sublist.map _)

/-- A table has another name than the fields on lines. -/
theorem lookup_leafNodes {fields : List (String × Value)} (nodup : (fields.map Prod.fst).Nodup)
    {f : String × Value} (mem : f ∈ fields) (table : isTable f.2 = true) :
    (leafNodes (leaves fields)).lookup f.1 = none := by
  rw [List.lookup_eq_none_iff]
  intro p hp
  obtain ⟨g, hg, rfl⟩ := List.mem_map.mp hp
  obtain ⟨h, hh, rfl⟩ := List.mem_map.mp hg
  obtain ⟨hmem, leaf⟩ := List.mem_filter.mp hh
  rw [bne_iff_ne]
  intro same
  obtain rfl := List.inj_on_of_nodup_map nodup mem hmem same
  generalize f.2 = v at table leaf
  cases v with
  | record sub => cases leaf
  | _ => cases table

theorem leaves_eq_nil {fields : List (String × Value)} :
    leaves fields = [] ↔ ∀ f ∈ fields, isLeaf f.2 = false := by
  simp [leaves, List.filter_eq_nil_iff]

theorem isImplied_iff {fields : List (String × Value)} :
    isImplied fields = true ↔ leaves fields = [] ∧ fields ≠ [] := by
  simp [isImplied]

mutual

/-- A table that has something to keep has a section. -/
theorem tableSections_ne_nil {depth : ℕ} (path : List String) (name : String) (v : Value)
    (tidy : isTidy depth v = true) (table : isTable v = true) : tableSections path name v ≠ [] := by
  cases v with
  | record fields =>
    obtain ⟨_, _, _, some, tidy⟩ := isTidy_record.mp tidy
    rw [tableSections]
    split
    case isTrue implied =>
      obtain ⟨noLeaves, ne⟩ := isImplied_iff.mp implied
      rw [List.nil_append]
      refine fieldSections_ne_nil (path ++ [name]) fields tidy ?_
      obtain ⟨f, hf, leaf | table⟩ := some.resolve_left ne
      · rw [leaves_eq_nil.mp noLeaves f hf] at leaf
        cases leaf
      · exact ⟨f, hf, table⟩
    case isFalse => exact List.cons_ne_nil _ _
  | _ => cases table

theorem fieldSections_ne_nil {depth : ℕ} (path : List String) (fields : List (String × Value))
    (tidy : fieldsTidy depth fields = true) (table : ∃ f ∈ fields, isTable f.2 = true) :
    fieldSections path fields ≠ [] := by
  cases fields with
  | nil =>
    obtain ⟨f, hf, _⟩ := table
    cases hf
  | cons f rest =>
    obtain ⟨name, v⟩ := f
    obtain ⟨hv, hrest⟩ := Bool.and_eq_true_iff.mp tidy
    rw [fieldSections]
    by_cases first : isTable v = true
    · exact List.append_ne_nil_of_left_ne_nil (tableSections_ne_nil path name v hv first) _
    · obtain ⟨f, hf, table⟩ := table
      rcases List.mem_cons.mp hf with rfl | hf
      · exact absurd table first
      · exact List.append_ne_nil_of_right_ne_nil _
          (fieldSections_ne_nil path rest hrest ⟨f, hf, table⟩)

end

mutual

/-- The sections of a table make the table. -/
theorem addTables_tableSections {depth : ℕ} {name : String} {fields : List (String × Node)}
    (v : Value) (tidy : isTidy depth v = true) (table : isTable v = true)
    (fresh : fields.lookup name = none) :
    addTables fields (tableSections [] name v) = some (fields ++ [(name, node v)]) := by
  cases v with
  | record sub =>
    obtain ⟨_, nodup, _, some, tidy'⟩ := isTidy_record.mp tidy
    have inner {nodes : List (String × Node)}
        (fresh : ∀ f ∈ sub, isTable f.2 = true → nodes.lookup f.1 = none) :=
      addTables_fieldSections sub tidy' nodup fresh
    rw [tableSections, List.nil_append, fieldSections_under, node]
    split
    case isTrue implied =>
      obtain ⟨noLeaves, ne⟩ := isImplied_iff.mp implied
      have nested : fieldSections [] sub ≠ [] := by
        refine fieldSections_ne_nil [] sub tidy' ?_
        obtain ⟨f, hf, leaf | table⟩ := some.resolve_left ne
        · rw [leaves_eq_nil.mp noLeaves f hf] at leaf
          cases leaf
        · exact ⟨f, hf, table⟩
      rw [List.nil_append, addTables_under_fresh fresh nested, inner fun _ _ _ => rfl, noLeaves]
      rfl
    case isFalse =>
      have body : Assignment.addAll [] (assignments (leaves sub)) =
          .some (leafNodes (leaves sub)) :=
        addAll_assignments (nodup_leaves nodup) fun _ _ => rfl
      have own : addTables fields [⟨[], name, assignments (leaves sub)⟩] =
          .some (fields ++ [(name, .table .header (leafNodes (leaves sub)))]) := by
        rw [addTables, List.foldlM_cons, addTo_header fresh, body]
        rfl
      rw [addTables_append, own, Option.bind_some, addTables_under_table fresh,
        inner fun f hf table => lookup_leafNodes nodup hf table]
      rfl
  | _ => cases table

theorem addTables_fieldSections {depth : ℕ} {fields : List (String × Node)}
    (sub : List (String × Value)) (tidy : fieldsTidy depth sub = true)
    (nodup : (sub.map Prod.fst).Nodup)
    (fresh : ∀ f ∈ sub, isTable f.2 = true → fields.lookup f.1 = none) :
    addTables fields (fieldSections [] sub) = some (fields ++ tableNodes sub) := by
  cases sub with
  | nil => exact congrArg some (List.append_nil fields).symm
  | cons f rest =>
    obtain ⟨name, v⟩ := f
    obtain ⟨hv, hrest⟩ := Bool.and_eq_true_iff.mp tidy
    obtain ⟨hname, nodup⟩ := List.nodup_cons.mp nodup
    rw [fieldSections, addTables_append, tableNodes]
    split
    case isTrue table =>
      have others : ∀ f ∈ rest, isTable f.2 = true →
          (fields ++ [(name, node v)]).lookup f.1 = none := fun f hf table => by
        have mem : f.1 ∈ rest.map Prod.fst := List.mem_map_of_mem hf
        have ne : f.1 ≠ name := fun h => hname (h ▸ mem)
        exact lookup_append_single _ ne (fresh f (List.mem_cons_of_mem _ hf) table)
      rw [addTables_tableSections v hv table (fresh _ List.mem_cons_self table), Option.bind_some,
        addTables_fieldSections rest hrest nodup others, List.append_assoc]
      rfl
    case isFalse leaf =>
      have none : tableSections [] name v = [] := by
        cases v with
        | record sub => exact absurd rfl leaf
        | _ => rfl
      rw [none]
      exact addTables_fieldSections rest hrest nodup fun f hf => fresh f (List.mem_cons_of_mem _ hf)

end

/-- **The sections of a record are put together to the record.** -/
theorem build_sections {fields : List (String × Value)} (tidy : isTidy 0 (.record fields) = true) :
    Section.build (⟨.root, assignments (leaves fields)⟩ ::
      (fieldSections [] fields).map TableSection.toSection) = some (kept (.record fields)) := by
  obtain ⟨_, nodup, _, _, tidy⟩ := isTidy_record.mp tidy
  have root : Section.addTo ⟨.root, assignments (leaves fields)⟩ [] =
      some (leafNodes (leaves fields)) :=
    addAll_assignments (nodup_leaves nodup) fun _ _ => rfl
  have tables := addTables_fieldSections fields tidy nodup fun f hf table =>
    lookup_leafNodes nodup hf table
  rw [Section.build, List.foldlM_cons, root]
  show Option.map _ (List.foldlM _ _ _) = _
  rw [List.foldlM_map]
  show Option.map _ (addTables (leafNodes (leaves fields)) (fieldSections [] fields)) = _
  rw [tables, Option.map_some, fieldsToValue_append, fieldsToValue_leafNodes,
    fieldsToValue_tableNodes, kept]

end Toml

end TrendLadder
