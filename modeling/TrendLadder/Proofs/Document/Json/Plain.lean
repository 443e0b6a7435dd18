import TrendLadder.Proofs.Document.Json.Tree
import TrendLadder.Proofs.Document.Value

/-!
# Values that are read back

A value is plain if its text spells the value itself: doubles are finite, sequences whole, integers
of the format and containers not too deep (`IsPlain`). A plain value that a reader takes for `a`
conveys `a` (`Conveys`), and the text that is written for it is read back as `a`
(`Conveys.readsBack`). The lemmas here convey scalars, options, lists, records and tagged records,
so that a type is conveyed by an argument that follows its document form.
-/

namespace TrendLadder

open Value

variable {α : Type} {depth : ℕ}

namespace Json

mutual

/-- What a text spells names something in every part. -/
theorem isReadable_spelled (v : Value) : isReadable (spelled v) = true := by
  cases v with
  | null | bool b | int n | text s | unreadable => rfl
  | real x =>
    rw [spelled]
    split <;> rfl
  | list whole items => exact allReadable_spelledItems items
  | record fields => exact fieldsReadable_spelledFields fields

theorem allReadable_spelledItems (items : List Value) :
    allReadable (spelledItems items) = true := by
  cases items with
  | nil => rfl
  | cons v vs =>
    rw [spelledItems, allReadable, isReadable_spelled v, allReadable_spelledItems vs]
    rfl

theorem fieldsReadable_spelledFields (fields : List (String × Value)) :
    fieldsReadable (spelledFields fields) = true := by
  cases fields with
  | nil => rfl
  | cons f fs =>
    obtain ⟨name, v⟩ := f
    rw [spelledFields, fieldsReadable, isReadable_spelled v, fieldsReadable_spelledFields fs]
    rfl

end

end Json

open Json

namespace Value

/-! ## Plain values -/

/-- The text of a value spells the value itself, and it has at most `depth` containers within one
another. -/
structure IsPlain (depth : ℕ) (v : Value) : Prop where
  fits : fits depth v = true
  exact : spelled v = v

theorem IsPlain.isReadable {v : Value} (h : IsPlain depth v) : isReadable v = true :=
  h.exact ▸ isReadable_spelled v

theorem isPlain_null : IsPlain depth .null := ⟨rfl, rfl⟩

@[simp] theorem isPlain_bool (b : Bool) : IsPlain depth (.bool b) := ⟨rfl, rfl⟩

@[simp] theorem isPlain_text (s : String) : IsPlain depth (.text s) := ⟨rfl, rfl⟩

theorem isPlain_real {x : Float} (finite : x.isFinite = true) : IsPlain depth (.real x) :=
  ⟨rfl, by rw [spelled, if_pos finite]⟩

theorem isPlain_ofNat {n : ℕ} (small : n < 2 ^ 64) : IsPlain depth (ofNat n) := by
  refine ⟨?_, rfl⟩
  rw [ofNat, Json.fits, Bool.and_eq_true, decide_eq_true_eq, decide_eq_true_eq]
  omega

theorem isPlain_items {vs : List Value} (plain : ∀ v ∈ vs, IsPlain depth v) :
    itemsFit depth vs = true ∧ spelledItems vs = vs := by
  induction vs with
  | nil => exact ⟨rfl, rfl⟩
  | cons v vs ih =>
    obtain ⟨first, others⟩ := List.forall_mem_cons.mp plain
    obtain ⟨fit, exact⟩ := ih others
    rw [itemsFit, spelledItems, first.fits, first.exact, fit, exact]
    exact ⟨rfl, rfl⟩

theorem isPlain_list {vs : List Value} (plain : ∀ v ∈ vs, IsPlain depth v) :
    IsPlain (depth + 1) (.list true vs) := by
  obtain ⟨fit, exact⟩ := isPlain_items plain
  refine ⟨?_, by rw [spelled, exact]⟩
  rw [Json.fits, Nat.add_sub_cancel, fit, decide_eq_true (Nat.succ_pos depth)]
  rfl

theorem isPlain_fields {fs : List (String × Value)} (plain : ∀ f ∈ fs, IsPlain depth f.2) :
    fieldsFit depth fs = true ∧ spelledFields fs = fs := by
  induction fs with
  | nil => exact ⟨rfl, rfl⟩
  | cons f fs ih =>
    obtain ⟨name, v⟩ := f
    obtain ⟨first, others⟩ := List.forall_mem_cons.mp plain
    obtain ⟨fit, exact⟩ := ih others
    rw [fieldsFit, spelledFields, first.fits, first.exact, fit, exact]
    exact ⟨rfl, rfl⟩

theorem isPlain_record {fs : List (String × Value)} (plain : ∀ f ∈ fs, IsPlain depth f.2) :
    IsPlain (depth + 1) (.record fs) := by
  obtain ⟨fit, exact⟩ := isPlain_fields plain
  refine ⟨?_, by rw [spelled, exact]⟩
  rw [Json.fits, Nat.add_sub_cancel, fit, decide_eq_true (Nat.succ_pos depth)]
  rfl

/-! ## What is conveyed -/

/-- A plain value that a reader takes for `a`. -/
structure Conveys (depth : ℕ) (v : Value) (read : Value → Option α) (a : α) : Prop where
  plain : IsPlain depth v
  read : read v = some a

/-- A reader that makes more of what it reads conveys that. -/
theorem Conveys.map {β : Type} {v : Value} {read : Value → Option α} {a : α}
    (h : Conveys depth v read a) (make : α → β) :
    Conveys depth v (fun v => (read v).map make) (make a) where
  plain := h.plain
  read := by rw [h.read, Option.map_some]

theorem conveys_real {x : Float} (finite : x.isFinite = true) :
    Conveys depth (.real x) float? x := ⟨isPlain_real finite, rfl⟩

theorem conveys_nat (depth : ℕ) {width n : ℕ} (wide : width ≤ 64) (small : n < 2 ^ width) :
    Conveys depth (ofNat n) (nat? width) n :=
  ⟨isPlain_ofNat (small.trans_le (Nat.pow_le_pow_right (by decide) wide)), nat?_ofNat small⟩

/-- An option is conveyed if no value is written as a null. -/
theorem conveys_option {write : α → Value} {read : Value → Option α} {x : Option α}
    (solid : ∀ a, write a ≠ .null) (some' : ∀ a ∈ x, Conveys depth (write a) read a) :
    Conveys depth (ofOption write x) (nullable read) x := by
  cases x with
  | none => exact ⟨isPlain_null, rfl⟩
  | some a =>
    obtain ⟨plain, read'⟩ := some' a rfl
    refine ⟨plain, ?_⟩
    rw [ofOption]
    unfold nullable
    split
    · next null => exact absurd null (solid a)
    · rw [read']
      rfl

theorem conveys_optionReal (depth : ℕ) {x : Option Float} (finite : ∀ a ∈ x, a.isFinite = true) :
    Conveys depth (ofOption .real x) (nullable float?) x :=
  conveys_option nofun fun a ha => conveys_real (finite a ha)

theorem conveys_list {write : α → Value} {read : Value → Option α} {xs : List α}
    (each : ∀ a ∈ xs, Conveys depth (write a) read a) :
    Conveys (depth + 1) (.list true (xs.map write)) (list? read) xs := by
  constructor
  · apply isPlain_list
    intro v hv
    obtain ⟨a, ha, rfl⟩ := List.mem_map.mp hv
    exact (each a ha).plain
  · exact mapM_map fun a ha => (each a ha).read

theorem conveys_listReal (depth : ℕ) {xs : List Float} (finite : ∀ x ∈ xs, x.isFinite = true) :
    Conveys (depth + 1) (.list true (xs.map .real)) (list? float?) xs :=
  conveys_list fun x hx => conveys_real (finite x hx)

/-! ## Records -/

/-- A record is conveyed if its fields are plain and the fields found by name build `a`. -/
theorem conveys_record {names : List String} {fs : List (String × Value)}
    {build : Fields → Option α} {a : α} (named : fs.map Prod.fst = names) (distinct : names.Nodup)
    (plain : ∀ f ∈ fs, IsPlain depth f.2) (built : build ⟨fs, true⟩ = some a) :
    Conveys (depth + 1) (.record fs) (fun v => (v.fields? names).bind build) a where
  plain := isPlain_record plain
  read := by rw [fields?_record named distinct, Option.bind_some, built]

theorem conveys_pair {β γ : Type} {first second : String} {v w : Value}
    {readFirst : Value → Option α} {readSecond : Value → Option β} {make : α → β → γ}
    {a : α} {b : β} (differ : second ≠ first) (ha : Conveys depth v readFirst a)
    (hb : Conveys depth w readSecond b) :
    Conveys (depth + 1) (.record [(first, v), (second, w)])
      (pair? first readFirst second readSecond make) (make a b) := by
  refine conveys_record rfl (by simp [differ.symm]) ?_ ?_
  · simp [ha.plain, hb.plain]
  · simp [differ, ha.read, hb.read]

/-! ## Tagged records -/

theorem isPlain_ofTagged {tag name : String} {fs : List (String × Value)}
    (h : IsPlain depth (.record fs)) : IsPlain depth (ofTagged tag name fs) := by
  refine ⟨h.fits, ?_⟩
  have exact := h.exact
  rw [spelled, Value.record.injEq] at exact
  rw [ofTagged, spelled, spelledFields, exact]
  rfl

/-- The tag of a tagged record is found if no other field has its name. -/
theorem tagged?_ofTagged {tag name : String} {fs : List (String × Value)}
    (plain : IsPlain depth (ofTagged tag name fs)) (fresh : ∀ f ∈ fs, f.1 ≠ tag) :
    tagged? tag (ofTagged tag name fs) = some (name, .record fs) := by
  have tags : ((tag, Value.text name) :: fs).filter (fun f => f.1 = tag) =
      [(tag, .text name)] := by
    rw [List.filter_cons_of_pos (by simp), List.filter_eq_nil_iff.mpr]
    intro f hf
    simpa using fresh f hf
  have others : ((tag, Value.text name) :: fs).filter (fun f => f.1 ≠ tag) = fs := by
    rw [List.filter_cons_of_neg (by simp), List.filter_eq_self]
    intro f hf
    simpa using fresh f hf
  have readable : isReadable (.record ((tag, .text name) :: fs)) = true := plain.isReadable
  unfold tagged? ofTagged
  rw [if_pos readable]
  dsimp only
  rw [tags, others]

/-- A tagged record is conveyed if the reader of its tag takes the other fields for `a`. -/
theorem conveys_tagged {tag name : String} {fs : List (String × Value)}
    {decode read : Value → Option α} {a : α}
    (told : ∀ {v body}, tagged? tag v = some (name, body) → decode v = read body)
    (fresh : ∀ f ∈ fs, f.1 ≠ tag) (body : Conveys depth (.record fs) read a) :
    Conveys depth (ofTagged tag name fs) decode a := by
  have plain : IsPlain depth (ofTagged tag name fs) := isPlain_ofTagged body.plain
  exact ⟨plain, (told (tagged?_ofTagged plain fresh)).trans body.read⟩

/-- A kind of tagged records is conveyed by its reader. -/
theorem conveys_kind {tag name : String} {fs : List (String × Value)}
    {readers : List (String × (Value → Option α))} {read : Value → Option α} {a : α}
    (listed : readers.lookup name = some read) (fresh : ∀ f ∈ fs, f.1 ≠ tag)
    (body : Conveys depth (.record fs) read a) :
    Conveys depth (ofTagged tag name fs) (kinds? tag readers) a :=
  conveys_tagged (fun told => by simp [kinds?, told, listed]) fresh body

/-! ## Texts -/

/-- The text that is written for `a` is read as `a`. -/
def ReadsBack (encode : α → Value) (decode : Value → Option α) (a : α) : Prop :=
  (Json.read (write (encode a))).bind decode = some a

/-- What is conveyed in the depth that texts may have is read back. -/
theorem Conveys.readsBack {encode : α → Value} {decode : Value → Option α} {a : α}
    (h : Conveys maxDepth (encode a) decode a) : ReadsBack encode decode a := by
  rw [ReadsBack, Json.read_write h.plain.fits, h.plain.exact, Option.bind_some, h.read]

end Value

end TrendLadder
