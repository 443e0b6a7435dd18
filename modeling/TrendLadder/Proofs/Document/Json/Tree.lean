import TrendLadder.Proofs.Document.Json.Scalar

/-!
# JSON read back

What is written for a value is read as what it spells: itself, but for nulls where a double is not a
number (`Json.read_write`). So two values have the same text if and only if they spell the same
(`Json.write_eq_write`).
-/

namespace TrendLadder

namespace Json

/-! ## What a text spells -/

mutual

/-- A value as it is read: doubles that are not finite and unreadable values are written as
nulls. -/
def spelled : Value → Value
  | .real x => if x.isFinite then .real x else .null
  | .unreadable => .null
  | .list _ items => .list true (spelledItems items)
  | .record fields => .record (spelledFields fields)
  | v => v

/-- Items as they are read. -/
def spelledItems : List Value → List Value
  | [] => []
  | v :: vs => spelled v :: spelledItems vs

/-- Fields as they are read. -/
def spelledFields : List (String × Value) → List (String × Value)
  | [] => []
  | (name, v) :: fs => (name, spelled v) :: spelledFields fs

end

theorem spelled_record_inj {fs gs : List (String × Value)} :
    spelled (.record fs) = spelled (.record gs) ↔ spelledFields fs = spelledFields gs := by
  rw [spelled, spelled, Value.record.injEq]

theorem spelledFields_cons_inj {name : String} {v w : Value} {fs gs : List (String × Value)} :
    spelledFields ((name, v) :: fs) = spelledFields ((name, w) :: gs) ↔
      spelled v = spelled w ∧ spelledFields fs = spelledFields gs := by
  rw [spelledFields, spelledFields, List.cons.injEq, Prod.mk.injEq, and_iff_right rfl]

theorem spelled_list_inj {whole whole' : Bool} {vs ws : List Value} :
    spelled (.list whole vs) = spelled (.list whole' ws) ↔ spelledItems vs = spelledItems ws := by
  rw [spelled, spelled, Value.list.injEq, and_iff_right rfl]

mutual

/-- Whether a value can be read: its integers are of the format, and it has at most `depth`
containers within one another. -/
def fits (depth : ℕ) : Value → Bool
  | .int n => -2 ^ 63 ≤ n && n < 2 ^ 64
  | .list _ items => 0 < depth && itemsFit (depth - 1) items
  | .record fields => 0 < depth && fieldsFit (depth - 1) fields
  | _ => true

/-- Whether all items of a list can be read. -/
def itemsFit (depth : ℕ) : List Value → Bool
  | [] => true
  | v :: vs => fits depth v && itemsFit depth vs

/-- Whether all fields of a record can be read. -/
def fieldsFit (depth : ℕ) : List (String × Value) → Bool
  | [] => true
  | (_, v) :: fs => fits depth v && fieldsFit depth fs

end

/-! ## Blanks -/

section

variable {fuel depth : ℕ} {s more rest : List Char} {v : Value}

theorem skipSpace_cons {c : Char} (h : isSpace c = false) (s : List Char) :
    skipSpace (c :: s) = c :: s :=
  List.dropWhile_cons_of_neg (by simp [h])

theorem skipSpace_writeText (t : String) (s : List Char) :
    skipSpace (writeText t ++ s) = '"' :: (t.toList.flatMap writeChar ++ '"' :: s) := by
  rw [writeText, List.cons_append, skipSpace_cons rfl, List.append_assoc]
  rfl

@[simp] theorem skipSpace_skipSpace (s : List Char) : skipSpace (skipSpace s) = skipSpace s :=
  List.dropWhile_idempotent isSpace s

theorem value?_skipSpace (fuel depth : ℕ) (s : List Char) :
    value? fuel depth (skipSpace s) = value? fuel depth s := by
  cases fuel with
  | zero => rfl
  | succ fuel => rw [value?, value?, skipSpace_skipSpace]

theorem items?_skipSpace (fuel depth : ℕ) (s : List Char) :
    items? fuel depth (skipSpace s) = items? fuel depth s := by
  cases fuel with
  | zero => rfl
  | succ fuel => rw [items?, items?, value?_skipSpace]

theorem fields?_skipSpace (fuel depth : ℕ) (s : List Char) :
    fields? fuel depth (skipSpace s) = fields? fuel depth s := by
  cases fuel with
  | zero => rfl
  | succ fuel => rw [fields?, fields?, skipSpace_skipSpace]

/-! ## Items -/

theorem value?_bracket (fuel depth : ℕ) (s : List Char) : value? fuel depth (']' :: s) = none := by
  cases fuel with
  | zero => rfl
  | succ fuel => rfl

theorem items?_last (h : value? fuel depth s = some (v, ']' :: rest)) :
    items? (fuel + 1) depth s = some ([v], rest) := by
  rw [items?, h]
  rfl

theorem items?_more {vs : List Value} (h : value? fuel depth s = some (v, ',' :: more))
    (others : items? fuel depth more = some (vs, rest)) :
    items? (fuel + 1) depth s = some (v :: vs, rest) := by
  rw [items?, h]
  show ((items? fuel depth more).bind fun r => some (v :: r.1, r.2)) = _
  rw [others]
  rfl

theorem value?_list {vs : List Value} (h : items? fuel (depth - 1) s = some (vs, rest)) :
    value? (fuel + 1) depth ('[' :: s) = some (bounded depth (.list true vs), rest) := by
  have opened : skipSpace ('[' :: s) = '[' :: s := skipSpace_cons rfl s
  simp only [value?, opened]
  split
  case h_1 heq =>
    rw [← items?_skipSpace, heq] at h
    cases fuel with
    | zero => cases h
    | succ fuel =>
      rw [items?, value?_bracket] at h
      cases h
  case h_2 =>
    rw [items?_skipSpace, h]
    rfl

/-! ## Fields -/

theorem fields?_last {name : String} (enough : name.toList.length < fuel)
    (h : value? fuel depth s = some (v, '\x7d' :: rest)) :
    fields? (fuel + 1) depth (writeText name ++ ':' :: s) = some (some [(name, v)], rest) := by
  have text := textBody_flatMap_writeChar enough [] (':' :: s)
  have colon : skipSpace (':' :: s) = ':' :: s := skipSpace_cons rfl s
  rw [fields?, skipSpace_writeText]
  simp only [text, Option.bind_eq_bind, Option.bind_some, colon, h, List.reverse_nil,
    List.nil_append]
  show some (some [(String.ofList name.toList, v)], rest) = _
  rw [String.ofList_toList]

theorem fields?_more {name : String} {fs : List (String × Value)}
    (enough : name.toList.length < fuel) (h : value? fuel depth s = some (v, ',' :: more))
    (others : fields? fuel depth more = some (some fs, rest)) :
    fields? (fuel + 1) depth (writeText name ++ ':' :: s) =
      some (some ((name, v) :: fs), rest) := by
  have text := textBody_flatMap_writeChar enough [] (':' :: s)
  have colon : skipSpace (':' :: s) = ':' :: s := skipSpace_cons rfl s
  have comma : skipSpace (',' :: more) = ',' :: more := skipSpace_cons rfl more
  rw [fields?, skipSpace_writeText]
  simp only [text, Option.bind_eq_bind, Option.bind_some, colon, h, comma, others,
    List.reverse_nil, List.nil_append]
  show some (some ((String.ofList name.toList, v) :: fs), rest) = _
  rw [String.ofList_toList]

theorem value?_record {fs : List (String × Value)}
    (h : fields? fuel (depth - 1) s = some (some fs, rest)) :
    value? (fuel + 1) depth ('\x7b' :: s) = some (bounded depth (.record fs), rest) := by
  have opened : skipSpace ('\x7b' :: s) = '\x7b' :: s := skipSpace_cons rfl s
  simp only [value?, opened]
  split
  case h_1 heq =>
    rw [← fields?_skipSpace, heq] at h
    cases fuel with
    | zero => cases h
    | succ fuel => cases h
  case h_2 =>
    rw [fields?_skipSpace, h]
    rfl

/-! ## Scalars -/

theorem exists_head_of_number? (h : number? s = some (v, rest)) :
    ∃ c cs, s = c :: cs ∧ (c = '-' ∨ c.isDigit = true) := by
  cases s with
  | nil => cases h
  | cons c cs =>
    refine ⟨c, cs, rfl, ?_⟩
    by_contra other
    obtain ⟨minus, digit⟩ := not_or.mp other
    have none : takeDigits (c :: cs) = ([], c :: cs) := by simp [takeDigits, digit]
    unfold number? at h
    split at h
    rename_i negative body parted
    have same : (negative, body) = (false, c :: cs) := by
      rw [← parted]
      split
      case h_1 heq => exact absurd (List.cons.inj heq).1 minus
      case h_2 => rfl
    obtain ⟨rfl, rfl⟩ := Prod.mk.inj same
    simp [none] at h

theorem value?_of_number? (h : number? s = some (v, rest)) :
    value? (fuel + 1) depth s = some (v, rest) := by
  obtain ⟨c, cs, rfl, head⟩ := exists_head_of_number? h
  have other {d : Char} (minus : '-' ≠ d) (digit : d.isDigit = false) : c ≠ d := by
    rcases head with rfl | number
    · exact minus
    · exact ne_of_class number digit
  have ink : isSpace c = false := by
    simp [isSpace, other (d := ' ') (by decide) rfl, other (d := '\n') (by decide) rfl,
      other (d := '\t') (by decide) rfl, other (d := '\r') (by decide) rfl]
  rw [value?, skipSpace_cons ink]
  split
  case h_1 heq => exact absurd (List.cons.inj heq).1 (other (by decide) rfl)
  case h_2 heq => exact absurd (List.cons.inj heq).1 (other (by decide) rfl)
  case h_3 heq => exact absurd (List.cons.inj heq).1 (other (by decide) rfl)
  case h_4 heq =>
    obtain ⟨rfl, rfl⟩ := List.cons.inj heq
    rw [if_pos head, h]
  case h_5 heq => cases heq

theorem value?_writeText {t : String} (enough : t.toList.length < fuel) (rest : List Char) :
    value? (fuel + 1) depth (writeText t ++ rest) = some (.text t, rest) := by
  have text := textBody_flatMap_writeChar enough [] rest
  simp only [value?, skipSpace_writeText, text, Option.bind_eq_bind, Option.bind_some,
    List.reverse_nil, List.nil_append]
  show some (Value.text (String.ofList t.toList), rest) = _
  rw [String.ofList_toList]

end

theorem length_writeText (t : String) :
    (writeText t).length = (t.toList.flatMap writeChar).length + 2 := by
  simp [writeText]

theorem length_lt_writeText (t : String) : t.toList.length + 1 < (writeText t).length := by
  have := length_le_flatMap_writeChar t.toList
  rw [length_writeText]
  omega

/-! ## Trees -/

theorem writeItems_cons {vs : List Value} (some : vs ≠ []) (v : Value) :
    writeItems (v :: vs) = writeValue v ++ ',' :: writeItems vs := by
  cases vs with
  | nil => exact absurd rfl some
  | cons => rfl

theorem writeFields_cons {fs : List (String × Value)} (some : fs ≠ []) (name : String) (v : Value) :
    writeFields ((name, v) :: fs) =
      writeText name ++ ':' :: (writeValue v ++ ',' :: writeFields fs) := by
  cases fs with
  | nil => exact absurd rfl some
  | cons => rfl

mutual

/-- A value in front of an end is read as what it spells. -/
theorem value?_writeValue (v : Value) {fuel depth : ℕ} {rest : List Char}
    (fit : fits depth v = true) (enough : (writeValue v).length < fuel) (stops : Stops rest) :
    value? fuel depth (writeValue v ++ rest) = some (spelled v, rest) := by
  obtain ⟨fuel, rfl⟩ := Nat.exists_eq_succ_of_ne_zero (Nat.ne_of_gt (Nat.zero_lt_of_lt enough))
  cases v with
  | null | unreadable => rfl
  | bool b => cases b <;> rfl
  | int n =>
    obtain ⟨low, high⟩ := Bool.and_eq_true_iff.mp fit
    exact value?_of_number?
      (number?_writeInt (of_decide_eq_true low) (of_decide_eq_true high) stops)
  | real x =>
    rw [writeValue, spelled]
    split
    case isTrue finite => exact value?_of_number? (number?_write finite stops)
    case isFalse => rfl
  | text t =>
    have long := length_lt_writeText t
    rw [writeValue] at enough
    exact value?_writeText (by omega) rest
  | list whole items =>
    obtain ⟨deep, inner⟩ := Bool.and_eq_true_iff.mp fit
    have opened : bounded depth (.list true (spelledItems items)) =
        .list true (spelledItems items) :=
      if_neg (Nat.ne_of_gt (of_decide_eq_true deep))
    have length : (writeItems items).length + 1 < fuel := by simpa [writeValue] using enough
    by_cases none : items = []
    · subst none
      exact congrArg (fun v => some (v, rest)) opened
    · have list := value?_list (items?_writeItems items none rest inner length)
      rw [opened] at list
      rw [writeValue, spelled, List.cons_append, List.append_assoc]
      exact list
  | record fields =>
    obtain ⟨deep, inner⟩ := Bool.and_eq_true_iff.mp fit
    have opened : bounded depth (.record (spelledFields fields)) =
        .record (spelledFields fields) :=
      if_neg (Nat.ne_of_gt (of_decide_eq_true deep))
    have length : (writeFields fields).length + 1 < fuel := by simpa [writeValue] using enough
    by_cases none : fields = []
    · subst none
      exact congrArg (fun v => some (v, rest)) opened
    · have record := value?_record (fields?_writeFields fields none rest inner length)
      rw [opened] at record
      rw [writeValue, spelled, List.cons_append, List.append_assoc]
      exact record

theorem items?_writeItems (items : List Value) (some' : items ≠ []) {fuel depth : ℕ}
    (rest : List Char) (fit : itemsFit depth items = true)
    (enough : (writeItems items).length + 1 < fuel) :
    items? fuel depth (writeItems items ++ ']' :: rest) = some (spelledItems items, rest) := by
  obtain ⟨fuel, rfl⟩ := Nat.exists_eq_succ_of_ne_zero (Nat.ne_of_gt (Nat.zero_lt_of_lt enough))
  cases items with
  | nil => exact absurd rfl some'
  | cons v vs =>
    obtain ⟨first, others⟩ := Bool.and_eq_true_iff.mp fit
    by_cases none : vs = []
    · subst none
      rw [writeItems] at enough ⊢
      exact items?_last (value?_writeValue v first (by omega) (stops_cons rfl rest))
    · rw [writeItems_cons none, List.length_append, List.length_cons] at enough
      have read := value?_writeValue v first (by omega : _ < fuel)
        (stops_cons (c := ',') rfl (writeItems vs ++ ']' :: rest))
      have more := items?_writeItems vs none rest others (by omega : _ < fuel)
      rw [writeItems_cons none, List.append_assoc]
      exact items?_more read more

theorem fields?_writeFields (fields : List (String × Value)) (some' : fields ≠ [])
    {fuel depth : ℕ} (rest : List Char) (fit : fieldsFit depth fields = true)
    (enough : (writeFields fields).length + 1 < fuel) :
    fields? fuel depth (writeFields fields ++ '\x7d' :: rest) =
      some (some (spelledFields fields), rest) := by
  obtain ⟨fuel, rfl⟩ := Nat.exists_eq_succ_of_ne_zero (Nat.ne_of_gt (Nat.zero_lt_of_lt enough))
  cases fields with
  | nil => exact absurd rfl some'
  | cons f fs =>
    obtain ⟨name, v⟩ := f
    obtain ⟨first, others⟩ := Bool.and_eq_true_iff.mp fit
    have long := length_lt_writeText name
    by_cases none : fs = []
    · subst none
      rw [writeFields, List.length_append, List.length_cons] at enough
      have read := value?_writeValue v first (by omega : _ < fuel)
        (stops_cons (c := '\x7d') rfl rest)
      rw [writeFields, List.append_assoc]
      exact fields?_last (by omega) read
    · rw [writeFields_cons none] at enough
      simp only [List.length_append, List.length_cons] at enough
      have read := value?_writeValue v first (by omega : _ < fuel)
        (stops_cons (c := ',') rfl (writeFields fs ++ '\x7d' :: rest))
      have more := fields?_writeFields fs none rest others (by omega : _ < fuel)
      rw [writeFields_cons none, List.append_assoc, List.cons_append, List.append_assoc]
      exact fields?_more (by omega) read more

end

/-- **What is written for a value is read as what it spells.** -/
theorem read_write {v : Value} (fit : fits maxDepth v = true) :
    read (write v) = some (spelled v) := by
  have value : value? (2 * (writeValue v).length + 2) maxDepth (writeValue v ++ []) =
      some (spelled v, []) :=
    value?_writeValue v fit (by omega) stops_nil
  rw [List.append_nil] at value
  rw [read, write, String.toList_ofList]
  simp only [Option.bind_eq_bind, value, Option.bind_some]
  rfl

/-! ## Texts -/

mutual

theorem writeValue_spelled (v : Value) : writeValue (spelled v) = writeValue v := by
  cases v with
  | real x =>
    rw [spelled, writeValue]
    split
    case isTrue finite => rw [writeValue, if_pos finite]
    case isFalse => rfl
  | list whole items => rw [spelled, writeValue, writeValue, writeItems_spelledItems items]
  | record fields => rw [spelled, writeValue, writeValue, writeFields_spelledFields fields]
  | null | unreadable | bool | int | text => rfl

theorem writeItems_spelledItems (items : List Value) :
    writeItems (spelledItems items) = writeItems items := by
  cases items with
  | nil => rfl
  | cons v vs =>
    cases vs with
    | nil => exact writeValue_spelled v
    | cons w ws =>
      rw [writeItems_cons (List.cons_ne_nil w ws), ← writeValue_spelled v,
        ← writeItems_spelledItems (w :: ws)]
      rfl

theorem writeFields_spelledFields (fields : List (String × Value)) :
    writeFields (spelledFields fields) = writeFields fields := by
  cases fields with
  | nil => rfl
  | cons f fs =>
    obtain ⟨name, v⟩ := f
    cases fs with
    | nil => exact congrArg (writeText name ++ ':' :: ·) (writeValue_spelled v)
    | cons g gs =>
      rw [writeFields_cons (List.cons_ne_nil g gs), ← writeValue_spelled v,
        ← writeFields_spelledFields (g :: gs)]
      rfl

end

/-- **Two values have the same text if and only if they spell the same.** -/
theorem write_eq_write {v w : Value} (hv : fits maxDepth v = true) (hw : fits maxDepth w = true) :
    write v = write w ↔ spelled v = spelled w := by
  constructor
  · intro same
    have read := read_write hv
    rw [same, read_write hw] at read
    exact (Option.some.inj read).symm
  · intro same
    rw [write, write, ← writeValue_spelled v, same, writeValue_spelled]

end Json

end TrendLadder
