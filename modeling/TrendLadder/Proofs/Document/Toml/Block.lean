import TrendLadder.Proofs.Document.Toml.Line

/-!
# Written records read back

The text of a record is its blocks with blank lines between them. Each block is read as the section
it was written for, so the record that is read is the record that was written, as far as it is kept
(`exists_write`).
-/

namespace TrendLadder

namespace Toml

/-! ## Lines of a section -/

theorem isInk_of_isBareChar {c : Char} (h : isBareChar c = true) : isInk c = true ∧ c ≠ '[' :=
  ⟨isInk_iff.mpr ⟨isBlankChar_of_isBareChar h, ne_of_class h rfl, ne_of_class h rfl,
    ne_of_class h rfl⟩, ne_of_class h rfl⟩

theorem body?_line {fuel : ℕ} {name : String} {word rest : List Char} {v : Value}
    (bare : isBareKey name = true) (h : ReadsLine word v)
    (enough : 2 * (line name word).length ≤ fuel) :
    body? (fuel + 1) (line name word ++ rest) =
      (body? fuel rest).map fun (as, rest) => (⟨[], name, v⟩ :: as, rest) := by
  obtain ⟨c, more, hname, hc⟩ := exists_of_isBareKey bare
  obtain ⟨ink, notHeader⟩ := isInk_of_isBareChar hc
  obtain ⟨others, first⟩ : ∃ others, line name word ++ rest = c :: others := by
    rw [line, hname]
    exact ⟨_, rfl⟩
  have skip : skipLines fuel (line name word ++ rest) = line name word ++ rest := by
    rw [first]
    exact skipLines_ink ink
  have ends : lineEnd? ('\n' :: rest) = some rest := rfl
  rw [body?, skip]
  split
  case h_1 none =>
    rw [first] at none
    cases none
  case h_2 header =>
    rw [first] at header
    exact absurd (List.cons.inj header).1 notHeader
  case h_3 =>
    rw [assignment?_line bare h enough]
    simp only [Option.bind_eq_bind, Option.bind_some, ends]
    cases body? fuel rest <;> rfl

theorem writeLines_leaf {name : String} {v : Value} {fields : List (String × Value)}
    (bare : isBareKey name = true) (leaf : isLeaf v = true) :
    writeLines ((name, v) :: fields) =
      (writeLineValue v).bind fun word => (writeLines fields).map (line name word ++ ·) := by
  have same : writeLines ((name, v) :: fields) = (writeLineValue v).bind fun word =>
      (writeLines fields).bind fun text =>
        some (writeKey name ++ ' ' :: '=' :: ' ' :: (word ++ '\n' :: text)) := by
    cases v <;> first | rfl | cases leaf
  rw [same, writeKey_eq bare]
  cases writeLineValue v with
  | none => rfl
  | some word => cases writeLines fields <;> simp [line]

theorem writeLines_table {name : String} {v : Value} {fields : List (String × Value)}
    (leaf : isLeaf v = false) : writeLines ((name, v) :: fields) = writeLines fields := by
  cases v <;> first | rfl | cases leaf

theorem isLine_of_isTidy {depth : ℕ} {v : Value} (tidy : isTidy depth v = true)
    (leaf : isLeaf v = true) : isLine v = true := by
  cases v <;> first | exact tidy | cases leaf

/-- A section ends here, and the rest begins with the next one. -/
def EndsBody (tail rest : List Char) : Prop :=
  ∀ fuel, 2 ≤ fuel → body? fuel tail = some ([], rest)

theorem endsBody_nil : EndsBody [] [] := fun fuel enough => by
  obtain ⟨fuel, rfl⟩ := Nat.exists_eq_add_of_le' enough
  rfl

theorem endsBody_header (s : List Char) : EndsBody ('[' :: s) ('[' :: s) := fun fuel enough => by
  obtain ⟨fuel, rfl⟩ := Nat.exists_eq_add_of_le' enough
  have skip : skipLines (fuel + 1) ('[' :: s) = '[' :: s := skipLines_ink rfl
  rw [body?, skip]
  rfl

theorem endsBody_newline (s : List Char) : EndsBody ('\n' :: '[' :: s) ('[' :: s) :=
  fun fuel enough => by
    obtain ⟨fuel, rfl⟩ := Nat.exists_eq_add_of_le' enough
    have skip : skipLines (fuel + 1) ('\n' :: '[' :: s) = '[' :: s :=
      skipLines_newline.trans (skipLines_ink rfl)
    rw [body?, skip]
    rfl

/-- The text of some lines is read as the assignments. -/
structure ReadsBody (text : List Char) (as : List Assignment) : Prop where
  head : ∀ c ∈ text.head?, isBareChar c = true
  eq_nil : text = [] ↔ as = []
  reads {fuel : ℕ} {tail rest : List Char} : EndsBody tail rest → 2 * text.length + 2 ≤ fuel →
    body? fuel (text ++ tail) = some (as, rest)

theorem readsBody_nil : ReadsBody [] [] where
  head := by simp
  eq_nil := iff_of_true rfl rfl
  reads ends enough := ends _ (by simpa using enough)

theorem ReadsBody.line {name : String} {word text : List Char} {v : Value} {as : List Assignment}
    (bare : isBareKey name = true) (h : ReadsLine word v) (body : ReadsBody text as) :
    ReadsBody (line name word ++ text) (⟨[], name, v⟩ :: as) where
  head := by
    obtain ⟨c, more, hname, hc⟩ := exists_of_isBareKey bare
    rw [Toml.line, hname]
    rintro d hd
    cases hd
    exact hc
  eq_nil := by simp [Toml.line]
  reads {fuel tail rest} ends enough := by
    have length : 4 ≤ (Toml.line name word).length := by
      simp [Toml.line]
      omega
    rw [List.length_append] at enough
    cases fuel with
    | zero => omega
    | succ fuel =>
      rw [List.append_assoc, body?_line bare h (by omega), body.reads ends (by omega)]
      rfl

/-- **The lines of a record are read as its assignments.** -/
theorem exists_readsBody {depth : ℕ} {fields : List (String × Value)}
    (bare : ∀ f ∈ fields, isBareKey f.1 = true) (tidy : fieldsTidy depth fields = true) :
    ∃ text, writeLines fields = some text ∧ ReadsBody text (assignments (leaves fields)) := by
  induction fields with
  | nil => exact ⟨[], rfl, readsBody_nil⟩
  | cons f fields ih =>
    obtain ⟨name, v⟩ := f
    obtain ⟨hv, hfields⟩ := Bool.and_eq_true_iff.mp tidy
    obtain ⟨text, htext, body⟩ := ih (fun f hf => bare f (List.mem_cons_of_mem _ hf)) hfields
    by_cases leaf : isLeaf v = true
    · have hname : isBareKey name = true := bare (name, v) List.mem_cons_self
      obtain ⟨word, hword, reads⟩ := exists_readsLine (isLine_of_isTidy hv leaf)
      have first : leaves ((name, v) :: fields) = (name, keptLeaf v) :: leaves fields := by
        simp [leaves, leaf]
      refine ⟨line name word ++ text, ?_, first ▸ body.line hname reads⟩
      rw [writeLines_leaf hname leaf, hword, htext]
      rfl
    · have skipped : leaves ((name, v) :: fields) = leaves fields := by
        simp [leaves, leaf]
      rw [writeLines_table (by simpa using leaf), skipped]
      exact ⟨text, htext, body⟩

/-! ## Headers -/

theorem writeHeader_eq {path : List String} (bare : ∀ name ∈ path, isBareKey name = true) :
    writeHeader path = '[' :: (dotted path ++ [']', '\n']) := by
  have keys : path.map writeKey = path.map String.toList :=
    List.map_congr_left fun name hname => writeKey_eq (bare name hname)
  rw [writeHeader, keys, List.cons_append]
  rfl

theorem exists_dotted_eq {path : List String} (some : path ≠ [])
    (bare : ∀ name ∈ path, isBareKey name = true) :
    ∃ c more, dotted path = c :: more ∧ isBareChar c = true := by
  obtain ⟨name, path, rfl⟩ := List.exists_cons_of_ne_nil some
  obtain ⟨c, more, hname, first⟩ := exists_of_isBareKey (bare name List.mem_cons_self)
  refine ⟨c, ?_⟩
  cases path with
  | nil => exact ⟨more ++ [], by simp [dotted, hname], first⟩
  | cons next path => exact ⟨_, by rw [dotted_cons, hname]; rfl, first⟩

/-- A header is read as the path and the name of its table. -/
theorem header?_writeHeader {path : List String} {name : String} {fuel : ℕ}
    (bare : ∀ n ∈ path ++ [name], isBareKey n = true) (shallow : path.length + 1 < maxParts)
    (enough : path.length + 1 ≤ fuel) (rest : List Char) :
    header? fuel (writeHeader (path ++ [name]) ++ rest) = some (.table path name, rest) := by
  have length : (path ++ [name]).length ≤ fuel := by
    rw [List.length_append, List.length_singleton]
    exact enough
  have key := key?_dotted (by simp) bare (']' :: '\n' :: rest) (by simp [EndsKey, isBareChar])
    (by simp [skipBlank, isBlankChar]) length
  have bracket : skipBlank (']' :: '\n' :: rest) = ']' :: '\n' :: rest := rfl
  have ends : lineEnd? ('\n' :: rest) = some rest := rfl
  have split : splitKey? (path ++ [name]) = some (path, name) := by
    simp [splitKey?, shallow]
  obtain ⟨c, more, hpath, first⟩ := exists_dotted_eq (by simp) bare
  rw [writeHeader_eq bare, List.cons_append, List.append_assoc]
  unfold header?
  split
  case h_1 heq =>
    rw [hpath] at heq
    exact absurd (List.cons.inj (List.cons.inj heq).2).1 (isInk_of_isBareChar first).2
  case h_2 heq =>
    obtain rfl := (List.cons.inj heq).2
    show (key? fuel (dotted (path ++ [name]) ++ ']' :: '\n' :: rest)).bind _ = _
    rw [key]
    simp only [Option.bind_eq_bind, Option.bind_some, split, bracket, ends]
    rfl
  case h_3 other => exact (other _ rfl).elim

/-! ## Blocks -/

/-- The text is a header and lines that are read as the section. -/
structure IsBlock (s : TableSection) (block : List Char) : Prop where
  bare : ∀ n ∈ s.path ++ [s.name], isBareKey n = true
  shallow : s.path.length + 1 < maxParts
  lines : ∃ text, block = writeHeader (s.path ++ [s.name]) ++ text ∧ ReadsBody text s.body

/-- Blocks with blank lines between them. -/
def joined (bs : List (List Char)) : List Char := (bs.intersperse ['\n']).flatten

/-- The blocks that follow another one. -/
def following (bs : List (List Char)) : List Char :=
  match bs with
  | [] => []
  | bs => '\n' :: joined bs

theorem joined_cons (b : List Char) (bs : List (List Char)) :
    joined (b :: bs) = b ++ following bs := by
  cases bs <;> simp [joined, following]

theorem length_joined_le (bs : List (List Char)) : (joined bs).length ≤ (following bs).length := by
  cases bs with
  | nil => exact le_rfl
  | cons b bs => exact Nat.le_succ _

theorem length_dotted_le {path : List String} (bare : ∀ name ∈ path, isBareKey name = true) :
    path.length ≤ (dotted path).length := by
  induction path with
  | nil => exact Nat.zero_le _
  | cons name path ih =>
    have some : 0 < name.toList.length := by
      obtain ⟨c, more, hname, -⟩ := exists_of_isBareKey (bare name List.mem_cons_self)
      rw [hname]
      exact Nat.succ_pos _
    have others := ih fun n hn => bare n (List.mem_cons_of_mem name hn)
    cases path with
    | nil =>
      have text : dotted [name] = name.toList := by simp [dotted]
      rw [text]
      exact some
    | cons next path =>
      rw [dotted_cons, List.length_append]
      simp only [List.length_cons] at others ⊢
      omega

theorem IsBlock.exists_eq {s : TableSection} {block : List Char} (h : IsBlock s block) :
    ∃ more, block = '[' :: more := by
  obtain ⟨text, rfl, _⟩ := h.lines
  exact ⟨_, rfl⟩

theorem endsBody_following {sections : List TableSection} {bs : List (List Char)}
    (h : List.Forall₂ IsBlock sections bs) : EndsBody (following bs) (joined bs) := by
  cases h with
  | nil => exact endsBody_nil
  | @cons s b _ bs block _ =>
    obtain ⟨more, rfl⟩ := block.exists_eq
    show EndsBody ('\n' :: joined (('[' :: more) :: bs)) _
    rw [joined_cons]
    exact endsBody_newline _

/-- **Blocks are read as the sections they were written for.** -/
theorem sections?_joined {sections : List TableSection} {bs : List (List Char)} {fuel : ℕ}
    (h : List.Forall₂ IsBlock sections bs) (enough : 2 * (joined bs).length + 2 ≤ fuel) :
    sections? fuel (joined bs) = some (sections.map TableSection.toSection) := by
  induction h generalizing fuel with
  | nil =>
    obtain ⟨fuel, rfl⟩ := Nat.exists_eq_add_of_le' enough
    rfl
  | @cons s b sections bs block blocks ih =>
    obtain ⟨text, rfl, body⟩ := block.lines
    have path := length_dotted_le block.bare
    have header : (writeHeader (s.path ++ [s.name])).length =
        (dotted (s.path ++ [s.name])).length + 3 := by
      rw [writeHeader_eq block.bare]
      simp
    have after := length_joined_le bs
    rw [List.length_append, List.length_singleton] at path
    rw [joined_cons, List.append_assoc, List.length_append, List.length_append] at enough
    cases fuel with
    | zero => omega
    | succ fuel =>
      have first := header?_writeHeader block.bare block.shallow
        (by omega : s.path.length + 1 ≤ fuel) (text ++ following bs)
      have second := body.reads (endsBody_following blocks) (by omega : 2 * text.length + 2 ≤ fuel)
      rw [joined_cons, List.append_assoc, sections?, first]
      · simp only [Option.bind_eq_bind, Option.bind_some, second, ih (by omega : _ ≤ fuel)]
        rfl
      · intro none
        rw [writeHeader_eq block.bare] at none
        cases none

/-! ## Records -/

mutual

theorem exists_blocks (path : List String) (name : String) (v : Value)
    (bare : ∀ n ∈ path ++ [name], isBareKey n = true)
    (tidy : isTidy (path.length + 1) v = true) :
    ∃ bs, blocks (path ++ [name]) v = some bs ∧
      List.Forall₂ IsBlock (tableSections path name v) bs := by
  cases v with
  | record fields =>
    obtain ⟨shallow, _, names, _, inner⟩ := isTidy_record.mp tidy
    obtain ⟨text, htext, body⟩ := exists_readsBody names inner
    have deeper : path.length + 1 = (path ++ [name]).length := by simp
    rw [deeper] at inner
    obtain ⟨bs, hbs, tables⟩ := exists_fieldBlocks (path ++ [name]) fields bare names inner
    have nonroot : path ++ [name] ≠ [] := by simp
    have own : (text = [] ∧ fields ≠ []) ↔ isImplied fields = true := by
      rw [body.eq_nil, isImplied_iff, assignments, List.map_eq_nil_iff]
    rw [blocks, htext, hbs, tableSections]
    simp only [Option.bind_eq_bind, Option.bind_some, if_neg nonroot, own]
    by_cases implied : isImplied fields = true
    · rw [if_pos implied, if_pos implied]
      exact ⟨bs, rfl, tables⟩
    · rw [if_neg implied, if_neg implied]
      exact ⟨_, rfl, .cons ⟨bare, shallow, text, rfl, body⟩ tables⟩
  | _ => exact ⟨[], rfl, .nil⟩

/-- The blocks of the tables inside a record are read as their sections. -/
theorem exists_fieldBlocks (path : List String) (fields : List (String × Value))
    (bare : ∀ n ∈ path, isBareKey n = true) (names : ∀ f ∈ fields, isBareKey f.1 = true)
    (tidy : fieldsTidy (path.length + 1) fields = true) :
    ∃ bs, fieldBlocks path fields = some bs ∧
      List.Forall₂ IsBlock (fieldSections path fields) bs := by
  cases fields with
  | nil => exact ⟨[], rfl, .nil⟩
  | cons f rest =>
    obtain ⟨name, v⟩ := f
    obtain ⟨hv, hrest⟩ := Bool.and_eq_true_iff.mp tidy
    have hname : ∀ n ∈ path ++ [name], isBareKey n = true := fun n hn =>
      (List.mem_append.mp hn).elim (bare n) fun hn =>
        List.mem_singleton.mp hn ▸ names (name, v) List.mem_cons_self
    obtain ⟨first, hfirst, table⟩ := exists_blocks path name v hname hv
    obtain ⟨others, hothers, tables⟩ :=
      exists_fieldBlocks path rest bare (fun f hf => names f (List.mem_cons_of_mem _ hf)) hrest
    rw [fieldBlocks, hfirst, hothers]
    exact ⟨first ++ others, rfl, List.rel_append table tables⟩

end

theorem skipMark_eq {s : List Char} (h : ∀ c ∈ s.head?, isBareChar c = true ∨ c = '[') :
    skipMark s = s := by
  cases s with
  | nil => rfl
  | cons c s =>
    refine if_neg fun mark => ?_
    have same : c = Char.ofNat 0xFEFF := by rw [← mark, Char.ofNat_toNat]
    rcases h c rfl with bare | rfl
    · rw [same] at bare
      exact absurd bare (by decide)
    · exact absurd mark (by decide)

theorem head_joined {sections : List TableSection} {bs : List (List Char)}
    (h : List.Forall₂ IsBlock sections bs) : joined bs = [] ∨ ∃ more, joined bs = '[' :: more := by
  cases h with
  | nil => exact .inl rfl
  | @cons s b _ bs block _ =>
    obtain ⟨more, rfl⟩ := block.exists_eq
    rw [joined_cons]
    exact .inr ⟨_, rfl⟩

/-- The text of a record is the lines of its own fields and the blocks of its tables. -/
theorem exists_joined {text : List Char} {as : List Assignment} {sections : List TableSection}
    {bs : List (List Char)} (body : ReadsBody text as) (tables : List.Forall₂ IsBlock sections bs) :
    ∃ tail, joined ((if text = [] then [] else [text]) ++ bs) = text ++ tail ∧
      EndsBody tail (joined bs) ∧ (joined bs).length ≤ tail.length ∧
      ∀ c ∈ (text ++ tail).head?, isBareChar c = true ∨ c = '[' := by
  by_cases none : text = []
  · subst none
    refine ⟨joined bs, rfl, ?_, le_rfl, ?_⟩
    · rcases head_joined tables with empty | ⟨more, bracket⟩
      · rw [empty]
        exact endsBody_nil
      · rw [bracket]
        exact endsBody_header more
    · rcases head_joined tables with empty | ⟨more, bracket⟩
      · simp [empty]
      · simp [bracket]
  · rw [if_neg none]
    refine ⟨following bs, joined_cons text bs, endsBody_following tables, length_joined_le bs, ?_⟩
    rw [List.head?_append_of_ne_nil _ none]
    exact fun c hc => .inl (body.head c hc)

/-- **A tidy record is written, and what is written is read as what is kept of the record.** -/
theorem exists_write {v : Value} (record : isTable v = true) (tidy : isTidy 0 v = true) :
    ∃ text, write v = some text ∧ read text = some (kept v) := by
  obtain ⟨fields, rfl⟩ : ∃ fields, v = .record fields := by
    cases v with
    | record fields => exact ⟨fields, rfl⟩
    | _ => cases record
  obtain ⟨_, _, names, _, inner⟩ := isTidy_record.mp tidy
  obtain ⟨lines, hlines, body⟩ := exists_readsBody names inner
  obtain ⟨bs, hbs, tables⟩ := exists_fieldBlocks [] fields (by simp) names inner
  obtain ⟨tail, text, ends, shorter, head⟩ := exists_joined body tables
  have written : blocks [] (.record fields) =
      some ((if lines = [] then [] else [lines]) ++ bs) := by
    rw [blocks, hlines, hbs]
    rfl
  refine ⟨String.ofList (lines ++ tail), ?_, ?_⟩
  · rw [write, written, Option.map_some]
    exact congrArg (some ∘ String.ofList) text
  · have length : (lines ++ tail).length = lines.length + tail.length := List.length_append
    have first := body.reads ends
      (by omega : 2 * lines.length + 2 ≤ 4 * (lines ++ tail).length + 4)
    have others := sections?_joined tables
      (by omega : 2 * (joined bs).length + 2 ≤ 4 * (lines ++ tail).length + 4)
    rw [read, String.toList_ofList]
    dsimp only
    rw [skipMark_eq head, first]
    simp only [Option.bind_eq_bind, Option.bind_some, others]
    exact build_sections tidy

end Toml

end TrendLadder
