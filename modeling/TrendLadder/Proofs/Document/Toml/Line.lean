import TrendLadder.Proofs.Document.Toml.Scalar
import TrendLadder.Proofs.Document.Toml.Table

/-!
# Lines of TOML read back

A line `key = value` that is written for a field is read as an assignment of that value
(`assignment?_line`): of a scalar, of a text without escapes, or of an array of those.
-/

namespace TrendLadder

namespace Toml

/-! ## Values without blanks -/

/-- The characters that follow a value in what is written. -/
def isEnd (c : Char) : Bool := c = '\n' || c = ',' || c = ']'

/-- The characters that no reading of lines skips. -/
def isInk (c : Char) : Bool := !isBlankChar c && c ≠ '#' && c ≠ '\n' && c ≠ '\r'

/-- The text is read as the value wherever a value may stand. -/
structure ReadsItem (word : List Char) (v : Value) : Prop where
  starts : ∃ c more, word = c :: more ∧ isInk c = true ∧ c ≠ ']'
  reads {fuel depth : ℕ} {c : Char} {rest : List Char} : isEnd c = true →
    2 * word.length + 1 ≤ fuel → value? fuel depth (word ++ c :: rest) = some (v, c :: rest)

theorem isTokenChar_of_isEnd {c : Char} (h : isEnd c = true) : isTokenChar c = false := by
  simp only [isEnd, Bool.or_eq_true, decide_eq_true_eq] at h
  rcases h with (rfl | rfl) | rfl <;> rfl

theorem token_append {word : List Char} {c : Char} (chars : ∀ d ∈ word, isTokenChar d = true)
    (ends : isEnd c = true) (rest : List Char) :
    token (word ++ c :: rest) = (word, c :: rest) := by
  obtain ⟨word', rest'⟩ := takeWhile_dropWhile_append chars (c :: rest)
    fun d hd => Option.mem_some.mp hd ▸ isTokenChar_of_isEnd ends
  unfold token
  rw [word', rest']
  dsimp only
  split
  case h_1 heq =>
    cases heq
    cases ends
  case h_2 => rfl

/-- A value that is neither a container nor a quoted text is a bare token. -/
theorem value?_token {fuel depth : ℕ} {c : Char} {s : List Char} (token : isTokenChar c = true) :
    value? (fuel + 1) depth (c :: s) =
      (scalar? (Toml.token (c :: s)).1).map fun v => (v, (Toml.token (c :: s)).2) := by
  have other {d : Char} (hd : isTokenChar d = false) : c ≠ d := ne_of_class token hd
  unfold value?
  split
  case h_1 heq => exact absurd (List.cons.inj heq).1 (other rfl)
  case h_2 heq => exact absurd (List.cons.inj heq).1 (other rfl)
  case h_3 heq =>
    cases heq
    rw [if_neg (not_or.mpr ⟨other rfl, other rfl⟩)]
    dsimp only
    cases scalar? (Toml.token (c :: s)).1 <;> rfl
  case h_4 heq => cases heq

theorem IsToken.readsItem {word : List Char} {v : Value} (h : IsToken word v) :
    ReadsItem word v := by
  obtain ⟨c, more, rfl⟩ := List.exists_cons_of_ne_nil h.ne_nil
  have first : isTokenChar c = true := h.chars c List.mem_cons_self
  have other {d : Char} (hd : isTokenChar d = false) : c ≠ d := ne_of_class first hd
  refine ⟨⟨c, more, rfl, ?_, other rfl⟩, fun {fuel depth d rest} ends enough => ?_⟩
  · simp [isInk, isBlankChar, other (d := ' ') rfl, other (d := '\t') rfl, other (d := '#') rfl,
      other (d := '\n') rfl, other (d := '\r') rfl]
  · have read := token_append h.chars ends rest
    cases fuel with
    | zero => omega
    | succ fuel =>
      rw [List.cons_append, value?_token first, ← List.cons_append, read, h.scalar]
      rfl

/-! ## Texts -/

theorem basicBody_append {fuel : ℕ} {seen body rest : List Char}
    (plain : ∀ c ∈ body, isPlainChar c = true) (enough : body.length < fuel) :
    basicBody fuel seen (body ++ '"' :: rest) = some (seen.reverse ++ body, rest) := by
  induction body generalizing fuel seen with
  | nil =>
    cases fuel with
    | zero => omega
    | succ fuel =>
      rw [List.nil_append, basicBody, if_pos rfl, List.append_nil]
  | cons c body ih =>
    cases fuel with
    | zero => omega
    | succ fuel =>
      have hc := plain c List.mem_cons_self
      have printable : isPrintable c = true := (Bool.and_eq_true_iff.mp hc).1
      rw [List.cons_append, basicBody, if_neg (ne_of_class hc rfl),
        if_neg (ne_of_class hc rfl), if_pos printable,
        ih (fun d hd => plain d (List.mem_cons_of_mem c hd)) (Nat.lt_of_succ_lt_succ enough),
        List.reverse_cons, List.append_assoc]
      rfl

theorem writeText_eq {s : String} (plain : ∀ c ∈ s.toList, isPlainChar c = true) :
    Json.writeText s = '"' :: (s.toList ++ ['"']) := by
  have itself {cs : List Char} (h : ∀ c ∈ cs, isPlainChar c = true) :
      cs.flatMap Json.writeChar = cs := by
    induction cs with
    | nil => rfl
    | cons c cs ih =>
      have hc := of_decide_eq_true (Bool.and_eq_true_iff.mp (h c List.mem_cons_self)).2
      rw [List.flatMap_cons, hc, ih fun d hd => h d (List.mem_cons_of_mem c hd)]
      rfl
  rw [Json.writeText, itself plain]

/-- A text in double quotes is read up to the closing one. -/
theorem text?_append {fuel : ℕ} {body rest : List Char} {c : Char}
    (plain : ∀ c ∈ body, isPlainChar c = true) (ends : isEnd c = true)
    (enough : body.length < fuel) :
    text? fuel ('"' :: (body ++ '"' :: c :: rest)) = some (body, c :: rest) := by
  unfold text?
  split
  case h_1 heq =>
    -- three quotes would need one inside the text or after it
    cases body with
    | nil =>
      cases heq
      cases ends
    | cons d body =>
      have quote : d = '"' := (List.cons.inj (List.cons.inj heq).2).1
      exact absurd quote (ne_of_class (plain d List.mem_cons_self) rfl)
  case h_2 heq => cases heq
  case h_3 heq =>
    cases heq
    exact basicBody_append plain enough
  case h_4 heq => cases heq
  case h_5 _ _ quote _ => exact (quote _ rfl).elim

theorem readsItem_text {s : String} (plain : ∀ c ∈ s.toList, isPlainChar c = true) :
    ReadsItem (Json.writeText s) (.text s) := by
  rw [writeText_eq plain]
  refine ⟨⟨'"', _, rfl, rfl, by decide⟩, fun {fuel depth d rest} ends enough => ?_⟩
  cases fuel with
  | zero => omega
  | succ fuel =>
    have short : s.toList.length < fuel := by
      rw [List.length_cons, List.length_append] at enough
      omega
    rw [List.cons_append, List.append_assoc, List.singleton_append, value?, if_pos (.inl rfl),
      text?_append plain ends short]
    · show some (Value.text (String.ofList s.toList), d :: rest) = _
      rw [String.ofList_toList]
    · intro h
      cases h
    · intro h
      cases h

/-- An item is written, and what is written is read as the item. -/
theorem exists_readsItem {v : Value} (item : isItem v = true) :
    ∃ word, writeItem v = some word ∧ ReadsItem word v := by
  cases v with
  | bool b =>
    cases b with
    | true => exact ⟨_, rfl, isToken_true.readsItem⟩
    | false => exact ⟨_, rfl, isToken_false.readsItem⟩
  | int n => exact ⟨_, if_pos item, (isToken_int item).readsItem⟩
  | real x => exact ⟨_, rfl, (isToken_real x).readsItem⟩
  | text s => exact ⟨_, rfl, readsItem_text (List.all_eq_true.mp item)⟩
  | null | list _ _ | record _ | unreadable => cases item

/-! ## Blanks and line ends -/

theorem skipBlank_cons {c : Char} {s : List Char} (h : isBlankChar c = false) :
    skipBlank (c :: s) = c :: s :=
  List.dropWhile_cons_of_neg (by simp [h])

theorem isInk_iff {c : Char} :
    isInk c = true ↔ isBlankChar c = false ∧ c ≠ '#' ∧ c ≠ '\n' ∧ c ≠ '\r' := by
  simp [isInk, and_assoc]

theorem skipLines_ink {fuel : ℕ} {c : Char} {s : List Char} (ink : isInk c = true) :
    skipLines fuel (c :: s) = c :: s := by
  obtain ⟨blank, comment, newline, ret⟩ := isInk_iff.mp ink
  cases fuel with
  | zero => rfl
  | succ fuel =>
    have same : skipComment (skipBlank (c :: s)) = c :: s := by
      rw [skipBlank_cons blank]
      unfold skipComment
      split
      case h_1 heq => exact absurd (List.cons.inj heq).1 comment
      case h_2 => rfl
    have none : newline? (c :: s) = none := by
      unfold newline?
      split
      case h_1 heq => exact absurd (List.cons.inj heq).1 newline
      case h_2 heq => exact absurd (List.cons.inj heq).1 ret
      case h_3 => rfl
    rw [skipLines, same, none]

theorem skipLines_newline {fuel : ℕ} {s : List Char} :
    skipLines (fuel + 1) ('\n' :: s) = skipLines fuel s := rfl

theorem skipLines_blank {fuel : ℕ} {s : List Char} :
    skipLines (fuel + 1) (' ' :: s) = skipLines (fuel + 1) s := rfl

/-! ## Arrays -/

theorem items?_nil {fuel depth : ℕ} {s rest : List Char} (skip : skipLines fuel s = ']' :: rest) :
    items? (fuel + 1) depth s = some ([], rest) := by
  rw [items?, skip]
  rfl

theorem items?_comma {fuel depth : ℕ} {s word rest : List Char} {v : Value}
    (item : ReadsItem word v) (enough : 2 * word.length + 1 ≤ fuel)
    (skip : skipLines fuel s = word ++ ',' :: rest) :
    items? (fuel + 1) depth s =
      (items? fuel depth rest).map fun (vs, rest) => (v :: vs, rest) := by
  obtain ⟨d, more, rfl, _, notBracket⟩ := item.starts
  rw [items?, skip]
  split
  case h_1 heq => exact absurd (List.cons.inj heq).1 notBracket
  case h_2 =>
    have comma : skipLines fuel (',' :: rest) = ',' :: rest := skipLines_ink rfl
    rw [item.reads rfl enough]
    simp only [Option.bind_eq_bind, Option.bind_some, comma]
    cases items? fuel depth rest <;> rfl

theorem items?_bracket {fuel depth : ℕ} {s word rest : List Char} {v : Value}
    (item : ReadsItem word v) (enough : 2 * word.length + 1 ≤ fuel)
    (skip : skipLines fuel s = word ++ ']' :: rest) :
    items? (fuel + 1) depth s = some ([v], rest) := by
  obtain ⟨d, more, rfl, _, notBracket⟩ := item.starts
  rw [items?, skip]
  split
  case h_1 heq => exact absurd (List.cons.inj heq).1 notBracket
  case h_2 =>
    have bracket : skipLines fuel (']' :: rest) = ']' :: rest := skipLines_ink rfl
    rw [item.reads rfl enough]
    simp only [Option.bind_eq_bind, Option.bind_some, bracket]
    rfl

/-- Items on lines of their own are read up to the closing bracket. -/
theorem items?_lines {words : List (List Char)} {vs : List Value} {fuel depth : ℕ}
    {rest : List Char} (items : List.Forall₂ ReadsItem words vs)
    (enough : 2 * (words.flatMap writeItemLine).length + 2 ≤ fuel) :
    items? fuel depth ('\n' :: (words.flatMap writeItemLine ++ ']' :: rest)) = some (vs, rest) := by
  induction items generalizing fuel with
  | nil =>
    obtain ⟨fuel, rfl⟩ := Nat.exists_eq_add_of_le' enough
    refine items?_nil ?_
    exact skipLines_newline.trans (skipLines_ink rfl)
  | @cons word v words vs item items ih =>
    have text : (word :: words).flatMap writeItemLine ++ ']' :: rest =
        ' ' :: ' ' :: ' ' :: ' ' :: (word ++ ',' ::
          '\n' :: (words.flatMap writeItemLine ++ ']' :: rest)) := by
      simp [writeItemLine]
    have length : ((word :: words).flatMap writeItemLine).length =
        word.length + 6 + (words.flatMap writeItemLine).length := by
      simp [writeItemLine]
      omega
    obtain ⟨d, more, hword, ink, _⟩ := item.starts
    cases fuel with
    | zero => omega
    | succ fuel =>
      have skip : skipLines fuel ('\n' :: ((word :: words).flatMap writeItemLine ++ ']' :: rest)) =
          word ++ ',' :: '\n' :: (words.flatMap writeItemLine ++ ']' :: rest) := by
        obtain ⟨fuel, rfl⟩ := Nat.exists_eq_add_of_le' (by omega : 2 ≤ fuel)
        rw [text, hword, skipLines_newline]
        iterate 4 rw [skipLines_blank]
        exact skipLines_ink ink
      rw [items?_comma item (by omega) skip, ih (by omega)]
      rfl

/-! ## Lines -/

/-- The text is read as the value at the end of a line. -/
structure ReadsLine (word : List Char) (v : Value) : Prop where
  starts : ∃ c more, word = c :: more ∧ isInk c = true
  reads {fuel : ℕ} {rest : List Char} : 2 * word.length + 1 ≤ fuel →
    value? fuel 0 (word ++ '\n' :: rest) = some (v, '\n' :: rest)

theorem ReadsItem.readsLine {word : List Char} {v : Value} (h : ReadsItem word v) :
    ReadsLine word v where
  starts := by
    obtain ⟨c, more, hword, ink, _⟩ := h.starts
    exact ⟨c, more, hword, ink⟩
  reads := h.reads rfl

/-- What stands behind the opening bracket of an array is read up to the closing one. -/
theorem items?_writeArray {words : List (List Char)} {vs : List Value} {fuel : ℕ} (depth : ℕ)
    (rest : List Char) (items : List.Forall₂ ReadsItem words vs)
    (enough : 2 * (writeArray words).length ≤ fuel) :
    ∃ s, writeArray words ++ rest = '[' :: s ∧ items? fuel depth s = some (vs, rest) := by
  cases items with
  | nil =>
    obtain ⟨fuel, rfl⟩ := Nat.exists_eq_add_of_le' enough
    exact ⟨_, rfl, items?_nil (skipLines_ink rfl)⟩
  | @cons word v words vs item items =>
    cases items with
    | nil =>
      have length : (writeArray [word]).length = word.length + 2 := by simp [writeArray]
      obtain ⟨fuel, rfl⟩ := Nat.exists_eq_add_of_le' (by omega : 1 ≤ fuel)
      refine ⟨word ++ ']' :: rest, by simp [writeArray], items?_bracket item (by omega) ?_⟩
      obtain ⟨c, more, rfl, ink, _⟩ := item.starts
      exact skipLines_ink ink
    | @cons word' v' words vs item' items =>
      have length : (writeArray (word :: word' :: words)).length =
          ((word :: word' :: words).flatMap writeItemLine).length + 3 := by
        simp [writeArray]
        omega
      refine ⟨'\n' :: ((word :: word' :: words).flatMap writeItemLine ++ ']' :: rest), ?_,
        items?_lines (.cons item (.cons item' items)) (by omega)⟩
      simp [writeArray]

theorem readsLine_array {words : List (List Char)} {vs : List Value}
    (items : List.Forall₂ ReadsItem words vs) : ReadsLine (writeArray words) (.list false vs) := by
  refine ⟨?_, fun {fuel rest} enough => ?_⟩
  · unfold writeArray
    split <;> exact ⟨'[', _, rfl, rfl⟩
  · cases fuel with
    | zero => omega
    | succ fuel =>
      obtain ⟨s, text, read⟩ := items?_writeArray 1 ('\n' :: rest) items
        (Nat.le_of_succ_le_succ enough)
      rw [text, value?, if_neg (by decide), Nat.zero_add, read]
      rfl

theorem exists_readsItems {items : List Value} (all : items.all isItem = true) :
    ∃ words, items.mapM writeItem = some words ∧ List.Forall₂ ReadsItem words items := by
  induction items with
  | nil => exact ⟨[], rfl, .nil⟩
  | cons v items ih =>
    obtain ⟨hv, hitems⟩ := Bool.and_eq_true_iff.mp all
    obtain ⟨word, hword, reads⟩ := exists_readsItem hv
    obtain ⟨words, hwords, others⟩ := ih hitems
    exact ⟨word :: words, by simp [List.mapM_cons, hword, hwords], .cons reads others⟩

/-- **A line is written, and what is written is read as the value that is kept.** -/
theorem exists_readsLine {v : Value} (line : isLine v = true) :
    ∃ word, writeLineValue v = some word ∧ ReadsLine word (keptLeaf v) := by
  have single {v : Value} (item : isItem v = true) (written : writeLineValue v = writeItem v) :
      ∃ word, writeLineValue v = some word ∧ ReadsLine word v := by
    obtain ⟨word, hword, reads⟩ := exists_readsItem item
    exact ⟨word, written.trans hword, reads.readsLine⟩
  cases v with
  | list whole items =>
    obtain ⟨words, hwords, reads⟩ := exists_readsItems line
    exact ⟨writeArray words, congrArg (Option.map writeArray) hwords, readsLine_array reads⟩
  | bool | int | real | text => exact single line rfl
  | null | record | unreadable => cases line

/-! ## Keys -/

/-- The text goes on with something that is no part of a bare key. -/
def EndsKey (s : List Char) : Prop := ∀ c ∈ s.head?, isBareChar c = false

/-- The name of a path with points between its parts. -/
def dotted (path : List String) : List Char := ((path.map String.toList).intersperse ['.']).flatten

theorem isBareKey_iff {name : String} :
    isBareKey name = true ↔ name ≠ "" ∧ ∀ c ∈ name.toList, isBareChar c = true := by
  simp [isBareKey]

theorem exists_of_isBareKey {name : String} (bare : isBareKey name = true) :
    ∃ c more, name.toList = c :: more ∧ isBareChar c = true := by
  obtain ⟨ne, chars⟩ := isBareKey_iff.mp bare
  obtain ⟨c, more, hname⟩ := List.exists_cons_of_ne_nil
    fun h => ne (String.toList_eq_nil_iff.mp h)
  exact ⟨c, more, hname, chars c (hname ▸ List.mem_cons_self)⟩

theorem isBlankChar_of_isBareChar {c : Char} (h : isBareChar c = true) : isBlankChar c = false := by
  simp [isBlankChar, ne_of_class h (d := ' ') rfl, ne_of_class h (d := '\t') rfl]

theorem writeKey_eq {name : String} (bare : isBareKey name = true) :
    writeKey name = name.toList := by
  rw [writeKey, if_pos bare]

theorem simpleKey?_bare {fuel : ℕ} {name : String} {s : List Char} (bare : isBareKey name = true)
    (ends : EndsKey s) :
    simpleKey? fuel (skipBlank (name.toList ++ s)) = some (name.toList, s) := by
  obtain ⟨taken, left⟩ := takeWhile_dropWhile_append (isBareKey_iff.mp bare).2 s ends
  obtain ⟨c, more, hname, first⟩ := exists_of_isBareKey bare
  have ne : name.toList ≠ [] := by
    rw [hname]
    exact List.cons_ne_nil c more
  have same : skipBlank (name.toList ++ s) = name.toList ++ s := by
    rw [hname]
    exact skipBlank_cons (isBlankChar_of_isBareChar first)
  rw [same]
  unfold simpleKey?
  split
  case h_1 heq =>
    rw [hname] at heq
    exact absurd (List.cons.inj heq).1 (ne_of_class first rfl)
  case h_2 heq =>
    rw [hname] at heq
    exact absurd (List.cons.inj heq).1 (ne_of_class first rfl)
  case h_3 =>
    rw [taken, left]
    exact if_neg ne

theorem dotted_cons {name next : String} {path : List String} :
    dotted (name :: next :: path) = name.toList ++ '.' :: dotted (next :: path) := rfl

theorem key?_dotted {fuel : ℕ} {path : List String} (some : path ≠ [])
    (bare : ∀ name ∈ path, isBareKey name = true) (s : List Char) (ends : EndsKey s)
    (last : ∀ c ∈ (skipBlank s).head?, c ≠ '.') (enough : path.length ≤ fuel) :
    key? fuel (dotted path ++ s) = .some (path, skipBlank s) := by
  induction path generalizing fuel with
  | nil => exact absurd rfl some
  | cons name path ih =>
    cases fuel with
    | zero => cases enough
    | succ fuel =>
      have hname := bare name List.mem_cons_self
      cases path with
      | nil =>
        have text : dotted [name] ++ s = name.toList ++ s := by simp [dotted]
        rw [text, key?, simpleKey?_bare hname ends]
        simp only [Option.bind_eq_bind, Option.bind_some, String.ofList_toList]
        split
        case h_1 heq => exact absurd rfl (last '.' (by rw [heq]; rfl))
        case h_2 => rfl
      | cons next path =>
        rw [dotted_cons, List.append_assoc, List.cons_append, key?,
          simpleKey?_bare hname (by simp [EndsKey, isBareChar])]
        have point : skipBlank ('.' :: (dotted (next :: path) ++ s)) =
            '.' :: (dotted (next :: path) ++ s) := skipBlank_cons rfl
        have more := ih (List.cons_ne_nil _ _) (fun n hn => bare n (List.mem_cons_of_mem name hn))
          (Nat.le_of_succ_le_succ enough)
        simp only [Option.bind_eq_bind, Option.bind_some, String.ofList_toList, point, more]
        rfl

/-! ## Assignments -/

/-- The line of a field. -/
def line (name : String) (word : List Char) : List Char :=
  name.toList ++ ' ' :: '=' :: ' ' :: (word ++ ['\n'])

/-- **A line is read as the assignment of its value.** -/
theorem assignment?_line {fuel : ℕ} {name : String} {word rest : List Char} {v : Value}
    (bare : isBareKey name = true) (h : ReadsLine word v)
    (enough : 2 * (line name word).length ≤ fuel) :
    assignment? fuel 0 (line name word ++ rest) = some (⟨[], name, v⟩, '\n' :: rest) := by
  have length : (line name word).length = name.toList.length + word.length + 4 := by
    simp [line]
    omega
  have text : line name word ++ rest =
      dotted [name] ++ ' ' :: '=' :: ' ' :: (word ++ '\n' :: rest) := by
    simp [line, dotted]
  cases fuel with
  | zero => omega
  | succ fuel =>
    have short : [name].length ≤ fuel := by
      rw [List.length_singleton]
      omega
    have key := key?_dotted (List.cons_ne_nil name []) (by simp [bare])
      (' ' :: '=' :: ' ' :: (word ++ '\n' :: rest)) (by simp [EndsKey, isBareChar])
      (by simp [skipBlank, isBlankChar]) short
    have equals : skipBlank (' ' :: '=' :: ' ' :: (word ++ '\n' :: rest)) =
        '=' :: ' ' :: (word ++ '\n' :: rest) := rfl
    have value : skipBlank (' ' :: (word ++ '\n' :: rest)) = word ++ '\n' :: rest := by
      obtain ⟨c, more, rfl, ink⟩ := h.starts
      exact skipBlank_cons (isInk_iff.mp ink).1
    have again : skipBlank ('=' :: ' ' :: (word ++ '\n' :: rest)) =
        '=' :: ' ' :: (word ++ '\n' :: rest) := rfl
    have single : splitKey? [name] = some ([], name) := rfl
    rw [text, assignment?, key]
    simp only [Option.bind_eq_bind, Option.bind_some, single, equals, again, value,
      h.reads (by omega : 2 * word.length + 1 ≤ fuel)]
    rfl

end Toml

end TrendLadder
