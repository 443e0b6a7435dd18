import TrendLadder.Document.Toml.Writer
import TrendLadder.Proofs.Number.Written

/-!
# Scalars of TOML read back

What is written for a truth value, an integer of the format or any double is one bare token, and the
token is read as that value (`isToken_int`, `isToken_real`).
-/

namespace TrendLadder

namespace Toml

/-! ## Numbers -/

/-- The characters of decimal numbers without an exponent. -/
def isNumeric (c : Char) : Bool := c.isDigit || c = '-' || c = '.'

theorem isNumeric_of_isDigit {c : Char} (h : c.isDigit = true) : isNumeric c = true := by
  rw [isNumeric, h]
  rfl

theorem isTokenChar_of_isNumeric {c : Char} (h : isNumeric c = true) : isTokenChar c = true := by
  simp only [isNumeric, Bool.or_eq_true, decide_eq_true_eq] at h
  rcases h with (digit | rfl) | rfl
  · simp [isTokenChar, Char.isAlphanum, digit]
  · rfl
  · rfl

theorem stripUnderscores_eq {base : ℕ} {afterDigit : Bool} {cs : List Char} (h : '_' ∉ cs) :
    stripUnderscores base afterDigit cs = some cs := by
  induction cs generalizing afterDigit with
  | nil => rfl
  | cons c rest ih =>
    obtain ⟨hc, hrest⟩ := not_or.mp (List.mem_cons.not.mp h)
    unfold stripUnderscores
    split
    case h_1 heq => cases heq
    case h_2 heq =>
      cases heq
      exact absurd rfl hc
    case h_3 heq =>
      cases heq
      rw [ih hrest]
      rfl

/-- A run of digits without a leading zero, unless it is the zero. -/
theorem isPlain_of {whole : List Char} (h : whole = ['0'] ∨ whole ≠ [] ∧ whole.head? ≠ some '0') :
    isPlain whole = true := by
  rcases h with rfl | ⟨some, head⟩
  · rfl
  · simp [isPlain, some, head]

theorem mem_of_mem_sign {word : List Char} {c : Char} (h : c ∈ (Literal.sign word).2) :
    c ∈ word := by
  unfold Literal.sign at h
  split at h
  case h_1 | h_2 => exact List.mem_cons_of_mem _ h
  case h_3 => exact h

/-- A number is a token that is no constant and has no mark of a base. -/
theorem scalar?_of_isNumeric {word : List Char} {v : Value}
    (numeric : ∀ c ∈ word, isNumeric c = true) (h : number? word = some v) :
    scalar? word = some v := by
  have absent {c : Char} (hc : isNumeric c = false) : c ∉ word :=
    fun mem => ne_of_class (numeric c mem) hc rfl
  have noName : special? word = none := by
    have letter {name : List Char} (n : 'n' ∈ name) : (Literal.sign word).2 ≠ name := fun h =>
      absent (c := 'n') rfl (mem_of_mem_sign (h ▸ n))
    unfold special?
    dsimp only
    rw [if_neg (letter (by decide)), if_neg (letter (by decide))]
  unfold scalar?
  split
  case h_1 => exact absurd List.mem_cons_self (absent (c := 't') rfl)
  case h_2 => exact absurd List.mem_cons_self (absent (c := 'f') rfl)
  case h_3 => exact absurd (List.mem_cons_of_mem _ List.mem_cons_self) (absent (c := 'x') rfl)
  case h_4 => exact absurd (List.mem_cons_of_mem _ List.mem_cons_self) (absent (c := 'o') rfl)
  case h_5 => exact absurd (List.mem_cons_of_mem _ List.mem_cons_self) (absent (c := 'b') rfl)
  case h_6 => rw [noName, h]; rfl

/-! ## Reading numbers -/

section

variable (negative : Bool) {whole fraction : List Char}

theorem isNumeric_number (digits : ∀ c ∈ whole, c.isDigit = true) (rest : List Char)
    (numeric : ∀ c ∈ rest, isNumeric c = true) :
    ∀ c ∈ Layout.sign negative ++ (whole ++ rest), isNumeric c = true := by
  intro c hc
  rcases List.mem_append.mp hc with sign | hc
  · cases negative with
    | true =>
      obtain rfl := List.mem_singleton.mp sign
      rfl
    | false => cases sign
  · exact (List.mem_append.mp hc).elim (fun h => isNumeric_of_isDigit (digits c h)) (numeric c)

theorem stripUnderscores_of_isNumeric {base : ℕ} {afterDigit : Bool} {cs : List Char}
    (numeric : ∀ c ∈ cs, isNumeric c = true) : stripUnderscores base afterDigit cs = some cs :=
  stripUnderscores_eq fun mem => absurd (numeric '_' mem) (by decide)

theorem number?_whole (digits : ∀ c ∈ whole, c.isDigit = true) (plain : isPlain whole = true)
    (some : whole ≠ []) :
    number? (Layout.sign negative ++ (whole ++ [])) =
      int? (if negative then -(natOfRun whole : ℤ) else natOfRun whole) := by
  have numeric := isNumeric_number negative digits [] (by simp)
  have split := takeDigits_append digits [] (by simp)
  rw [number?, stripUnderscores_of_isNumeric numeric]
  simp only [Option.bind_eq_bind, Option.bind_some, sign_whole_append negative digits some, split,
    plain, Bool.not_true, Bool.false_eq_true, if_false]

theorem number?_point (digits : ∀ c ∈ whole, c.isDigit = true) (plain : isPlain whole = true)
    (some : whole ≠ []) (digits' : ∀ c ∈ fraction, c.isDigit = true) (some' : fraction ≠ []) :
    number? (Layout.sign negative ++ (whole ++ '.' :: fraction)) =
      let x := (Decimal.ofParts negative whole fraction 0).toFloat
      if x = 1.0 / 0.0 then none else .some (.real x) := by
  have point : ∀ c ∈ '.' :: fraction, isNumeric c = true := by
    intro c hc
    rcases List.mem_cons.mp hc with rfl | digit
    · rfl
    · exact isNumeric_of_isDigit (digits' c digit)
  have numeric := isNumeric_number negative digits _ point
  have split := takeDigits_append digits ('.' :: fraction) (by simp)
  rw [number?, stripUnderscores_of_isNumeric numeric]
  simp only [Option.bind_eq_bind, Option.bind_some, sign_whole_append negative digits some, split,
    plain, Bool.not_true, Bool.false_eq_true, if_false, if_true, takeDigits_eq digits', some',
    and_false]

end

/-! ## Tokens -/

/-- A bare token that is read as the value. -/
structure IsToken (word : List Char) (v : Value) : Prop where
  ne_nil : word ≠ []
  chars : ∀ c ∈ word, isTokenChar c = true
  scalar : scalar? word = some v

theorem isToken_true : IsToken ['t', 'r', 'u', 'e'] (.bool true) :=
  ⟨List.cons_ne_nil _ _, List.all_eq_true.mp rfl, rfl⟩

theorem isToken_false : IsToken ['f', 'a', 'l', 's', 'e'] (.bool false) :=
  ⟨List.cons_ne_nil _ _, List.all_eq_true.mp rfl, rfl⟩

theorem isToken_number {negative : Bool} {whole rest : List Char} {v : Value}
    (digits : ∀ c ∈ whole, c.isDigit = true) (some : whole ≠ [])
    (numeric : ∀ c ∈ rest, isNumeric c = true)
    (h : number? (Layout.sign negative ++ (whole ++ rest)) = .some v) :
    IsToken (Layout.sign negative ++ (whole ++ rest)) v := by
  have chars := isNumeric_number negative digits rest numeric
  refine ⟨?_, fun c hc => isTokenChar_of_isNumeric (chars c hc), scalar?_of_isNumeric chars h⟩
  exact List.append_ne_nil_of_right_ne_nil _ (List.append_ne_nil_of_left_ne_nil some _)

/-- **An integer of the format is written as a token of it.** -/
theorem isToken_int {n : ℤ} (h : inRange n = true) : IsToken (Json.writeInt n) (.int n) := by
  have digits : ∀ c ∈ Nat.toDigits 10 n.natAbs, c.isDigit = true := fun c => isDigit_toDigits
  have plain : isPlain (Nat.toDigits 10 n.natAbs) = true := isPlain_of (plain_toDigits _)
  have value : (if decide (n < 0) then -(natOfRun (Nat.toDigits 10 n.natAbs) : ℤ)
      else natOfRun (Nat.toDigits 10 n.natAbs)) = n := by
    rw [natOfRun_toDigits]
    simp only [decide_eq_true_eq]
    split <;> omega
  have read := number?_whole (n < 0) digits plain Nat.toDigits_ne_nil
  rw [value, int?, if_pos h] at read
  have token := isToken_number digits Nat.toDigits_ne_nil (by simp) read
  rwa [List.append_nil] at token

theorem unpacked_nan : unpacked (0.0 / 0.0) = .notANumber := rfl

theorem unpacked_inf : unpacked (1.0 / 0.0) = .infinity .positive := rfl

/-- The names of the special values are tokens of them. -/
theorem isToken_special {x : Float}
    (h : unpacked x = .notANumber ∨ unpacked x = .infinity .positive ∨
      unpacked x = .infinity .negative) :
    IsToken (Layout.configuration.write x) (.real x) := by
  unfold Layout.write
  rw [Reading.shortest_eq]
  rcases h with nan | positive | negative
  · rw [nan, eq_of_unpacked_eq (nan.trans unpacked_nan.symm)]
    exact ⟨List.cons_ne_nil _ _, List.all_eq_true.mp rfl, rfl⟩
  · rw [positive, eq_of_unpacked_eq (positive.trans unpacked_inf.symm)]
    exact ⟨List.cons_ne_nil _ _, List.all_eq_true.mp rfl, rfl⟩
  · have value : unpacked (-(1.0 / 0.0)) = .infinity .negative := by
      rw [unpacked_neg, unpacked_inf]
      rfl
    rw [negative, eq_of_unpacked_eq (negative.trans value.symm)]
    exact ⟨List.cons_ne_nil _ _, List.all_eq_true.mp rfl, rfl⟩

/-- **Any double is written as a token of it.** -/
theorem isToken_real (x : Float) : IsToken (Layout.configuration.write x) (.real x) := by
  cases h : Reading.shortest Layout.configuration.tie x with
  | nan =>
    rw [Reading.shortest_eq] at h
    cases special : unpacked x <;> rw [special] at h <;> cases h
    exact isToken_special (.inl special)
  | infinity negative =>
    rw [Reading.shortest_eq] at h
    cases special : unpacked x with
    | infinity s => cases s <;> exact isToken_special (by simp [special])
    | _ => rw [special] at h; cases h
  | decimal d =>
    obtain ⟨whole, fraction, spells, text⟩ := exists_spells_of_shortest h
    have some : whole ≠ [] := by
      rcases spells.plain with rfl | ⟨some, _⟩
      · exact List.cons_ne_nil _ _
      · exact some
    have read := number?_point d.negative spells.isDigit_whole (isPlain_of spells.plain) some
      spells.isDigit_fraction spells.fraction_ne_nil
    have number : x ≠ 1.0 / 0.0 := by
      rintro rfl
      rw [Reading.shortest_eq, unpacked_inf] at h
      cases h
    rw [spells.toFloat_eq, Reading.toFloat_of_shortest h] at read
    dsimp only at read
    rw [if_neg number] at read
    rw [text]
    refine isToken_number spells.isDigit_whole some ?_ read
    intro c hc
    rcases List.mem_cons.mp hc with rfl | digit
    · rfl
    · exact isNumeric_of_isDigit (spells.isDigit_fraction c digit)

end Toml

end TrendLadder
