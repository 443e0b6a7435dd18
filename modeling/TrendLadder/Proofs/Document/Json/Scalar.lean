import TrendLadder.Document.Json.Reader
import TrendLadder.Document.Json.Writer
import TrendLadder.Proofs.Number.Written

/-!
# Scalars of JSON read back

In front of the end of a value, what is written for an integer of the format or for a finite double
is read as that number (`number?_writeInt`, `number?_write`), and what is written for a text as that
text (`textBody_flatMap_writeChar`).
-/

namespace TrendLadder

/-! ## Digits with an exponent -/

/-- The digits of a number with an exponent: one of them stands before the point, which is left out
where it is the only one. -/
theorem Layout.scientific_cons (plus : List Char) (d : Char) (ds : List Char) (point : ℤ) :
    scientific plus (d :: ds) point =
      d :: ((if ds = [] then [] else '.' :: ds) ++ 'e' ::
        ((if point - 1 < 0 then ['-'] else plus) ++ Nat.toDigits 10 (point - 1).natAbs)) := by
  cases ds <;> rfl

namespace Json

/-! ## Ends of values -/

/-- The characters that may follow a value inside a container. -/
def isStop (c : Char) : Bool := c = ',' || c = ']' || c = '\x7d'

/-- Whether a value ends where the text begins. -/
def Stops (s : List Char) : Prop := ∀ c ∈ s.head?, isStop c = true

theorem stops_nil : Stops [] := nofun

theorem stops_cons {c : Char} (h : isStop c = true) (s : List Char) : Stops (c :: s) := by
  rintro _ ⟨⟩
  exact h

theorem Stops.isDigit {s : List Char} (h : Stops s) : ∀ c ∈ s.head?, c.isDigit = false := by
  intro c hc
  have stop := h c hc
  simp only [isStop, Bool.or_eq_true, decide_eq_true_eq] at stop
  rcases stop with (rfl | rfl) | rfl <;> rfl

/-! ## Parts of numbers -/

theorem fractionPart_of_stops {s : List Char} (h : Stops s) :
    fractionPart s = some (false, [], s) := by
  unfold fractionPart
  split
  case h_1 => exact absurd (h '.' rfl) (by decide)
  case h_2 => rfl

theorem exponentPart_of_stops {s : List Char} (h : Stops s) :
    exponentPart s = some (false, 0, s) := by
  cases s with
  | nil => rfl
  | cons c rest =>
    have stop := h c rfl
    have mark : ¬(c = 'e' ∨ c = 'E') := by
      rintro (rfl | rfl) <;> cases stop
    rw [exponentPart, if_neg mark]

section

variable {whole fraction rest : List Char}

theorem fractionPart_point (digits : ∀ c ∈ fraction, c.isDigit = true) (some' : fraction ≠ [])
    (ends : ∀ c ∈ rest.head?, c.isDigit = false) :
    fractionPart ('.' :: (fraction ++ rest)) = some (true, fraction, rest) := by
  rw [fractionPart, takeDigits_append digits rest ends]
  exact if_neg some'

theorem exponentPart_mark (e : ℤ) (stops : Stops rest) :
    exponentPart
        ('e' :: ((if e < 0 then ['-'] else ['+']) ++ (Nat.toDigits 10 e.natAbs ++ rest))) =
      some (true, e, rest) := by
  have digits := takeDigits_append (fun c => isDigit_toDigits (n := e.natAbs)) rest stops.isDigit
  have signed : Literal.sign
      ((if e < 0 then ['-'] else ['+']) ++ (Nat.toDigits 10 e.natAbs ++ rest)) =
        (decide (e < 0), Nat.toDigits 10 e.natAbs ++ rest) := by
    by_cases negative : e < 0 <;> simp [negative, Literal.sign]
  rw [exponentPart, if_pos (.inl rfl), signed]
  simp only [digits, if_neg Nat.toDigits_ne_nil, natOfRun_toDigits, decide_eq_true_eq]
  congr 3
  split <;> omega

/-! ## Numbers -/

theorem sign_eq_minus {negative : Bool} {text : List Char} (digits : ∀ c ∈ whole, c.isDigit = true)
    (some' : whole ≠ []) (h : Layout.sign negative ++ (whole ++ rest) = '-' :: text) :
    negative = true ∧ text = whole ++ rest := by
  cases negative with
  | true => exact ⟨rfl, (List.cons.inj h).2.symm⟩
  | false =>
    obtain ⟨c, cs, rfl⟩ := List.exists_cons_of_ne_nil some'
    obtain ⟨rfl, -⟩ := List.cons.inj h
    cases digits '-' List.mem_cons_self

theorem number?_append (negative : Bool) {hasPoint hasExponent : Bool} {exponent : ℤ}
    {tail more : List Char} (digits : ∀ c ∈ whole, c.isDigit = true)
    (plain : whole = ['0'] ∨ whole ≠ [] ∧ whole.head? ≠ some '0')
    (ends : ∀ c ∈ tail.head?, c.isDigit = false)
    (hfraction : fractionPart tail = some (hasPoint, fraction, more))
    (hexponent : exponentPart more = some (hasExponent, exponent, rest)) :
    number? (Layout.sign negative ++ (whole ++ tail)) =
      some (if !hasPoint && !hasExponent && isExact negative (natOfRun whole) then
          .int (if negative then -(natOfRun whole : ℤ) else natOfRun whole)
        else ofDecimal (.ofParts negative whole fraction exponent), rest) := by
  have legal : ¬(whole = [] ∨ whole.head? = some '0' ∧ whole.length ≠ 1) := by
    rcases plain with rfl | ⟨some', head⟩
    · decide
    · exact not_or.mpr ⟨some', fun h => head h.1⟩
  have split' := takeDigits_append digits tail ends
  unfold number?
  split
  rename_i minus body parted
  have same : (minus, body) = (negative, whole ++ tail) := by
    rw [← parted]
    split
    case h_1 heq =>
      obtain ⟨rfl, rfl⟩ := sign_eq_minus digits (not_or.mp legal).1 heq
      rfl
    case h_2 other =>
      cases negative with
      | true => exact absurd rfl (other (whole ++ tail))
      | false => rfl
  obtain ⟨rfl, rfl⟩ := Prod.mk.inj same
  simp only [split', if_neg legal, hfraction, hexponent, Option.bind_eq_bind, Option.bind_some]
  split <;> rfl

/-- **An integer of the format is read as such.** -/
theorem number?_writeInt {n : ℤ} (low : -2 ^ 63 ≤ n) (high : n < 2 ^ 64) (stops : Stops rest) :
    number? (writeInt n ++ rest) = some (.int n, rest) := by
  have number := number?_append (n < 0) (fun c => isDigit_toDigits) (plain_toDigits n.natAbs)
    stops.isDigit (fractionPart_of_stops stops) (exponentPart_of_stops stops)
  have exact : isExact (n < 0) n.natAbs = true := by
    unfold isExact
    have powers : Nat.pow 2 63 = 2 ^ 63 ∧ Nat.pow 2 64 = 2 ^ 64 := ⟨rfl, rfl⟩
    rw [powers.1, powers.2]
    split <;> simp_all <;> omega
  have value : (if decide (n < 0) = true then -(n.natAbs : ℤ) else n.natAbs) = n := by
    simp only [decide_eq_true_eq]
    split <;> omega
  rw [natOfRun_toDigits, exact, value] at number
  rw [writeInt, List.append_assoc, number]
  rfl

theorem ofDecimal_of_isFinite {d : Decimal} (finite : d.toFloat.isFinite = true) :
    ofDecimal d = .real d.toFloat :=
  if_pos finite

/-- Digits around a point are read as the number that they spell. -/
theorem number?_spells {d : Decimal} (h : Spells whole fraction d)
    (finite : d.toFloat.isFinite = true) (stops : Stops rest) :
    number? (Layout.sign d.negative ++ (whole ++ '.' :: fraction ++ rest)) =
      some (.real d.toFloat, rest) := by
  have number := number?_append d.negative h.isDigit_whole h.plain (by simp)
    (fractionPart_point h.isDigit_fraction h.fraction_ne_nil stops.isDigit)
    (exponentPart_of_stops stops)
  rw [List.append_assoc, List.cons_append, number, ← h.toFloat_eq,
    ← ofDecimal_of_isFinite (h.toFloat_eq.symm ▸ finite)]
  rfl

/-- Digits with an exponent are read as the number that they are. -/
theorem number?_scientific (negative : Bool) (n : ℕ) (k : ℤ) (pos : 0 < n)
    (finite : (Decimal.mk negative n k).toFloat.isFinite = true) (stops : Stops rest) :
    number? (Layout.sign negative ++ (Layout.scientific ['+'] (Nat.toDigits 10 n)
      ((Nat.toDigits 10 n).length + k) ++ rest)) =
        some (.real (Decimal.mk negative n k).toFloat, rest) := by
  obtain ⟨d, ds, hds⟩ := List.exists_cons_of_ne_nil (Nat.toDigits_ne_nil (b := 10) (n := n))
  have digits : ∀ c ∈ d :: ds, c.isDigit = true := fun c hc => isDigit_toDigits (hds ▸ hc)
  have first : ∀ c ∈ [d], c.isDigit = true := fun c hc =>
    digits c (List.mem_singleton.mp hc ▸ List.mem_cons_self)
  have leading : d ≠ '0' := fun zero => head_toDigits_ne_zero pos (by rw [hds, zero]; rfl)
  have exponent := exponentPart_mark ((Nat.toDigits 10 n).length + k - 1) stops
  have parts : (Decimal.ofParts negative [d] ds ((Nat.toDigits 10 n).length + k - 1)) =
      ⟨negative, n, k⟩ := by
    rw [Decimal.ofParts, List.singleton_append, ← hds, natOfRun_toDigits, hds, List.length_cons]
    congr 1
    omega
  have read {hasPoint : Bool} {tail more : List Char} (ends : ∀ c ∈ tail.head?, c.isDigit = false)
      (hfraction : fractionPart tail = some (hasPoint, ds, more))
      (hexponent : exponentPart more = some (true, (Nat.toDigits 10 n).length + k - 1, rest)) :
      number? (Layout.sign negative ++ ([d] ++ tail)) =
        some (.real (Decimal.mk negative n k).toFloat, rest) := by
    rw [number?_append negative first (.inr ⟨List.cons_ne_nil _ _, by simpa using leading⟩) ends
      hfraction hexponent, Bool.not_true, Bool.and_false, Bool.false_and, parts,
      ofDecimal_of_isFinite finite]
    rfl
  rw [hds] at exponent read ⊢
  rw [Layout.scientific_cons]
  simp only [List.cons_append, List.append_assoc]
  by_cases alone : ds = []
  · subst alone
    exact read (by simp) rfl exponent
  · rw [if_neg alone]
    refine read (by simp) (fractionPart_point (fun c hc => digits c (List.mem_cons_of_mem d hc))
      alone (by simp)) exponent

/-- **A finite double is read as the double.** -/
theorem number?_write {x : Float} (finite : x.isFinite = true) (stops : Stops rest) :
    number? (Layout.canonical.write x ++ rest) = some (.real x, rest) := by
  obtain ⟨d, hd⟩ := Reading.exists_decimal Layout.canonical.tie finite
  have small := Reading.exponent_le_of_shortest hd
  obtain rfl := Reading.toFloat_of_shortest hd
  obtain ⟨negative, n, k⟩ := d
  rw [Layout.write, hd]
  dsimp only
  rw [List.append_assoc, Layout.writeDecimal]
  by_cases none : n = 0
  · subst none
    exact number?_spells (Decimal.spells_zero negative) finite stops
  · have pos : 0 < n := Nat.pos_of_ne_zero none
    rw [if_neg none]
    split
    case isTrue =>
      obtain ⟨whole, fraction, text, spells⟩ :=
        Decimal.exists_spells_positional negative pos (small pos)
      have read := number?_spells spells finite stops
      rw [← text] at read
      exact read
    case isFalse => exact number?_scientific negative n k pos finite stops

end

/-! ## Texts -/

theorem unit?_control {n : ℕ} (h : n < 0x20) (rest : List Char) :
    unit? ('0' :: '0' :: hexDigit (n / 16) :: hexDigit (n % 16) :: rest) =
      some (some (Char.ofNat n), rest) := by
  have all : ∀ n < 0x20, natOfDigits? 16 ['0', '0', hexDigit (n / 16), hexDigit (n % 16)] =
      some n ∧ isHigh n = false ∧ isLow n = false := by
    decide
  obtain ⟨digits, high, low⟩ := all n h
  simp [unit?, hex4?, digits, high, low]

theorem textBody_writeChar (fuel : ℕ) (seen : List Char) (c : Char) (rest : List Char) :
    textBody (fuel + 1) (some seen) (writeChar c ++ rest) =
      textBody fuel (some (c :: seen)) rest := by
  unfold writeChar
  split_ifs with quote slash back form line carriage tab control
  case pos | pos | pos | pos | pos | pos | pos => subst c; rfl
  case pos =>
    have unit := unit?_control control rest
    rw [Char.ofNat_toNat] at unit
    simp [textBody, unit]
  case neg => simp [textBody, quote, slash, control]

/-- **What is written for a text is read as the text.** -/
theorem textBody_flatMap_writeChar {fuel : ℕ} {cs : List Char} (enough : cs.length < fuel)
    (seen rest : List Char) :
    textBody fuel (some seen) (cs.flatMap writeChar ++ '"' :: rest) =
      some (some (seen.reverse ++ cs), rest) := by
  induction cs generalizing fuel seen with
  | nil =>
    obtain ⟨fuel, rfl⟩ := Nat.exists_eq_succ_of_ne_zero (Nat.ne_of_gt enough)
    simp [textBody]
  | cons c cs ih =>
    obtain ⟨fuel, rfl⟩ := Nat.exists_eq_succ_of_ne_zero (Nat.ne_of_gt (Nat.zero_lt_of_lt enough))
    rw [List.flatMap_cons, List.append_assoc, textBody_writeChar,
      ih (Nat.lt_of_succ_lt_succ enough), List.reverse_cons, List.append_assoc,
      List.singleton_append]

/-- No character is written as nothing. -/
theorem length_le_flatMap_writeChar (cs : List Char) :
    cs.length ≤ (cs.flatMap writeChar).length := by
  induction cs with
  | nil => exact le_rfl
  | cons c cs ih =>
    have some : 0 < (writeChar c).length := by
      unfold writeChar
      split_ifs <;> exact Nat.zero_lt_succ _
    rw [List.flatMap_cons, List.length_append, List.length_cons]
    omega

end Json

end TrendLadder
