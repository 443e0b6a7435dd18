import Mathlib.Data.Nat.Digits.Defs
import TrendLadder.Proofs.Text.Digits
import TrendLadder.Proofs.Time.Date
import TrendLadder.Time.Codec

/-!
# Timestamps read back

A timestamp of the years 0 to 9999 that is no leap second is read back from the text that documents
use (`Timestamp.read_write`). Each scanner reads what the writer of the same part puts in front of
any rest, so the parts follow one another in the text as they do in `Timestamp.scan`.
-/

namespace TrendLadder

/-! ## Steps of a scan -/

namespace Scan

variable {α β : Type} {s rest : List Char}

theorem bind_of {step : Scan α} {a : α} (h : step s = some (a, rest)) (next : α → Scan β) :
    (step >>= next) s = next a rest := by
  show (step s).bind (fun r => next r.1 r.2) = _
  rw [h]
  rfl

theorem one_cons {p : Char → Bool} {c : Char} (h : p c = true) (s : List Char) :
    one p (c :: s) = some (c, s) := by
  rw [one, if_pos h]

theorem expect_cons (c : Char) (s : List Char) : expect c (c :: s) = some ((), s) := by
  rw [expect, if_pos rfl]

theorem guarded_true {b : Bool} (h : b = true) (s : List Char) :
    guarded b s = some ((), s) := by
  rw [guarded, if_pos h]

/-- A run of digits is read to its end, which is where it has as many digits as may be read or
where no digit follows. -/
theorem digits_append {most : ℕ} {ds : List Char} (run : ∀ c ∈ ds, c.isDigit = true)
    (some' : ds ≠ []) (short : ds.length ≤ most)
    (ends : ds.length = most ∨ ∀ c ∈ rest.head?, c.isDigit = false) :
    digits most (ds ++ rest) = some (ds, rest) := by
  have taken : ((ds ++ rest).take most).takeWhile Char.isDigit = ds := by
    rw [List.take_append, List.take_of_length_le short]
    refine (takeWhile_dropWhile_append run _ ?_).1
    rcases ends with full | stop
    · rw [full, Nat.sub_self]
      exact nofun
    · cases rest with
      | nil => simp
      | cons c cs =>
        intro d hd
        cases count : most - ds.length with
        | zero =>
          rw [count] at hd
          cases hd
        | succ k =>
          rw [count] at hd
          exact stop d hd
  unfold digits
  simp only [taken, if_neg some', List.drop_left]

end Scan

namespace Timestamp

open Scan

/-! ## Runs of a fixed width -/

theorem padded_spec {width n : ℕ} (positive : 0 < width) (small : n < 10 ^ width) :
    (∀ c ∈ padded width n, c.isDigit = true) ∧ (padded width n).length = width ∧
      natOfRun (padded width n) = n := by
  have length := Nat.toDigits_length 10 n width positive small
  refine ⟨?_, ?_, ?_⟩
  · intro c hc
    rcases List.mem_append.mp hc with zero | digit
    · rw [List.eq_of_mem_replicate zero]
      rfl
    · exact isDigit_toDigits digit
  · rw [padded, List.length_append, List.length_replicate]
    omega
  · rw [padded, natOfRun_zeros_append, natOfRun_toDigits]

theorem padded_cons {width n : ℕ} (positive : 0 < width) (small : n < 10 ^ width) :
    ∃ d ds, padded width n = d :: ds ∧ d.isDigit = true := by
  obtain ⟨run, length, -⟩ := padded_spec positive small
  cases spelled : padded width n with
  | nil =>
    rw [spelled] at length
    rw [← length] at positive
    cases positive
  | cons d ds => exact ⟨d, ds, rfl, run d (by rw [spelled]; exact List.mem_cons_self)⟩

theorem digits_padded {width n : ℕ} (positive : 0 < width) (small : n < 10 ^ width)
    (rest : List Char) :
    digits width (padded width n ++ rest) = some (padded width n, rest) := by
  obtain ⟨run, length, -⟩ := padded_spec positive small
  refine digits_append run ?_ (Nat.le_of_eq length) (.inl length)
  intro none
  rw [none] at length
  rw [← length] at positive
  cases positive

/-! ## Blanks, of which there are none -/

theorem blanks_cons {c : Char} (h : isBlank c = false) (s : List Char) :
    blanks (c :: s) = some ((), c :: s) := by
  have stop : ¬isBlank c = true := by simp [h]
  show some ((), (c :: s).dropWhile isBlank) = _
  rw [List.dropWhile_cons_of_neg stop]

theorem isBlank_of_isDigit {c : Char} (h : c.isDigit = true) : isBlank c = false := by
  have bounds : 48 ≤ c.toNat ∧ c.toNat ≤ 57 := by
    simpa [Char.isDigit, UInt32.le_iff_toNat_le] using h
  simp [isBlank, blankRanges]
  omega

theorem blanks_padded {width n : ℕ} (positive : 0 < width) (small : n < 10 ^ width)
    (rest : List Char) :
    blanks (padded width n ++ rest) = some ((), padded width n ++ rest) := by
  obtain ⟨d, ds, spelled, digit⟩ := padded_cons positive small
  rw [spelled, List.cons_append]
  exact blanks_cons (isBlank_of_isDigit digit) _

/-! ## The parts -/

theorem scanPair_padded {n : ℕ} (small : n < 100) (rest : List Char) :
    scanPair (padded 2 n ++ rest) = some (n, rest) := by
  have small : n < 10 ^ 2 := small
  rw [scanPair, bind_of (blanks_padded (by decide) small rest),
    bind_of (digits_padded (by decide) small rest)]
  show some (natOfRun (padded 2 n), rest) = _
  rw [(padded_spec (by decide) small).2.2]

theorem scanMark_cons {c : Char} (solid : isBlank c = false) (rest : List Char) :
    scanMark c (c :: rest) = some ((), rest) := by
  rw [scanMark, bind_of (blanks_cons solid rest), expect_cons]

theorem accept_cons_of_ne {c d : Char} (h : d ≠ c) (s : List Char) :
    accept c (d :: s) = some (false, d :: s) := by
  rw [accept, if_neg h]

theorem scanYear_writeYear {year : ℤ} (low : 0 ≤ year) (high : year ≤ 9999) (rest : List Char) :
    scanYear (writeYear year ++ rest) = some (year, rest) := by
  have small : year.toNat < 10 ^ 4 := by omega
  obtain ⟨d, ds, spelled, digit⟩ := padded_cons (by decide) small
  have minus : accept '-' (padded 4 year.toNat ++ rest) =
      some (false, padded 4 year.toNat ++ rest) := by
    rw [spelled]
    exact accept_cons_of_ne (ne_of_class digit rfl) _
  have plus : accept '+' (padded 4 year.toNat ++ rest) =
      some (false, padded 4 year.toNat ++ rest) := by
    rw [spelled]
    exact accept_cons_of_ne (ne_of_class digit rfl) _
  rw [writeYear, if_pos ⟨low, high⟩, scanYear, bind_of (blanks_padded (by decide) small rest),
    bind_of minus]
  show (accept '+' >>= _) (padded 4 year.toNat ++ rest) = _
  rw [bind_of plus]
  show (digits 4 >>= _) (padded 4 year.toNat ++ rest) = _
  rw [bind_of (digits_padded (by decide) small rest)]
  show some ((natOfRun (padded 4 year.toNat) : ℤ), rest) = _
  rw [(padded_spec (by decide) small).2.2, Int.toNat_of_nonneg low]

theorem scanDate_writeDate {d : Date} (valid : d.isValid = true) (low : 0 ≤ d.year)
    (high : d.year ≤ 9999) (rest : List Char) :
    scanDate (writeDate d ++ rest) = some (d, rest) := by
  obtain ⟨year, month, day⟩ := d
  obtain ⟨-, december, -, longest⟩ := Date.bounds_of_isValid valid
  have month' : month < 100 := Nat.lt_of_le_of_lt december (by decide)
  have day' : day < 100 := Nat.lt_of_le_of_lt longest (by decide)
  rw [writeDate, List.append_assoc, List.cons_append, List.append_assoc, List.cons_append, scanDate,
    bind_of (scanYear_writeYear low high _), bind_of (scanMark_cons rfl _),
    bind_of (scanPair_padded month' _), bind_of (scanMark_cons rfl _),
    bind_of (scanPair_padded day' _)]
  dsimp only
  rw [bind_of (guarded_true valid _)]
  rfl

/-- The digits of a fraction, of which there are at most nine. -/
theorem scanFraction_padded {width n : ℕ} (positive : 0 < width) (nine : width ≤ 9)
    (small : n < 10 ^ width) {c : Char} (stop : c.isDigit = false) (rest : List Char) :
    scanFraction ('.' :: (padded width n ++ c :: rest)) =
      some (n * 10 ^ (9 - width), c :: rest) := by
  obtain ⟨run, length, value⟩ := padded_spec positive small
  have point : accept '.' ('.' :: (padded width n ++ c :: rest)) =
      some (true, padded width n ++ c :: rest) := by
    rw [accept, if_pos rfl]
  have some' : padded width n ≠ [] := by
    intro none
    rw [none] at length
    rw [← length] at positive
    cases positive
  have noDigit : ∀ d ∈ (c :: rest).head?, d.isDigit = false := by
    intro d hd
    cases hd
    exact stop
  have none : span Char.isDigit (c :: rest) = some ([], c :: rest) := by
    have noMore : ¬c.isDigit = true := by simp [stop]
    rw [span, List.takeWhile_cons_of_neg noMore, List.dropWhile_cons_of_neg noMore]
  rw [scanFraction, bind_of point]
  show (digits 9 >>= _) (padded width n ++ c :: rest) = _
  rw [bind_of (digits_append run some' (length.trans_le nine) (.inr noDigit)), bind_of none]
  show some (natOfRun (padded width n) * 10 ^ (9 - (padded width n).length), c :: rest) = _
  rw [value, length]

theorem scanFraction_writeFraction {nanos : ℕ} (small : nanos < secondNanos) {c : Char}
    (stop : c.isDigit = false) (noPoint : c ≠ '.') (rest : List Char) :
    scanFraction (writeFraction nanos ++ c :: rest) = some (nanos, c :: rest) := by
  have small : nanos < 1000000000 := small
  unfold writeFraction
  split
  · next zero =>
    rw [List.nil_append, scanFraction, bind_of (accept_cons_of_ne noPoint rest), zero]
    rfl
  · split
    · next millis =>
      rw [List.cons_append, scanFraction_padded (by decide) (by decide) (by omega) stop rest]
      congr 2
      omega
    · split
      · next micros =>
        rw [List.cons_append, scanFraction_padded (by decide) (by decide) (by omega) stop rest]
        congr 2
        omega
      · rw [List.cons_append, scanFraction_padded (by decide) (by decide) small stop rest]
        congr 2
        omega

theorem scanTime_writeTime {second nanos : ℕ} (inDay : second < 86400)
    (small : nanos < secondNanos) {c : Char} (stop : c.isDigit = false) (noPoint : c ≠ '.')
    (rest : List Char) :
    scanTime (writeTime second nanos ++ c :: rest) = some ((second, nanos), c :: rest) := by
  have whole : ¬secondNanos ≤ nanos := Nat.not_le_of_lt small
  have fraction := scanFraction_writeFraction small stop noPoint rest
  have valid : (second / 3600 < 24 && second / 60 % 60 < 60 && second % 60 ≤ 60 : Bool) = true := by
    simp only [Bool.and_eq_true, decide_eq_true_eq]
    omega
  have noLeap : ¬second % 60 = 60 := by omega
  have sum : second / 3600 * 3600 + second / 60 % 60 * 60 + second % 60 = second := by omega
  unfold writeTime
  simp only [if_neg whole, List.append_assoc, List.cons_append, Nat.add_zero]
  rw [scanTime, bind_of (scanPair_padded (by omega) _), bind_of (scanMark_cons rfl _),
    bind_of (scanPair_padded (by omega) _), bind_of (scanMark_cons rfl _),
    bind_of (scanPair_padded (by omega) _), bind_of fraction, bind_of (guarded_true valid _),
    if_neg noLeap, sum]
  rfl

/-! ## Whole timestamps -/

/-- A timestamp that documents write with a plain date and time: its year has four digits and it is
no leap second. -/
structure IsPlain (t : Timestamp) : Prop where
  low : 0 ≤ (Date.ofDays t.day).year
  high : (Date.ofDays t.day).year ≤ 9999
  nanos : t.nanos < secondNanos

theorem inCalendar_of_year {seconds : ℤ} (low : 0 ≤ (Date.ofDays (seconds / daySeconds)).year)
    (high : (Date.ofDays (seconds / daySeconds)).year ≤ 9999) : inCalendar seconds = true := by
  have bounds := Date.toDays_bounds (Date.isValid_ofDays _) low high
  have first : Date.toDays ⟨firstYear, 1, 1⟩ ≤ -2000000 := by decide
  have last : 5000000 ≤ Date.toDays ⟨lastYear + 1, 1, 1⟩ := by decide
  rw [Date.toDays_ofDays] at bounds
  unfold daySeconds at bounds
  refine Bool.and_eq_true_iff.mpr ⟨decide_eq_true ?_, decide_eq_true ?_⟩
  · unfold daySeconds
    omega
  · unfold daySeconds
    omega

theorem scan_writeWith {t : Timestamp} (plain : t.IsPlain) :
    scan (writeWith 'T' ['Z'] t) = some (t, []) := by
  have secondOfDay : (t.secondOfDay : ℤ) = t.seconds % daySeconds :=
    Int.toNat_of_nonneg (Int.emod_nonneg _ (by decide))
  have inDay : t.secondOfDay < 86400 := by
    have below : t.seconds % daySeconds < 86400 := Int.emod_lt_of_pos _ (by decide)
    omega
  have here : (Date.ofDays t.day).toDays * daySeconds + t.secondOfDay = t.seconds := by
    rw [Date.toDays_ofDays, secondOfDay]
    exact Int.ediv_mul_add_emod _ _
  have valid : (inCalendar t.seconds && inCalendar (t.seconds - 0)) = true := by
    rw [Int.sub_zero, inCalendar_of_year plain.low plain.high]
    rfl
  have ends : scanOffset ['Z'] = some (0, []) := rfl
  have finished : blanks [] = some ((), []) := rfl
  have nothing : atEnd [] = some ((), []) := rfl
  rw [scan, writeWith,
    bind_of (scanDate_writeDate (Date.isValid_ofDays _) plain.low plain.high _),
    bind_of (one_cons rfl _), bind_of (scanTime_writeTime inDay plain.nanos rfl (by decide) [])]
  dsimp only
  rw [bind_of ends, bind_of finished, bind_of nothing, here, bind_of (guarded_true valid _),
    Int.sub_zero]
  rfl

/-- A plain timestamp is read back from its text. -/
theorem read_write {t : Timestamp} (plain : t.IsPlain) : read t.write = some t := by
  rw [read, write, String.toList_ofList, scan_writeWith plain]
  rfl

theorem decode_encode {t : Timestamp} (plain : t.IsPlain) : decode t.encode = some t := by
  have told : t.encode.text? = some t.write := rfl
  rw [decode, told, Option.bind_some, read_write plain]

end Timestamp

end TrendLadder
