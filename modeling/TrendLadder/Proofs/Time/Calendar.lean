import Mathlib.Tactic.IntervalCases
import TrendLadder.Proofs.Time.Date
import TrendLadder.Time.Timestamp

/-!
# The calendar in order

Dates are ordered by year, month and day, and on dates of the calendar that is the order of their
numbers (`Date.lt_iff_toDays_lt`). The date of a timestamp (`Timestamp.date`) is the only one of the
calendar whose day, from midnight to midnight of universal time, the timestamp falls in
(`Timestamp.fallsOn_iff`), before 1970 as well as after it. So the dates of timestamps are ordered
as their day numbers (`Timestamp.date_lt_iff`).
-/

namespace TrendLadder

namespace Date

/-- Earlier in the calendar: by year, then by month, then by day. -/
protected def lt (a b : Date) : Prop :=
  a.year < b.year ∨
    a.year = b.year ∧ (a.month < b.month ∨ a.month = b.month ∧ a.day < b.day)

instance : LT Date := ⟨Date.lt⟩

theorem lt_iff {a b : Date} : a < b ↔ a.year < b.year ∨
    a.year = b.year ∧ (a.month < b.month ∨ a.month = b.month ∧ a.day < b.day) := Iff.rfl

theorem not_lt {a b : Date} : ¬a < b ↔ b < a ∨ b = a := by
  obtain ⟨_, _, _⟩ := a
  obtain ⟨_, _, _⟩ := b
  simp only [lt_iff, Date.mk.injEq]
  omega

/-! ## Years from March -/

/-- The year of a date where each year begins in March. -/
def marchYear (d : Date) : ℤ := if d.month ≤ 2 then d.year - 1 else d.year

/-- The month of a date, counted from March. -/
def marchMonth (d : Date) : ℤ := (d.month + 9) % 12

/-- The days from 0000-03-01 to the first of March of a year. -/
def yearStart (year : ℤ) : ℤ := year * 365 + year / 4 - year / 100 + year / 400

/-- The days of a year from March. The leap day that ends it is that of the calendar year after. -/
def yearLength (year : ℤ) : ℤ := if isLeap (year + 1) then 366 else 365

/-- The days from the first of March to the first of a month, counted from March. -/
def monthStart (month : ℤ) : ℤ := (153 * month + 2) / 5

theorem toDays_eq (d : Date) :
    d.toDays = yearStart d.marchYear + (monthStart d.marchMonth + d.day - 1) - marchOffset := by
  have eras (year : ℤ) : yearStart year = year / 400 * eraDays +
      (year % 400 * 365 + year % 400 / 4 - year % 400 / 100) := by
    unfold yearStart eraDays
    omega
  rw [eras]
  unfold toDays marchYear monthStart marchMonth
  dsimp only
  omega

theorem yearStart_succ (year : ℤ) : yearStart (year + 1) = yearStart year + yearLength year := by
  unfold yearStart yearLength isLeap
  simp only [Bool.and_eq_true, Bool.or_eq_true, decide_eq_true_eq]
  split <;> omega

theorem yearStart_mono {a b : ℤ} (h : a ≤ b) : yearStart a ≤ yearStart b := by
  unfold yearStart
  omega

theorem monthStart_mono {a b : ℤ} (h : a ≤ b) : monthStart a ≤ monthStart b := by
  unfold monthStart
  omega

/-- A month other than February ends where the next one starts. -/
theorem monthStart_succ {d : Date} (january : 1 ≤ d.month) (december : d.month ≤ 12)
    (notFebruary : d.month ≠ 2) : d.marchMonth < 11 ∧
      monthStart (d.marchMonth + 1) = monthStart d.marchMonth + daysInMonth d.year d.month := by
  obtain ⟨year, month, day⟩ := d
  unfold marchMonth
  dsimp only at *
  interval_cases month <;> simp_all [monthStart, daysInMonth]

/-- February ends where its year from March ends, with or without a leap day. -/
theorem yearLength_of_february {d : Date} (february : d.month = 2) : d.marchMonth = 11 ∧
    yearLength d.marchYear = monthStart d.marchMonth + daysInMonth d.year d.month := by
  obtain ⟨year, month, day⟩ := d
  obtain rfl : month = 2 := february
  refine ⟨rfl, ?_⟩
  simp only [yearLength, marchYear, marchMonth, monthStart, daysInMonth, if_pos (Nat.le_refl 2),
    Int.sub_add_cancel]
  split <;> rfl

theorem day_le {d : Date} (valid : d.isValid = true) :
    d.marchMonth < 11 ∧ monthStart d.marchMonth + d.day ≤ monthStart (d.marchMonth + 1) ∨
      d.marchMonth = 11 ∧ monthStart d.marchMonth + d.day ≤ yearLength d.marchYear := by
  obtain ⟨january, december, -, -⟩ := bounds_of_isValid valid
  have inMonth : d.day ≤ daysInMonth d.year d.month := by
    simp only [isValid, Bool.and_eq_true, decide_eq_true_eq] at valid
    exact valid.2
  by_cases february : d.month = 2
  · obtain ⟨last, ends⟩ := yearLength_of_february february
    exact .inr ⟨last, by omega⟩
  · obtain ⟨early, ends⟩ := monthStart_succ january december february
    exact .inl ⟨early, by omega⟩

theorem day_le_yearLength {d : Date} (valid : d.isValid = true) :
    monthStart d.marchMonth + d.day ≤ yearLength d.marchYear := by
  rcases day_le valid with ⟨early, inMonth⟩ | ⟨-, inYear⟩
  · have last : monthStart (d.marchMonth + 1) ≤ 337 := monthStart_mono (b := 11) (by omega)
    have shortest : 365 ≤ yearLength d.marchYear := by
      unfold yearLength
      split <;> omega
    omega
  · exact inYear

/-! ## The order of dates and their numbers -/

/-- January and February are the last months of a year from March, so the order may be read off the
years from March, the months from March and the days. -/
theorem march_lt {a b : Date} (validA : a.isValid = true) (validB : b.isValid = true)
    (earlier : a < b) : a.marchYear < b.marchYear ∨ a.marchYear = b.marchYear ∧
      (a.marchMonth < b.marchMonth ∨ a.marchMonth = b.marchMonth ∧ a.day < b.day) := by
  obtain ⟨januaryA, decemberA, -, -⟩ := bounds_of_isValid validA
  obtain ⟨januaryB, decemberB, -, -⟩ := bounds_of_isValid validB
  rw [lt_iff] at earlier
  unfold marchYear marchMonth
  split <;> split <;> omega

theorem toDays_lt_toDays {a b : Date} (validA : a.isValid = true) (validB : b.isValid = true)
    (earlier : a < b) : a.toDays < b.toDays := by
  obtain ⟨-, -, firstDay, -⟩ := bounds_of_isValid validB
  have firstMonth : 1 ≤ monthStart b.marchMonth + b.day := by
    unfold monthStart marchMonth
    omega
  rw [toDays_eq, toDays_eq]
  rcases march_lt validA validB earlier with year | ⟨year, month | ⟨month, day⟩⟩
  · have inYear := day_le_yearLength validA
    have next := yearStart_succ a.marchYear
    have years := yearStart_mono (a := a.marchYear + 1) (b := b.marchYear) year
    omega
  · have inMonth : monthStart a.marchMonth + a.day ≤ monthStart (a.marchMonth + 1) := by
      rcases day_le validA with ⟨-, inMonth⟩ | ⟨last, -⟩
      · exact inMonth
      · unfold marchMonth at last month
        omega
    have months := monthStart_mono (a := a.marchMonth + 1) (b := b.marchMonth) month
    rw [year]
    omega
  · rw [year, month]
    omega

/-- On dates of the calendar the order is that of their numbers. -/
theorem lt_iff_toDays_lt {a b : Date} (validA : a.isValid = true) (validB : b.isValid = true) :
    a < b ↔ a.toDays < b.toDays := by
  refine ⟨toDays_lt_toDays validA validB, fun earlier => ?_⟩
  by_contra notEarlier
  rcases not_lt.mp notEarlier with later | rfl
  · exact Int.lt_asymm earlier (toDays_lt_toDays validB validA later)
  · exact Int.lt_irrefl _ earlier

theorem eq_of_toDays_eq {a b : Date} (validA : a.isValid = true) (validB : b.isValid = true)
    (same : a.toDays = b.toDays) : a = b := by
  have notEarlier : ¬a < b := fun earlier =>
    Int.ne_of_lt (toDays_lt_toDays validA validB earlier) same
  have notLater : ¬b < a := fun later =>
    Int.ne_of_gt (toDays_lt_toDays validB validA later) same
  exact ((not_lt.mp notEarlier).resolve_left notLater).symm

end Date

namespace Timestamp

/-- The calendar date of a timestamp in universal time. -/
def date (t : Timestamp) : Date := .ofDays t.day

theorem isValid_date (t : Timestamp) : t.date.isValid = true := Date.isValid_ofDays _

@[simp] theorem toDays_date (t : Timestamp) : t.date.toDays = t.day := Date.toDays_ofDays _

/-- The timestamp is on a date of the calendar: not before its midnight and before the next one. -/
structure FallsOn (t : Timestamp) (d : Date) : Prop where
  valid : d.isValid = true
  notBefore : d.toDays * daySeconds ≤ t.seconds
  before : t.seconds < (d.toDays + 1) * daySeconds

/-- A timestamp falls on its date and on no other. -/
theorem fallsOn_iff {t : Timestamp} {d : Date} : t.FallsOn d ↔ d = t.date := by
  constructor
  · rintro ⟨valid, notBefore, before⟩
    apply Date.eq_of_toDays_eq valid t.isValid_date
    rw [toDays_date, day]
    unfold daySeconds at *
    omega
  · rintro rfl
    refine ⟨t.isValid_date, ?_, ?_⟩ <;>
    · rw [toDays_date, day]
      unfold daySeconds
      omega

theorem date_lt_iff {t u : Timestamp} : t.date < u.date ↔ t.day < u.day := by
  rw [Date.lt_iff_toDays_lt t.isValid_date u.isValid_date, toDays_date, toDays_date]

end Timestamp

end TrendLadder
