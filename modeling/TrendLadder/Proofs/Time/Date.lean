import Mathlib.Tactic.IntervalCases
import TrendLadder.Time.Date

/-!
# Dates and their numbers

`Date.ofDays` gives a date of the calendar (`isValid_ofDays`) with the number that it was made from
(`toDays_ofDays`). Both go by the place of a day in its era (`EraPlace`): three centuries of 36524
days and one of 36525, in each of them groups of four years of 1461 days but for the last group of
the first three centuries, and in each group three years of 365 days and one of 366. All years begin
in March, so that a leap day is the last day of its year.
-/

namespace TrendLadder

namespace Date

/-! ## The place of a day in its era -/

/-- A day of an era by century, group of four years, year and day, all counted from zero. -/
structure EraPlace (dayOfEra century group year day : ℤ) : Prop where
  inEra : 0 ≤ century ∧ century ≤ 3
  inCentury : 0 ≤ group ∧ group ≤ 24
  inGroup : 0 ≤ year ∧ year ≤ 3
  inYear : 0 ≤ day ∧ day ≤ 365
  /-- Only the last year of a group has a leap day, and that of a century only in the last one. -/
  leap : day = 365 → year = 3 ∧ (group = 24 → century = 3)
  sum : dayOfEra = 36524 * century + 1461 * group + 365 * year + day

theorem exists_eraPlace {d : ℤ} (low : 0 ≤ d) (high : d < eraDays) :
    ∃ century group year day, EraPlace d century group year day := by
  have high : d < 146097 := high
  obtain ⟨c, hc⟩ : ∃ c, c = min (d / 36524) 3 := ⟨_, rfl⟩
  obtain ⟨g, hg⟩ : ∃ g, g = (d - 36524 * c) / 1461 := ⟨_, rfl⟩
  obtain ⟨y, hy⟩ : ∃ y, y = min ((d - 36524 * c - 1461 * g) / 365) 3 := ⟨_, rfl⟩
  have century : 0 ≤ c ∧ c ≤ 3 := by omega
  have rest : 0 ≤ d - 36524 * c ∧ d - 36524 * c ≤ 36524 ∧ (d - 36524 * c = 36524 → c = 3) := by
    omega
  refine ⟨c, g, y, d - 36524 * c - 1461 * g - 365 * y, century, by omega, by omega, ?_, ?_, ?_⟩
  · omega
  · omega
  · omega

namespace EraPlace

variable {d century group year day : ℤ}

theorem yearOfEra (h : EraPlace d century group year day) :
    (d - d / 1460 + d / 36524 - d / 146096) / 365 = 100 * century + 4 * group + year := by
  obtain ⟨hc, hg, hy, hd, leap, sum⟩ := h
  have quads : d / 1460 = 25 * century + group ∧ 24 * century + group + 365 * year + day < 1460 ∨
      d / 1460 = 25 * century + group + 1 ∧ 1460 ≤ 24 * century + group + 365 * year + day := by
    omega
  have rest : 1461 * group + 365 * year + day ≤ 36523 ∨
      1461 * group + 365 * year + day = 36524 ∧ century = 3 := by
    by_cases last : day = 365 ∧ group = 24
    · right
      obtain ⟨atEnd, whole⟩ := leap last.1
      have century := whole last.2
      omega
    · left
      omega
  have centuries : d / 36524 - d / 146096 = century := by
    rcases rest with inside | ⟨last, final⟩
    · have within : d / 36524 = century := by omega
      have early : d / 146096 = 0 := by omega
      omega
    · have whole : d = 146096 := by omega
      rw [whole, final]
      rfl
  omega

theorem yearStart (h : EraPlace d century group year day) :
    d - (365 * (100 * century + 4 * group + year) + (100 * century + 4 * group + year) / 4 -
      (100 * century + 4 * group + year) / 100) = day := by
  obtain ⟨hc, hg, hy, hd, leap, sum⟩ := h
  have quads : (100 * century + 4 * group + year) / 4 = 25 * century + group := by omega
  have centuries : (100 * century + 4 * group + year) / 100 = century := by omega
  omega

end EraPlace

/-! ## Months from March -/

/-- A date by its year, its month, both from March and the month counted from zero, and its day. -/
def ofMarch (year month day : ℤ) : Date where
  year := year + if month < 10 then 0 else 1
  month := (if month < 10 then month + 3 else month - 9).toNat
  day := day.toNat

theorem ofDays_eq {days century group year day : ℤ}
    (h : EraPlace ((days + marchOffset) % eraDays) century group year day) :
    ofDays days =
      ofMarch (100 * century + 4 * group + year + (days + marchOffset) / eraDays * 400)
        ((5 * day + 2) / 153) (day - (153 * ((5 * day + 2) / 153) + 2) / 5 + 1) := by
  unfold ofDays ofMarch
  dsimp only
  rw [h.yearOfEra, h.yearStart]
  have low : 0 ≤ (5 * day + 2) / 153 ∧ (5 * day + 2) / 153 ≤ 11 := by
    have bounds := h.inYear
    omega
  by_cases spring : (5 * day + 2) / 153 < 10
  · rw [if_pos spring, if_pos spring, if_neg (by omega)]
  · rw [if_neg spring, if_neg spring, if_pos (by omega)]

theorem toDays_ofMarch {year month day : ℤ} (low : 0 ≤ month) (high : month ≤ 11)
    (first : 1 ≤ day) :
    (ofMarch year month day).toDays = year / 400 * eraDays +
      (year % 400 * 365 + year % 400 / 4 - year % 400 / 100 +
        ((153 * month + 2) / 5 + day - 1)) - marchOffset := by
  have days : (day.toNat : ℤ) = day := Int.toNat_of_nonneg (by omega)
  by_cases spring : month < 10
  · have later : ¬(month + 3).toNat ≤ 2 := by omega
    have back : ((month + 3).toNat + 9 : ℤ) % 12 = month := by omega
    simp only [toDays, ofMarch, if_pos spring, if_neg later, back, days, Int.add_zero]
  · have early : (month - 9).toNat ≤ 2 := by omega
    have back : ((month - 9).toNat + 9 : ℤ) % 12 = month := by omega
    simp only [toDays, ofMarch, if_neg spring, if_pos early, back, days, Int.add_sub_cancel]

theorem isValid_ofMarch {year month day : ℤ} (low : 0 ≤ month) (high : month ≤ 11)
    (first : 1 ≤ day) (inMonth : (153 * month + 2) / 5 + day - 1 < (153 * (month + 1) + 2) / 5)
    (february : month = 11 → day ≤ 28 ∨ day = 29 ∧ isLeap (year + 1) = true) :
    (ofMarch year month day).isValid = true := by
  by_cases last' : month = 11
  · subst last'
    have inFebruary : day ≤ if isLeap (year + 1) = true then 29 else 28 := by
      rcases february rfl with short | ⟨rfl, leap⟩
      · split <;> omega
      · rw [if_pos leap]
    simp [isValid, ofMarch, daysInMonth, inFebruary]
    omega
  · clear february
    interval_cases month <;> simp [isValid, ofMarch, daysInMonth] <;> omega

/-! ## Days and dates -/

theorem exists_place (days : ℤ) : ∃ century group year day,
    EraPlace ((days + marchOffset) % eraDays) century group year day :=
  exists_eraPlace (Int.emod_nonneg _ (by decide)) (Int.emod_lt_of_pos _ (by decide))

theorem toDays_ofDays (days : ℤ) : (ofDays days).toDays = days := by
  obtain ⟨century, group, year, day, place⟩ := exists_place days
  have whole : days + 719468 = 146097 * ((days + marchOffset) / eraDays) +
      (days + marchOffset) % eraDays := (Int.mul_ediv_add_emod _ _).symm
  rw [ofDays_eq place]
  obtain ⟨hc, hg, hy, hd, leap, sum⟩ := place
  rw [sum] at whole
  generalize (days + marchOffset) / eraDays = era at whole ⊢
  rw [toDays_ofMarch (by omega) (by omega) (by omega)]
  have era400 : (100 * century + 4 * group + year + era * 400) / 400 = era := by omega
  have inEra : (100 * century + 4 * group + year + era * 400) % 400 =
      100 * century + 4 * group + year := by omega
  rw [era400, inEra]
  unfold eraDays marchOffset
  omega

theorem isValid_ofDays (days : ℤ) : (ofDays days).isValid = true := by
  obtain ⟨century, group, year, day, place⟩ := exists_place days
  rw [ofDays_eq place]
  obtain ⟨hc, hg, hy, hd, leap, sum⟩ := place
  apply isValid_ofMarch
  · omega
  · omega
  · omega
  · omega
  · intro february
    by_cases short : day ≤ 364
    · left
      omega
    · right
      have last : day = 365 := by omega
      obtain ⟨fourth, whole⟩ := leap last
      refine ⟨by omega, ?_⟩
      unfold isLeap
      by_cases final : group = 24
      · have fourth' := whole final
        simp
        omega
      · simp
        omega

/-! ## Bounds -/

theorem bounds_of_isValid {d : Date} (valid : d.isValid = true) :
    1 ≤ d.month ∧ d.month ≤ 12 ∧ 1 ≤ d.day ∧ d.day ≤ 31 := by
  have longest : daysInMonth d.year d.month ≤ 31 := by
    unfold daysInMonth
    split
    · split <;> omega
    · omega
    · omega
    · omega
    · omega
    · exact Nat.le_refl 31
  simp only [isValid, Bool.and_eq_true, decide_eq_true_eq] at valid
  omega

/-- The dates of the years of four digits are within a million days before 1970 and four million
after it. -/
theorem toDays_bounds {d : Date} (valid : d.isValid = true) (low : 0 ≤ d.year)
    (high : d.year ≤ 9999) : -1000000 ≤ d.toDays ∧ d.toDays ≤ 4000000 := by
  obtain ⟨firstMonth, lastMonth, firstDay, lastDay⟩ := bounds_of_isValid valid
  unfold toDays eraDays marchOffset
  dsimp only
  by_cases early : d.month ≤ 2
  · rw [if_pos early]
    omega
  · rw [if_neg early]
    omega

end Date

end TrendLadder
