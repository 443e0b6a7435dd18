import TrendLadder.Text.Blank
import TrendLadder.Text.Digits
import TrendLadder.Text.Scan
import TrendLadder.Time.Date

/-!
# Timestamps

A timestamp is an instant of universal time with nanoseconds. Timestamps are ordered by time,
`Timestamp.day` is the number of their calendar date, and they are read from and written as text
with a date, a time of day and an offset.
-/

namespace TrendLadder

/-- An instant: seconds since 1970-01-01T00:00:00Z and nanoseconds after that second. A leap
second is written as a second 59 with at least `10 ^ 9` nanoseconds. -/
structure Timestamp where
  seconds : Int
  nanos : Nat
deriving DecidableEq, Repr, Inhabited

namespace Timestamp

/-- Earlier in time. -/
protected def lt (a b : Timestamp) : Prop :=
  a.seconds < b.seconds ∨ a.seconds = b.seconds ∧ a.nanos < b.nanos

instance : LT Timestamp := ⟨Timestamp.lt⟩

instance (a b : Timestamp) : Decidable (a < b) :=
  inferInstanceAs (Decidable (a.seconds < b.seconds ∨ a.seconds = b.seconds ∧ a.nanos < b.nanos))

/-- The seconds of a day. -/
def daySeconds : Int := 86400

/-- The nanoseconds of a second. -/
def secondNanos : Nat := 1000000000

/-- The number of the calendar date, counted from 1970-01-01. -/
def day (t : Timestamp) : Int := t.seconds / daySeconds

/-- The seconds since the start of the calendar date. -/
def secondOfDay (t : Timestamp) : Nat := (t.seconds % daySeconds).toNat

theorem lt_iff {a b : Timestamp} :
    a < b ↔ a.seconds < b.seconds ∨ a.seconds = b.seconds ∧ a.nanos < b.nanos := Iff.rfl

theorem not_lt {a b : Timestamp} : ¬a < b ↔ b < a ∨ b = a := by
  obtain ⟨_, _⟩ := a
  obtain ⟨_, _⟩ := b
  simp only [lt_iff, Timestamp.mk.injEq]
  omega

/-! ## Writing -/

/-- At least `width` decimal digits. -/
def padded (width n : Nat) : List Char :=
  let ds := Nat.toDigits 10 n
  List.replicate (width - ds.length) '0' ++ ds

/-- A year: four digits, or a sign and at least four. -/
def writeYear (year : Int) : List Char :=
  if 0 ≤ year ∧ year ≤ 9999 then padded 4 year.toNat
  else (if year < 0 then '-' else '+') :: padded 4 year.natAbs

/-- A date with dashes. -/
def writeDate (d : Date) : List Char :=
  writeYear d.year ++ '-' :: (padded 2 d.month ++ '-' :: padded 2 d.day)

/-- The fraction of a second with the fewest of 0, 3, 6 or 9 digits that are exact. -/
def writeFraction (nanos : Nat) : List Char :=
  if nanos = 0 then []
  else if nanos % 1000000 = 0 then '.' :: padded 3 (nanos / 1000000)
  else if nanos % 1000 = 0 then '.' :: padded 6 (nanos / 1000)
  else '.' :: padded 9 nanos

/-- A time of day with colons; a leap second is second 60. -/
def writeTime (secondOfDay nanos : Nat) : List Char :=
  let leap := secondNanos ≤ nanos
  padded 2 (secondOfDay / 3600) ++ ':' :: (padded 2 (secondOfDay / 60 % 60) ++
    ':' :: (padded 2 (secondOfDay % 60 + if leap then 1 else 0) ++
      writeFraction (if leap then nanos - secondNanos else nanos)))

/-- The text with the given separator of date and time and the given mark of universal time. -/
def writeWith (separator : Char) (mark : List Char) (t : Timestamp) : List Char :=
  writeDate (.ofDays t.day) ++ separator :: (writeTime t.secondOfDay t.nanos ++ mark)

/-- The form that documents use. -/
def write (t : Timestamp) : String := String.ofList (writeWith 'T' ['Z'] t)

/-- The form that messages use. -/
def text (t : Timestamp) : String := String.ofList (writeWith ' ' [' ', 'U', 'T', 'C'] t)

/-! ## Reading -/

open Scan

/-- Blanks, which are allowed between the parts of a timestamp. -/
def blanks : Scan Unit := do let _ ← span isBlank

/-- A number of at most two digits, after blanks. -/
def scanPair : Scan Nat := do
  blanks
  return natOfRun (← digits 2)

/-- A year: at most four digits, or any number of them after a sign. -/
def scanYear : Scan Int := do
  blanks
  if ← accept '-' then return -(natOfRun (← digits (← get).length) : Int)
  else if ← accept '+' then return natOfRun (← digits (← get).length)
  else return natOfRun (← digits 4)

/-- A separator after blanks. -/
def scanMark (c : Char) : Scan Unit := do
  blanks
  expect c

/-- A date that exists. -/
def scanDate : Scan Date := do
  let year ← scanYear
  scanMark '-'
  let month ← scanPair
  scanMark '-'
  let day ← scanPair
  let d : Date := ⟨year, month, day⟩
  guarded d.isValid
  return d

/-- The nanoseconds of a fraction; digits after the ninth are dropped. -/
def scanFraction : Scan Nat := do
  if ← accept '.' then
    let ds ← digits 9
    let _ ← span Char.isDigit
    return natOfRun ds * Nat.pow 10 (9 - ds.length)
  else return 0

/-- A time of day as seconds and nanoseconds; second 60 is a leap second. -/
def scanTime : Scan (Nat × Nat) := do
  let hour ← scanPair
  scanMark ':'
  let minute ← scanPair
  scanMark ':'
  let second ← scanPair
  let nanos ← scanFraction
  guarded (hour < 24 && minute < 60 && second ≤ 60)
  if second = 60 then return (hour * 3600 + minute * 60 + 59, nanos + secondNanos)
  else return (hour * 3600 + minute * 60 + second, nanos)

/-- The minus signs that an offset may have. -/
def isMinusSign (c : Char) : Bool := c = '-' || c = '\u2212'

/-- An offset from universal time in seconds: a sign, two digits of hours and two of minutes. -/
def scanSignedOffset : Scan Int := do
  let sign ← one fun c => c = '+' || isMinusSign c
  let hours ← exactly 2
  let _ ← span fun c => c = ':' || isBlank c
  let minutes ← exactly 2
  let size := natOfRun hours * 3600 + natOfRun minutes * 60
  guarded (natOfRun minutes < 60 && natOfRun hours < 24)
  return if isMinusSign sign then -(size : Int) else size

/-- An offset from universal time in seconds. -/
def scanOffset : Scan Int := do
  blanks
  let s ← get
  if (s.take 3).map Char.toUpper = ['U', 'T', 'C'] then
    set (s.drop 3)
    return 0
  else match s with
    | 'Z' :: rest | 'z' :: rest =>
      set rest
      return 0
    | _ => scanSignedOffset

/-- The first year of the calendar. -/
def firstYear : Int := -262143

/-- The last year of the calendar. -/
def lastYear : Int := 262142

/-- Whether an instant lies in the years of the calendar. -/
def inCalendar (seconds : Int) : Bool :=
  (Date.toDays ⟨firstYear, 1, 1⟩) * daySeconds ≤ seconds &&
    seconds < (Date.toDays ⟨lastYear + 1, 1, 1⟩) * daySeconds

/-- A whole timestamp. -/
def scan : Scan Timestamp := do
  let date ← scanDate
  let _ ← one fun c => c = 'T' || c = 't' || c = ' '
  let (second, nanos) ← scanTime
  let offset ← scanOffset
  blanks
  atEnd
  let here := date.toDays * daySeconds + second
  guarded (inCalendar here && inCalendar (here - offset))
  return ⟨here - offset, nanos⟩

/-- The instant that a text names. -/
def read (s : String) : Option Timestamp := (scan s.toList).map (·.1)

end Timestamp

end TrendLadder
