/-!
# Runs of digits

A run of digits of some base is read as a natural number; `takeDigits` splits a text after its
leading run of decimal digits.
-/

namespace TrendLadder

/-- The value of a digit of any base up to sixteen. -/
def digitValue? (c : Char) : Option Nat :=
  if '0' ≤ c ∧ c ≤ '9' then some (c.toNat - '0'.toNat)
  else if 'a' ≤ c ∧ c ≤ 'f' then some (c.toNat - 'a'.toNat + 10)
  else if 'A' ≤ c ∧ c ≤ 'F' then some (c.toNat - 'A'.toNat + 10)
  else none

/-- Whether a character is a digit of the base. -/
def isDigitOf (base : Nat) (c : Char) : Bool := (digitValue? c).any (· < base)

/-- The number that a nonempty run of digits of the base spells. -/
def natOfDigits? (base : Nat) (cs : List Char) : Option Nat :=
  if cs ≠ [] ∧ cs.all (isDigitOf base) then
    some (cs.foldl (fun n c => base * n + (digitValue? c).getD 0) 0)
  else none

/-- The leading run of decimal digits and what follows it. -/
def takeDigits (cs : List Char) : List Char × List Char :=
  (cs.takeWhile Char.isDigit, cs.dropWhile Char.isDigit)

/-- The number that a run of decimal digits spells, zero for the empty run. -/
def natOfRun (cs : List Char) : Nat := Nat.ofDigitChars 10 cs 0

end TrendLadder
