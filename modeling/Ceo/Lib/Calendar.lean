import Mathlib.Tactic.SplitIfs

/-!
# The proleptic Gregorian calendar

A `CivilDate` is a day of the calendar, whatever the year; `epochDay` counts the
days from 1 January 1970 to it.
-/

namespace Ceo.Lib

namespace Calendar

def isLeap (year : Nat) : Bool := year % 4 == 0 && (year % 100 != 0 || year % 400 == 0)

def yearLength (year : Nat) : Nat := if isLeap year then 366 else 365

/-- The length of a month, the first being 1. -/
def monthLength (year month : Nat) : Nat :=
  if month = 2 then if isLeap year then 29 else 28
  else if month = 4 ∨ month = 6 ∨ month = 9 ∨ month = 11 then 30
  else 31

/-- The days from 1 January of year 0 to that of the year. -/
def daysToYear : Nat → Nat
  | 0 => 0
  | year + 1 => daysToYear year + yearLength year

/-- The days of the first months of the year. -/
def daysOfMonths (year : Nat) : Nat → Nat
  | 0 => 0
  | months + 1 => daysOfMonths year months + monthLength year (months + 1)

end Calendar

open Calendar

structure CivilDate where
  year : Nat
  month : Nat
  day : Nat
  month_range : 1 ≤ month ∧ month ≤ 12
  day_range : 1 ≤ day ∧ day ≤ monthLength year month

/-- The days from 1 January 1970. -/
def CivilDate.epochDay (d : CivilDate) : Int :=
  daysToYear d.year + daysOfMonths d.year (d.month - 1) + (d.day - 1) - daysToYear 1970

namespace Calendar

theorem isLeap_iff {year : Nat} :
    isLeap year = true ↔ year % 4 = 0 ∧ (year % 100 ≠ 0 ∨ year % 400 = 0) := by
  simp [isLeap]

theorem monthLength_le (year month : Nat) : monthLength year month ≤ 31 := by
  unfold monthLength
  split_ifs <;> decide

theorem daysOfMonths_le (year months : Nat) : daysOfMonths year months ≤ 31 * months := by
  induction months with
  | zero => exact Nat.le_refl _
  | succ months ih =>
    have := monthLength_le year (months + 1)
    rw [daysOfMonths]
    omega

/-- Every fourth year is a leap year, but for the hundredths that are not four-hundredths. -/
theorem daysToYear_eq (year : Nat) :
    daysToYear year = 365 * year + (year + 3) / 4 + (year + 399) / 400 - (year + 99) / 100 := by
  induction year with
  | zero => rfl
  | succ year ih =>
    have length : yearLength year = 365 + (if year % 4 = 0 then 1 else 0) +
        (if year % 400 = 0 then 1 else 0) - (if year % 100 = 0 then 1 else 0) := by
      unfold yearLength
      split_ifs with leap <;> rw [isLeap_iff] at leap <;> omega
    rw [daysToYear, ih, length]
    split_ifs <;> omega

end Calendar

end Ceo.Lib
