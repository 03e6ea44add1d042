import Cadence.Text

/-!
Dates of the Gregorian calendar, extended without a break to the years before it was introduced. Year
0 is the year before year 1. A date is counted by its days since the last day before year 0, which
makes the distance of two dates a subtraction.
-/

namespace Cadence

def Date.firstYear : Int := -262143

def Date.lastYear : Int := 262142

def Date.isLeapYear (year : Int) : Bool :=
  year % 4 = 0 && (year % 100 ≠ 0 || year % 400 = 0)

/-- The length of a month; there are no days in a month that does not exist. -/
def Date.daysInMonth (year : Int) (month : Nat) : Nat :=
  if month = 2 then (if Date.isLeapYear year then 29 else 28)
  else if month = 4 ∨ month = 6 ∨ month = 9 ∨ month = 11 then 30
  else if 1 ≤ month ∧ month ≤ 12 then 31
  else 0

/-- A day that the calendar has. -/
structure Date where
  year : Int
  month : Nat
  day : Nat
  year_first : Date.firstYear ≤ year
  year_last : year ≤ Date.lastYear
  day_pos : 1 ≤ day
  day_le : day ≤ Date.daysInMonth year month
deriving DecidableEq

namespace Date

/-- The date with these numbers, where the calendar has it. -/
def of? (year : Int) (month day : Nat) : Option Date :=
  if h : (firstYear ≤ year ∧ year ≤ lastYear) ∧ 1 ≤ day ∧ day ≤ daysInMonth year month then
    some ⟨year, month, day, h.1.1, h.1.2, h.2.1, h.2.2⟩
  else none

/-- The days of a year before the first of a month. -/
def daysBeforeMonth (year : Int) : Nat → Nat
  | 0 => 0
  | month + 1 => daysBeforeMonth year month + daysInMonth year month

/-- The days from the start of year 0 to the start of a year. -/
def daysBeforeYear (year : Int) : Int :=
  365 * year + (year + 3) / 4 - (year + 99) / 100 + (year + 399) / 400

/-- The days up to and including a date, counted from the start of year 0. -/
def dayNumber (date : Date) : Int :=
  daysBeforeYear date.year + daysBeforeMonth date.year date.month + date.day

/-! ## Bounds -/

theorem daysInMonth_le (year : Int) (month : Nat) : daysInMonth year month ≤ 31 := by
  unfold daysInMonth
  repeat' split
  all_goals omega

theorem month_of_daysInMonth_pos {year : Int} {month : Nat} (h : 1 ≤ daysInMonth year month) :
    1 ≤ month ∧ month ≤ 12 := by
  unfold daysInMonth at h
  repeat' split at h
  all_goals omega

theorem month_bounds (date : Date) : 1 ≤ date.month ∧ date.month ≤ 12 :=
  month_of_daysInMonth_pos (Nat.le_trans date.day_pos date.day_le)

theorem daysBeforeMonth_le (year : Int) (month : Nat) : daysBeforeMonth year month ≤ 31 * month := by
  induction month with
  | zero => simp [daysBeforeMonth]
  | succ m ih =>
    have := daysInMonth_le year m
    simp only [daysBeforeMonth]
    omega

theorem dayNumber_lower (date : Date) : -96000000 < date.dayNumber := by
  have := date.year_first
  have := date.day_pos
  simp only [firstYear] at *
  simp only [dayNumber, daysBeforeYear]
  omega

theorem dayNumber_upper (date : Date) : date.dayNumber < 96000000 := by
  have := date.year_last
  have := date.day_le
  have := daysInMonth_le date.year date.month
  have := daysBeforeMonth_le date.year date.month
  have := date.month_bounds
  simp only [lastYear] at *
  simp only [dayNumber, daysBeforeYear]
  omega

end Date

end Cadence
