/-! # The proleptic Gregorian calendar

    Days are numbered from the first of January of the year 0. A year's first day
    is found by counting leap years; the year of a day is found by an estimate that
    is at most one off.
-/

namespace TopUp.Calendar

/-- A calendar date. -/
structure Date where
  /-- The year; the year before 1 is 0. -/
  year : Int
  /-- The month, from 1. -/
  month : Nat
  /-- The day of the month, from 1. -/
  day : Nat
  deriving DecidableEq, Repr

/-- Whether a year has a leap day. -/
def isLeap (year : Int) : Bool := year % 4 = 0 && (year % 100 ≠ 0 || year % 400 = 0)

/-- The number of the first day of a year. -/
def yearStart (year : Int) : Int :=
  365 * year + (year + 3) / 4 - (year + 99) / 100 + (year + 399) / 400

/-- The lengths of the months of a year. -/
def monthLengths (leap : Bool) : List Nat :=
  [31, if leap then 29 else 28, 31, 30, 31, 30, 31, 31, 30, 31, 30, 31]

/-- The days of a year before a month. -/
def daysBefore (leap : Bool) (month : Nat) : Nat :=
  ((monthLengths leap).take (month - 1)).foldl (· + ·) 0

/-- The year of a day. -/
def yearOf (n : Int) : Int :=
  let guess := n * 400 / 146097
  if n < yearStart guess then guess - 1
  else if yearStart (guess + 1) ≤ n then guess + 1
  else guess

/-- The month and the day of the month of a day of the year, both from 0, by walking
    the lengths of the months. -/
def monthDay : List Nat → Nat → Nat × Nat
  | [], n => (0, n)
  | l :: rest, n =>
    if n < l then (0, n)
    else
      let (m, d) := monthDay rest (n - l)
      (m + 1, d)

namespace Date

/-- The date of a day number. -/
def ofDayNumber (n : Int) : Date :=
  let year := yearOf n
  let (m, d) := monthDay (monthLengths (isLeap year)) (n - yearStart year).toNat
  ⟨year, m + 1, d + 1⟩

/-- The number of a date's day. -/
def dayNumber (d : Date) : Int :=
  yearStart d.year + daysBefore (isLeap d.year) d.month + (d.day - 1 : Nat)

end Date

/-- The day number of the first of January 1970. -/
def epochDay : Int := 719528

/-! ### Sanity checks -/

example : yearStart 1970 = epochDay := by decide
example : Date.ofDayNumber epochDay = ⟨1970, 1, 1⟩ := by decide
example : (Date.mk 2024 2 29).dayNumber = (Date.mk 2024 3 1).dayNumber - 1 := by decide
example : Date.ofDayNumber (-1) = ⟨-1, 12, 31⟩ := by decide

end TopUp.Calendar
