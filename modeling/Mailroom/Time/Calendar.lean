/-!
The Gregorian calendar, extended to all years: a date is a year, a month and a day, and dates are
numbered by the days from 1 January 1970.
-/

namespace Mailroom.Calendar

/-- Whether a year has 29 February. -/
def isLeap (year : Int) : Bool := year % 4 = 0 && (year % 100 ≠ 0 || year % 400 = 0)

/-- The days from 1 January of year 1 to 1 January of a year. -/
def daysBeforeYear (year : Int) : Int :=
  365 * (year - 1) + (year - 1) / 4 - (year - 1) / 100 + (year - 1) / 400

/-- The days from 1 January of year 1 to 1 January 1970. -/
def epochDay : Int := 719162

/-- The days of a year before each of its months. -/
def monthStarts (leap : Bool) : List Nat :=
  if leap then [0, 31, 60, 91, 121, 152, 182, 213, 244, 274, 305, 335]
  else [0, 31, 59, 90, 120, 151, 181, 212, 243, 273, 304, 334]

/-- The number of days of a month, counted from 1. -/
def daysInMonth (leap : Bool) (month : Nat) : Nat :=
  if month = 2 then if leap then 29 else 28
  else if month = 4 ∨ month = 6 ∨ month = 9 ∨ month = 11 then 30
  else 31

/-- A day of the calendar; months and days count from 1. -/
structure Date where
  year : Int
  month : Nat
  day : Nat
deriving DecidableEq, Repr

namespace Date

/-- Whether the month and the day exist. -/
def isValid (date : Date) : Bool :=
  1 ≤ date.month && date.month ≤ 12 && 1 ≤ date.day
    && date.day ≤ daysInMonth (isLeap date.year) date.month

/-- The number of a date, 1 January 1970 being 0. -/
def toDay (date : Date) : Int :=
  daysBeforeYear date.year - epochDay
    + ((monthStarts (isLeap date.year)).getD (date.month - 1) 0 + (date.day - 1) : Nat)

/-- The year of the day that lies `day` days after 1 January of year 1. A year has 146097/400 days
on average, and the estimate from that is off by one at most. -/
def yearOf (day : Int) : Int :=
  let year := day * 400 / 146097 + 1
  if day < daysBeforeYear year then year - 1
  else if daysBeforeYear (year + 1) ≤ day then year + 1
  else year

/-- The date with a number. -/
def ofDay (day : Int) : Date :=
  let day := day + epochDay
  let year := yearOf day
  let dayOfYear := (day - daysBeforeYear year).toNat
  let starts := monthStarts (isLeap year)
  let month := (starts.filter (· ≤ dayOfYear)).length
  ⟨year, month, dayOfYear - starts.getD (month - 1) 0 + 1⟩

end Date

example : (Date.mk 1970 1 1).toDay = 0 ∧ Date.ofDay (-1) = ⟨1969, 12, 31⟩ := by decide
example : Date.ofDay (Date.mk 2000 2 29).toDay = ⟨2000, 2, 29⟩ := by decide
example : Date.ofDay (Date.mk (-1) 3 1).toDay = ⟨-1, 3, 1⟩ := by decide

end Mailroom.Calendar
