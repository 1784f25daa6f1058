/-!
# The calendar

Dates of the Gregorian calendar, carried on in both directions, and days counted from the first of
January 1970. A year is taken to begin in March, so that the leap day ends it; 400 years make a cycle
of 146097 days.
-/

namespace Purse

/-- A date by year, month and day of the month. -/
structure Date where
  year : Int
  month : Nat
  day : Nat
  deriving DecidableEq, Repr

namespace Date

/-- Days in 400 years. -/
def cycle : Int := 146097

/-- Days from the first of March of the year 0 to the first of January 1970. -/
def epochOffset : Int := 719468

/-- Whether February has 29 days. -/
def isLeapYear (year : Int) : Bool :=
  year % 4 == 0 && (year % 100 != 0 || year % 400 == 0)

/-- How many days a month has. -/
def daysInMonth (year : Int) (month : Nat) : Nat :=
  if month = 2 then (if isLeapYear year then 29 else 28)
  else if month = 4 ∨ month = 6 ∨ month = 9 ∨ month = 11 then 30
  else 31

/-- Whether there is such a date. -/
def isValid (d : Date) : Bool :=
  1 ≤ d.month && d.month ≤ 12 && 1 ≤ d.day && d.day ≤ daysInMonth d.year d.month

/-- Days before a year of a cycle, counted from the first of March of its first year. -/
def daysBeforeYear (yearOfCycle : Int) : Int :=
  yearOfCycle * 365 + yearOfCycle / 4 - yearOfCycle / 100

/-- Days before a month, months being counted from March. -/
def daysBeforeMonth (monthFromMarch : Int) : Int :=
  (153 * monthFromMarch + 2) / 5

/-- Days from the first of January 1970 to a date. -/
def toDays (d : Date) : Int :=
  let year := if d.month ≤ 2 then d.year - 1 else d.year
  let monthFromMarch : Int := ((d.month + 9) % 12 : Nat)
  year / 400 * cycle + daysBeforeYear (year % 400) + daysBeforeMonth monthFromMarch + d.day - 1
    - epochOffset

/-- The date that lies a number of days after the first of January 1970. -/
def ofDays (days : Int) : Date :=
  let shifted := days + epochOffset
  let dayOfCycle := shifted % cycle
  let yearOfCycle :=
    (dayOfCycle - dayOfCycle / 1460 + dayOfCycle / 36524 - dayOfCycle / 146096) / 365
  let dayOfYear := dayOfCycle - daysBeforeYear yearOfCycle
  let monthFromMarch := (5 * dayOfYear + 2) / 153
  let month := if monthFromMarch < 10 then monthFromMarch + 3 else monthFromMarch - 9
  let year := yearOfCycle + shifted / cycle * 400 + (if month ≤ 2 then 1 else 0)
  { year := year
    month := month.toNat
    day := (dayOfYear - daysBeforeMonth monthFromMarch + 1).toNat }

end Date

end Purse
