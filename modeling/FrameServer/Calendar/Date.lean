/-!
# FrameServer.Calendar.Date — days and dates

Dates of the proleptic Gregorian calendar and their day numbers, counted from
1970-01-01. Years are taken to begin in March, so that the leap day is the last
day of its year: 400 years have 146097 days, each of their first three centuries
36524, four years 1461 and a year without a leap day 365.
-/

namespace FrameServer.Calendar

/-- A date; months and days count from one. -/
structure Date where
  year : Int
  month : Nat
  day : Nat
deriving DecidableEq, Repr

namespace Date

/-- The day number of 1970-01-01 when 0000-03-01 has day number zero. -/
def epochDay : Int := 719468

/-- How many days of a March year come before its month `m`, March being 0. -/
def daysBefore (m : Nat) : Nat := (153 * m + 2) / 5

/-- The month of a March year that its day `d` lies in. -/
def monthOf (d : Nat) : Nat := (5 * d + 2) / 153

/-- The date with a given day number. -/
def ofDayNumber (n : Int) : Date :=
  let days := n + epochDay
  let inEra := (days % 146097).toNat
  let century := min (inEra / 36524) 3
  let inCentury := inEra - 36524 * century
  let inFour := inCentury % 1461
  let year := min (inFour / 365) 3
  let inYear := inFour - 365 * year
  let month := monthOf inYear
  let marchYear : Int := 400 * (days / 146097) + 100 * century + 4 * (inCentury / 1461) + year
  { year := if month < 10 then marchYear else marchYear + 1
    month := if month < 10 then month + 3 else month - 9
    day := inYear - daysBefore month + 1 }

/-- The day number of a date. -/
def dayNumber (d : Date) : Int :=
  let year := if d.month < 3 then d.year - 1 else d.year
  let month := if d.month < 3 then d.month + 9 else d.month - 3
  365 * year + year / 4 - year / 100 + year / 400 + daysBefore month + d.day - 1 - epochDay

/-- A year divisible by four is a leap year unless only its centuries are. -/
def isLeap (year : Int) : Bool := year % 4 = 0 && (year % 100 ≠ 0 || year % 400 = 0)

/-- The length of a month. -/
def monthLength (year : Int) (month : Nat) : Nat :=
  if month = 2 then (if isLeap year then 29 else 28)
  else if month = 4 ∨ month = 6 ∨ month = 9 ∨ month = 11 then 30
  else 31

/-- The month exists and has that day. -/
def isValid (d : Date) : Bool :=
  1 ≤ d.month && d.month ≤ 12 && 1 ≤ d.day && d.day ≤ monthLength d.year d.month

end Date

end FrameServer.Calendar
