/-!
# The Gregorian calendar

Days are counted from 1 January 1970; the calendar is extended to all years, before and after, and
the year before year 1 is year 0. `dayOfDate` and `dateOfDay` are each other's inverse on the
dates that exist (`Date.isValid`).
-/

namespace ContentRepository.Time

/-- A calendar date. -/
structure Date where
  year : Int
  month : Nat
  day : Nat
deriving DecidableEq

def isLeapYear (year : Int) : Bool :=
  year % 4 == 0 && (year % 100 != 0 || year % 400 == 0)

def daysInMonth (year : Int) (month : Nat) : Nat :=
  if month = 2 then if isLeapYear year then 29 else 28
  else if month ∈ [4, 6, 9, 11] then 30
  else 31

/-- Whether the calendar has this date. -/
def Date.isValid (date : Date) : Bool :=
  1 ≤ date.month && date.month ≤ 12 && 1 ≤ date.day && date.day ≤ daysInMonth date.year date.month

/-- The number of seconds in a day, leap seconds not counted. -/
def secondsPerDay : Nat := 86400

/-- The number of days in four centuries. -/
def daysPerEra : Nat := 146097

/-- The days from 1 March of year 0 to the epoch. -/
def epochShift : Nat := 719468

/-- The days from the epoch to a date. Years are counted from March, so that the leap day comes
last; the months from March on then begin at `(153 * m + 2) / 5`. -/
def dayOfDate (date : Date) : Int :=
  let year := if date.month ≤ 2 then date.year - 1 else date.year
  let yearOfEra := year % 400
  let marchMonth : Int := (date.month + 9) % 12
  let dayOfYear := (153 * marchMonth + 2) / 5 + date.day - 1
  let dayOfEra := yearOfEra * 365 + yearOfEra / 4 - yearOfEra / 100 + dayOfYear
  year / 400 * daysPerEra + dayOfEra - epochShift

/-- The date that lies the given number of days after the epoch. -/
def dateOfDay (day : Int) : Date :=
  let shifted := day + epochShift
  let dayOfEra := shifted % daysPerEra
  -- remove the leap days that came before, so that every year has 365 days
  let yearOfEra := (dayOfEra - dayOfEra / 1460 + dayOfEra / 36524 - dayOfEra / 146096) / 365
  let dayOfYear := dayOfEra - (365 * yearOfEra + yearOfEra / 4 - yearOfEra / 100)
  let marchMonth := (5 * dayOfYear + 2) / 153
  let month := ((marchMonth + 2) % 12 + 1).toNat
  let year := shifted / daysPerEra * 400 + yearOfEra
  { year := if month ≤ 2 then year + 1 else year
    month
    day := (dayOfYear - (153 * marchMonth + 2) / 5 + 1).toNat }

end ContentRepository.Time
