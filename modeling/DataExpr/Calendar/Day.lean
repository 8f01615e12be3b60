/-!
# Days

The Gregorian calendar, extended to all years before it was introduced.  Days
are numbered from the first of January 1970, and years are counted with a year
zero and negative years before that.

Both directions count from the first of March of year zero: a leap day is then
the last day of its year, and the calendar repeats every four hundred years.
Within such a cycle come four centuries, in a century twenty-five groups of four
years, and in a group four years; only the last of each kind may be a day longer.
-/

namespace DataExpr.Calendar

/-- A date of the calendar. -/
structure CivilDate where
  /-- Year, with a year zero. -/
  year : Int
  /-- Month, from one to twelve. -/
  month : Nat
  /-- Day of the month, from one. -/
  day : Nat
  deriving DecidableEq, Repr

/-- Whether the year has a leap day. -/
def isLeapYear (year : Int) : Bool :=
  year % 4 = 0 && (year % 100 ≠ 0 || year % 400 = 0)

/-- How many days a month has. -/
def daysInMonth (year : Int) (month : Nat) : Nat :=
  if month = 2 then (if isLeapYear year then 29 else 28)
  else if month = 4 ∨ month = 6 ∨ month = 9 ∨ month = 11 then 30
  else 31

/-- Whether the calendar has this date. -/
def CivilDate.isValid (date : CivilDate) : Bool :=
  1 ≤ date.month && date.month ≤ 12 && 1 ≤ date.day &&
    date.day ≤ daysInMonth date.year date.month

/-- Days from the first of March of year zero to the first of January 1970. -/
def epochOffset : Int := 719468

/-- Days in four hundred years. -/
def daysPerCycle : Int := 146097

/-- The number of a date's day. -/
def CivilDate.toDay (date : CivilDate) : Int :=
  let year := if date.month ≤ 2 then date.year - 1 else date.year
  let monthsFromMarch := if date.month ≤ 2 then date.month + 9 else date.month - 3
  let dayOfYear := (153 * monthsFromMarch + 2) / 5 + date.day - 1
  let cycle := year / 400
  let yearOfCycle := year % 400
  cycle * daysPerCycle + yearOfCycle * 365 + yearOfCycle / 4 - yearOfCycle / 100 + dayOfYear -
    epochOffset

/-- The date of a day. -/
def CivilDate.ofDay (day : Int) : CivilDate :=
  let fromMarch := day + epochOffset
  let cycle := fromMarch / daysPerCycle
  let dayOfCycle := (fromMarch % daysPerCycle).toNat
  let century := min (dayOfCycle / 36524) 3
  let dayOfCentury := dayOfCycle - century * 36524
  let group := dayOfCentury / 1461
  let dayOfGroup := dayOfCentury % 1461
  let yearOfGroup := min (dayOfGroup / 365) 3
  let dayOfYear := dayOfGroup - yearOfGroup * 365
  let monthsFromMarch := (5 * dayOfYear + 2) / 153
  let dayOfMonth := dayOfYear - (153 * monthsFromMarch + 2) / 5 + 1
  let month := if monthsFromMarch < 10 then monthsFromMarch + 3 else monthsFromMarch - 9
  let year : Int := cycle * 400 + (century * 100 + group * 4 + yearOfGroup : Nat)
  ⟨if month ≤ 2 then year + 1 else year, month, dayOfMonth⟩

/-- The day of the week of a day, Monday being zero. -/
def dayOfWeek (day : Int) : Nat :=
  ((day + 3) % 7).toNat

end DataExpr.Calendar
