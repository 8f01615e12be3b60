import DataExpr.Calendar.Day

/-!
# Instants

Points in time, in seconds from the start of 1970 and nanoseconds within the
second.  A leap second is written as a second that lasts for two: its
nanoseconds run on past one thousand million.

The text of an instant is its RFC 3339 form in UTC with milliseconds, and the
number of an instant counts milliseconds.  Both forget what is finer than a
millisecond.
-/

namespace DataExpr.Calendar

/-- Nanoseconds in a second. -/
def nanosPerSecond : Nat := 1000000000

/-- Nanoseconds in a millisecond. -/
def nanosPerMilli : Nat := 1000000

/-- Seconds in a day. -/
def secondsPerDay : Int := 86400

/-- A point in time. -/
structure Instant where
  /-- Whole seconds since the start of 1970; a leap second belongs to the second
  before it. -/
  second : Int
  /-- Nanoseconds since then, `nanosPerSecond` or more inside a leap second. -/
  nano : Nat
  deriving DecidableEq, Repr

namespace Instant

/-- The instant a number of milliseconds from the start of 1970. -/
def ofMillis (millis : Int) : Instant :=
  ⟨millis / 1000, (millis % 1000).toNat * nanosPerMilli⟩

/-- Milliseconds from the start of 1970, rounded down. -/
def toMillis (instant : Instant) : Int :=
  instant.second * 1000 + (instant.nano / nanosPerMilli : Nat)

/-- The first and the last year in which instants lie. -/
def firstYear : Int := -262143

/-- The last year in which instants lie. -/
def lastYear : Int := 262142

/-- Whether the calendar's years reach this instant. -/
def isRepresentable (instant : Instant) : Bool :=
  let day := instant.second / secondsPerDay
  (CivilDate.mk firstYear 1 1).toDay ≤ day && day ≤ (CivilDate.mk lastYear 12 31).toDay

/-- A number with at least `width` digits. -/
def padded (width n : Nat) : List Char :=
  let digits := Nat.toDigits 10 n
  List.replicate (width - digits.length) '0' ++ digits

/-- A year has four digits.  Years before zero and after 9999 carry a sign and
may have more. -/
def yearText (year : Int) : List Char :=
  if 0 ≤ year ∧ year ≤ 9999 then padded 4 year.natAbs
  else (if year < 0 then '-' else '+') :: padded 4 year.natAbs

/-- The RFC 3339 text in UTC, cut off after the milliseconds. -/
def text (instant : Instant) : String :=
  let date := CivilDate.ofDay (instant.second / secondsPerDay)
  let time := (instant.second % secondsPerDay).toNat
  let second := time % 60 + instant.nano / nanosPerSecond
  let milli := instant.nano % nanosPerSecond / nanosPerMilli
  String.ofList <|
    yearText date.year ++ '-' :: padded 2 date.month ++ '-' :: padded 2 date.day ++
      'T' :: padded 2 (time / 3600) ++ ':' :: padded 2 (time / 60 % 60) ++
      ':' :: padded 2 second ++ '.' :: padded 3 milli ++ ['Z']

end Instant

end DataExpr.Calendar
