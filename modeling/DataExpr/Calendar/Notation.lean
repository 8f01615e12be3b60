import DataExpr.Calendar.Instant
import DataExpr.Decimal.Digits
import DataExpr.Text.Basic

/-!
# Written dates

The notations in which an instant may be written, and their readers.

* RFC 3339, such as `2020-01-02T03:04:05.678+01:00`;
* RFC 2822, such as `Thu, 02 Jan 2020 03:04:05 +0100`;
* plain date and time in UTC, such as `2020-01-02 03:04:05.678`;
* a plain date, which means its midnight in UTC.

A reader takes the fields apart; `Fields.toInstant?` then decides whether the
calendar has such a moment.  `readDate?` tries the notations in that order.
-/

namespace DataExpr.Calendar

open DataExpr.Text (isBlank trimStart trim)
open DataExpr.Decimal (natOfDigits)

/-- A reader of the front of a text: a result and the rest, or nothing. -/
abbrev Reader := StateT (List Char) Option

/-- The moment that a written date names, not yet checked. -/
structure Fields where
  /-- The date. -/
  date : CivilDate
  /-- Hour of the day. -/
  hour : Nat
  /-- Minute of the hour. -/
  minute : Nat
  /-- Second of the minute; sixty stands for a leap second. -/
  second : Nat
  /-- Nanosecond of the second. -/
  nano : Nat
  /-- Seconds that local time is ahead of UTC. -/
  offset : Int
  /-- Day of the week, where it is written. -/
  weekday? : Option Nat

/-- The instant of a written moment.  Every field has to be in its range, and a
written day of the week has to be the right one. -/
def Fields.toInstant? (f : Fields) : Option Instant :=
  let day := f.date.toDay
  let leap := f.second / 60
  let instant : Instant :=
    ⟨day * secondsPerDay + f.hour * 3600 + f.minute * 60 + (f.second - leap : Nat) - f.offset,
      f.nano + leap * nanosPerSecond⟩
  let inRange :=
    Instant.firstYear ≤ f.date.year && f.date.year ≤ Instant.lastYear && f.date.isValid &&
      f.hour < 24 && f.minute < 60 && f.second ≤ 60 && f.offset.natAbs < secondsPerDay.natAbs &&
      f.weekday?.all (· = dayOfWeek day) && instant.isRepresentable
  if inRange then some instant else none

namespace Reader

/-- Fails. -/
def refuse {α : Type} : Reader α := fun _ => none

/-- Expects one of some characters, and skips it. -/
def oneOf (expected : List Char) : Reader Unit
  | c :: cs => if expected.contains c then some ((), cs) else none
  | [] => none

/-- Skips white space, if any. -/
def blanks : Reader Unit := fun cs => some ((), trimStart cs)

/-- Skips white space, at least one character of it. -/
def someBlanks : Reader Unit
  | c :: cs => if isBlank c then some ((), trimStart cs) else none
  | [] => none

/-- Reads a number of at least `least` and at most `most` digits. -/
def number (least most : Nat) : Reader Nat := fun cs =>
  let digits := (cs.take most).takeWhile Char.isDigit
  if least ≤ digits.length then some (natOfDigits digits, cs.drop digits.length) else none

/-- Reads a number of at least `least` digits, taking all there are. -/
def longNumber (least : Nat) : Reader Nat := fun cs => number least cs.length cs

/-- Reads the digits after a decimal point as nanoseconds.  Digits after the
ninth are skipped. -/
def fraction : Reader Nat := fun cs =>
  let digits := cs.takeWhile Char.isDigit
  let kept := digits.take 9
  if digits.isEmpty then none
  else some (natOfDigits kept * Nat.pow 10 (9 - kept.length), cs.drop digits.length)

/-- Reads a fraction with its point, or nothing if there is no point. -/
def optionalFraction : Reader Nat
  | '.' :: cs => fraction cs
  | cs => some (0, cs)

/-- Runs a reader over the whole of a text. -/
def whole {α : Type} (reader : Reader α) (cs : List Char) : Option α :=
  match reader cs with
  | some (result, []) => some result
  | _ => none

/-! ## Offsets from UTC -/

/-- The sign of an offset: whether it is west of Greenwich.  The typographic
minus sign is allowed on request. -/
def offsetIsWest (typographic : Bool) : Reader Bool
  | '+' :: cs => some (false, cs)
  | '-' :: cs => some (true, cs)
  | '\u2212' :: cs => if typographic then some (true, cs) else none
  | _ => none

/-- Reads hours and minutes of an offset, with `separator` between them. -/
def signedOffset (typographic : Bool) (separator : Reader Unit) : Reader Int := do
  let west ← offsetIsWest typographic
  let hours ← number 2 2
  separator
  let minutes ← number 2 2
  if 60 ≤ minutes then refuse
  let seconds : Int := hours * 3600 + minutes * 60
  return if west then -seconds else seconds

/-- The offset of RFC 3339: `Z`, or hours and minutes with a colon.  It is less
than a day. -/
def zuluOrOffset : Reader Int
  | 'Z' :: cs => some (0, cs)
  | 'z' :: cs => some (0, cs)
  | cs => signedOffset true (oneOf [':']) cs

/-- Hours ahead of UTC of the zones that RFC 2822 knows by name.  A military
letter counts as UTC, the letter J excepted. -/
def zoneHours? (name : List Char) : Option Int :=
  match String.ofList (name.map Char.toLower) with
  | "gmt" | "ut" | "z" => some 0
  | "edt" => some (-4)
  | "est" | "cdt" => some (-5)
  | "cst" | "mdt" => some (-6)
  | "mst" | "pdt" => some (-7)
  | "pst" => some (-8)
  | "j" => none
  | _ => if name.length = 1 then some 0 else none

/-- The offset of RFC 2822: a zone's name, or hours and minutes. -/
def namedOrOffset : Reader Int := fun cs =>
  let name := cs.takeWhile Char.isAlpha
  if name.isEmpty then signedOffset false (pure ()) cs
  else (zoneHours? name).map fun hours => (hours * 3600, cs.drop name.length)

/-! ## Names -/

/-- The days of the week, Monday first. -/
def weekdayNames : List String := ["mon", "tue", "wed", "thu", "fri", "sat", "sun"]

/-- The months, January first. -/
def monthNames : List String :=
  ["jan", "feb", "mar", "apr", "may", "jun", "jul", "aug", "sep", "oct", "nov", "dec"]

/-- Reads a name of three letters in either case, and gives its place. -/
def shortName (names : List String) : Reader Nat := fun cs =>
  (names.idxOf? (String.ofList ((cs.take 3).map Char.toLower))).map fun i => (i, cs.drop 3)

/-- Reads a day of the week and the comma after it, or nothing if no such name
comes first. -/
def optionalWeekday : Reader (Option Nat) := fun cs =>
  match shortName weekdayNames cs with
  | some (weekday, ',' :: cs) => some (some weekday, cs)
  | some _ => none
  | none => some (none, cs)

/-! ## Comments -/

/-- The text after a comment, of whose opening parentheses `depth` are still to
be closed.  A backslash takes away the meaning of the character after it. -/
def afterComment? : Nat → List Char → Option (List Char)
  | 0, cs => some cs
  | _ + 1, [] => none
  | _ + 1, ['\\'] => none
  | depth + 1, '\\' :: _ :: cs => afterComment? (depth + 1) cs
  | depth + 1, '(' :: cs => afterComment? (depth + 2) cs
  | depth + 1, ')' :: cs => afterComment? depth cs
  | depth + 1, _ :: cs => afterComment? (depth + 1) cs

/-- Skips comments in parentheses and the white space in front of each, up to
`fuel` of them. -/
def skipComments : Nat → List Char → List Char
  | 0, cs => cs
  | fuel + 1, cs =>
      match trimStart cs with
      | '(' :: rest =>
          match afterComment? 1 rest with
          | some rest => skipComments fuel rest
          | none => cs
      | _ => cs

/-- Skips all comments that follow. -/
def comments : Reader Unit := fun cs => some ((), skipComments cs.length cs)

/-! ## The notations -/

/-- RFC 3339: every field has its full width, and the date and the time may be
separated by a letter in either case or by a space. -/
def rfc3339 : Reader Fields := do
  let year ← number 4 4
  oneOf ['-']
  let month ← number 2 2
  oneOf ['-']
  let day ← number 2 2
  oneOf ['T', 't', ' ']
  let hour ← number 2 2
  oneOf [':']
  let minute ← number 2 2
  oneOf [':']
  let second ← number 2 2
  let nano ← optionalFraction
  let offset ← zuluOrOffset
  return ⟨⟨year, month, day⟩, hour, minute, second, nano, offset, none⟩

/-- Years of two and three digits are counted from 1900, and those below fifty
from 2000. -/
def fullYear (digits year : Nat) : Nat :=
  if digits = 2 then (if year < 50 then year + 2000 else year + 1900)
  else if digits = 3 then year + 1900
  else year

/-- A year of at least two digits, with its century filled in. -/
def yearOfAnyLength : Reader Nat := fun cs =>
  (longNumber 2 cs).map fun (year, rest) => (fullYear (cs.length - rest.length) year, rest)

/-- A colon and seconds, or nothing if no colon comes. -/
def optionalSeconds : Reader Nat := fun cs =>
  match trimStart cs with
  | ':' :: rest => number 2 2 rest
  | _ => some (0, cs)

/-- RFC 2822: English names, seconds optional, comments at the end. -/
def rfc2822 : Reader Fields := do
  blanks
  let weekday? ← optionalWeekday
  blanks
  let day ← number 1 2
  someBlanks
  let month ← shortName monthNames
  someBlanks
  let year ← yearOfAnyLength
  someBlanks
  let hour ← number 2 2
  blanks
  oneOf [':']
  blanks
  let minute ← number 2 2
  let second ← optionalSeconds
  someBlanks
  let offset ← namedOrOffset
  comments
  return ⟨⟨year, month + 1, day⟩, hour, minute, second, 0, offset, weekday?⟩

/-- A field of up to two digits after any white space. -/
def shortField : Reader Nat := do
  blanks
  number 1 2

/-- A year after any white space: up to four digits, or any number of them after
a sign. -/
def signedYear : Reader Int := do
  blanks
  fun
    | '-' :: cs => (longNumber 1 cs).map fun (year, cs) => (-(year : Int), cs)
    | '+' :: cs => (longNumber 1 cs).map fun (year, cs) => ((year : Int), cs)
    | cs => (number 1 4 cs).map fun (year, cs) => ((year : Int), cs)

/-- Year, month and day, of any width. -/
def plainDate : Reader CivilDate := do
  let year ← signedYear
  oneOf ['-']
  let month ← shortField
  oneOf ['-']
  let day ← shortField
  return ⟨year, month, day⟩

/-- A plain date and a time of day, in UTC. -/
def plainDateTime (separator : Reader Unit) : Reader Fields := do
  let date ← plainDate
  separator
  let hour ← shortField
  oneOf [':']
  let minute ← shortField
  oneOf [':']
  let second ← shortField
  let nano ← optionalFraction
  return ⟨date, hour, minute, second, nano, 0, none⟩

/-- The midnight that starts a plain date, in UTC. -/
def midnight : Reader Fields := do
  let date ← plainDate
  return ⟨date, 0, 0, 0, 0, 0, none⟩

end Reader

/-- All notations, in the order in which they are tried. -/
def notations : List (Reader Fields) :=
  [ Reader.rfc3339
  , Reader.rfc2822
  , Reader.plainDateTime (Reader.oneOf ['T'])
  , Reader.plainDateTime Reader.blanks
  , Reader.midnight ]

/-- The instant that a text names in the first notation that fits it.  White
space around the text does not matter. -/
def readDate? (text : String) : Option Instant :=
  let cs := trim text.toList
  notations.findSome? fun reader => (reader.whole cs).bind Fields.toInstant?

end DataExpr.Calendar
