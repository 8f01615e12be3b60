import DataExpr.Calendar.Instant
import Mathlib.Tactic.IntervalCases

/-!
# The days of the calendar

Every day has a date of the calendar, and the date has the number of the day
(`isValid_ofDay`, `toDay_ofDay`).

Both are read off the parts of a day's number, counted from the first of March of year zero: a
whole number of cycles of four hundred years, and within the cycle a century, a group of four
years, a year and a day of the year (`exists_parts`).  Only the last century of a cycle and the
last year of a group may be a day longer than the others.  So a year from March to February has a
day with the number 365 only if its February has a leap day (`exists_dateFromMarch`).
-/

namespace DataExpr.Calendar

/-! ## Years from March to February -/

/-- The date of a day of a year that starts with its March.  The leap day is the last one, and
January and February belong to the next year of the calendar. -/
def dateFromMarch (year : Int) (dayOfYear : Nat) : CivilDate :=
  let monthsFromMarch := (5 * dayOfYear + 2) / 153
  let dayOfMonth := dayOfYear - (153 * monthsFromMarch + 2) / 5 + 1
  let month := if monthsFromMarch < 10 then monthsFromMarch + 3 else monthsFromMarch - 9
  ⟨if month ≤ 2 then year + 1 else year, month, dayOfMonth⟩

/-- How many days come before the first of March of a year. -/
def daysBeforeMarch (year : Int) : Int :=
  year / 400 * daysPerCycle + year % 400 * 365 + year % 400 / 4 - year % 400 / 100

theorem daysBeforeMarch_eq (cycle : Int) {year : Nat} (h : year < 400) :
    daysBeforeMarch (cycle * 400 + year) =
      cycle * daysPerCycle + year * 365 + (year / 4 : Nat) - (year / 100 : Nat) := by
  have hcycle : (cycle * 400 + year) / 400 = cycle := by omega
  have hyear : (cycle * 400 + year) % 400 = year := by omega
  rw [daysBeforeMarch, hcycle, hyear]
  rfl

/-- The number of a date is made up of the days before the year and those of the year. -/
theorem toDay_dateFromMarch (year : Int) {dayOfYear : Nat} (h : dayOfYear ≤ 365) :
    (dateFromMarch year dayOfYear).toDay = daysBeforeMarch year + dayOfYear - epochOffset := by
  unfold dateFromMarch CivilDate.toDay daysBeforeMarch
  dsimp only
  have hmonths : (5 * dayOfYear + 2) / 153 ≤ 11 := by omega
  have hstart : (153 * ((5 * dayOfYear + 2) / 153) + 2) / 5 ≤ dayOfYear := by omega
  generalize (5 * dayOfYear + 2) / 153 = months at *
  by_cases hlate : months < 10
  · have hmonth : ¬months + 3 ≤ 2 := by omega
    simp only [if_pos hlate, if_neg hmonth, Nat.add_sub_cancel]
    omega
  · have hmonth : months - 9 ≤ 2 := by omega
    have hback : months - 9 + 9 = months := by omega
    simp only [if_neg hlate, if_pos hmonth, hback, Int.add_sub_cancel]
    omega

theorem isLeapYear_iff (year : Int) :
    isLeapYear year = true ↔ year % 4 = 0 ∧ (year % 100 = 0 → year % 400 = 0) := by
  simp only [isLeapYear, Bool.and_eq_true, Bool.or_eq_true, decide_eq_true_eq]
  omega

/-- The calendar has the date, if the leap day comes in leap years only. -/
theorem isValid_dateFromMarch {year : Int} {dayOfYear : Nat} (h : dayOfYear ≤ 365)
    (hleap : dayOfYear = 365 → isLeapYear (year + 1) = true) :
    (dateFromMarch year dayOfYear).isValid = true := by
  unfold dateFromMarch CivilDate.isValid
  simp only [Bool.and_eq_true, decide_eq_true_eq]
  have hmonths : (5 * dayOfYear + 2) / 153 ≤ 11 := by omega
  have hrange : 153 * ((5 * dayOfYear + 2) / 153) ≤ 5 * dayOfYear + 2 ∧
      5 * dayOfYear + 2 < 153 * ((5 * dayOfYear + 2) / 153) + 153 := by omega
  generalize (5 * dayOfYear + 2) / 153 = months at *
  by_cases hfebruary : months = 11
  · subst hfebruary
    have hday : dayOfYear - 337 + 1 ≤ if isLeapYear (year + 1) then 29 else 28 := by
      split
      · omega
      · rename_i hcommon
        have hshort : dayOfYear ≠ 365 := fun heq => hcommon (hleap heq)
        omega
    simpa [daysInMonth] using hday
  · interval_cases months <;> simp [daysInMonth] <;> omega

/-! ## The parts of a day's number -/

/-- A day of a cycle lies in a century, in a group of four years there, in a year of the group,
and has a number in the year. -/
theorem exists_parts {day : Nat} (h : day < 146097) :
    ∃ century group year dayOfYear : Nat,
      (century ≤ 3 ∧ group ≤ 24 ∧ year ≤ 3 ∧ dayOfYear ≤ 365) ∧
      (dayOfYear = 365 → year = 3 ∧ (group = 24 → century = 3)) ∧
      day = century * 36524 + group * 1461 + year * 365 + dayOfYear ∧
      century = min (day / 36524) 3 ∧ group = (day - century * 36524) / 1461 ∧
      year = min ((day - century * 36524) % 1461 / 365) 3 ∧
      dayOfYear = (day - century * 36524) % 1461 - year * 365 := by
  refine ⟨_, _, _, _, ?_, ?_, ?_, rfl, rfl, rfl, rfl⟩ <;> omega

/-- A day lies in a year from March to February, and its date is that of the day there. -/
theorem exists_dateFromMarch (day : Int) :
    ∃ (year : Int) (dayOfYear : Nat), dayOfYear ≤ 365 ∧
      (dayOfYear = 365 → isLeapYear (year + 1) = true) ∧
      day = daysBeforeMarch year + dayOfYear - epochOffset ∧
      CivilDate.ofDay day = dateFromMarch year dayOfYear := by
  have hcycle : (day + epochOffset) % daysPerCycle < 146097 := Int.emod_lt_of_pos _ (by decide)
  have hnonneg : 0 ≤ (day + epochOffset) % daysPerCycle := Int.emod_nonneg _ (by decide)
  have hbelow : ((day + epochOffset) % daysPerCycle).toNat < 146097 := by omega
  have hsplit := Int.ediv_mul_add_emod (day + epochOffset) daysPerCycle
  obtain ⟨century, group, year, dayOfYear, hle, hlast, hsum, hcentury, hgroup, hyear, hday⟩ :=
    exists_parts hbelow
  refine ⟨(day + epochOffset) / daysPerCycle * 400 + (century * 100 + group * 4 + year : Nat),
    dayOfYear, hle.2.2.2, ?_, ?_, ?_⟩
  · intro hlong
    obtain ⟨rfl, hlastGroup⟩ := hlast hlong
    clear hcentury hgroup hyear hday hsum hsplit
    rw [isLeapYear_iff]
    omega
  · clear hcentury hgroup hyear hday
    have hleaps : (century * 100 + group * 4 + year) / 4 = century * 25 + group := by omega
    have hcenturies : (century * 100 + group * 4 + year) / 100 = century := by omega
    rw [daysBeforeMarch_eq _ (by omega), hleaps, hcenturies]
    omega
  · subst hday hyear hgroup hcentury
    rfl

/-- The date of a day is a date of the calendar. -/
theorem isValid_ofDay (day : Int) : (CivilDate.ofDay day).isValid = true := by
  obtain ⟨year, dayOfYear, hle, hleap, -, hdate⟩ := exists_dateFromMarch day
  rw [hdate]
  exact isValid_dateFromMarch hle hleap

/-- The date of a day has the number of the day. -/
theorem toDay_ofDay (day : Int) : (CivilDate.ofDay day).toDay = day := by
  obtain ⟨year, dayOfYear, hle, -, hday, hdate⟩ := exists_dateFromMarch day
  rw [hdate, toDay_dateFromMarch year hle, ← hday]

end DataExpr.Calendar
