import DataExpr.Calendar.Notation
import DataExpr.Proofs.Calendar.Days
import DataExpr.Proofs.Text.Runs

/-!
# The text of an instant is read back

The text of an instant in the years from 0 to 9999 is its RFC 3339 form in UTC, and the reader of
that notation takes it for the same moment, cut off after the milliseconds (`readDate?_text`).

The fields stand in between: an instant has fields (`Instant.fields`), its text is theirs
(`Instant.toList_text`), every reader of the notation takes the field that was written, and the
calendar makes an instant of the fields again (`toInstant?_fields`).  That instant is
`Instant.written`.  It has the same fields and therefore the same text, and lies in the same
millisecond.
-/

namespace DataExpr.Calendar

open DataExpr.Decimal (natOfDigits)
open Instant (padded)

/-! ## Numbers with leading zeros -/

section

variable {width n : Nat}

theorem length_padded (hwidth : 0 < width) (h : n < 10 ^ width) :
    (padded width n).length = width := by
  have hdigits : (Nat.toDigits 10 n).length ≤ width :=
    (Nat.length_toDigits_le_iff (by decide) hwidth).2 h
  rw [padded, List.length_append, List.length_replicate]
  omega

theorem isDigit_of_mem_padded {c : Char} (h : c ∈ padded width n) : c.isDigit = true := by
  rcases List.mem_append.1 h with hzero | hdigit
  · rw [(List.mem_replicate.1 hzero).2]
    rfl
  · exact Nat.isDigit_of_mem_toDigits (by decide) (by decide) hdigit

theorem natOfDigits_padded : natOfDigits (padded width n) = n := by
  rw [natOfDigits, padded, Nat.ofDigitChars_append, Nat.ofDigitChars_replicate_zero, Nat.mul_zero,
    Nat.ofDigitChars_ten_toDigits]

end

/-! ## Readers of what was written -/

namespace Reader

/-- A reader goes on behind what the one before it has read. -/
theorem bind_apply {α β : Type} {reader : Reader α} {next : α → Reader β} {cs rest : List Char}
    {result : α} (h : reader cs = some (result, rest)) :
    (reader >>= next) cs = next result rest := by
  show (reader cs).bind (fun read => next read.1 read.2) = next result rest
  rw [h]
  rfl

theorem number_padded {width n : Nat} (hwidth : 0 < width) (h : n < 10 ^ width)
    (rest : List Char) : number width width (padded width n ++ rest) = some (n, rest) := by
  have hlength := length_padded hwidth h
  have htake : (padded width n ++ rest).take width = padded width n := by
    rw [List.take_append_of_le_length (Nat.le_of_eq hlength.symm), List.take_of_length_le
      (Nat.le_of_eq hlength)]
  have hdigits : (padded width n).takeWhile Char.isDigit = padded width n :=
    List.takeWhile_eq_self_iff.2 fun c hc => isDigit_of_mem_padded hc
  unfold number
  dsimp only
  rw [htake, hdigits, if_pos (Nat.le_of_eq hlength.symm), List.drop_left, natOfDigits_padded]

theorem oneOf_cons {expected : List Char} {c : Char} (h : expected.contains c = true)
    (cs rest : List Char) : oneOf expected (c :: cs ++ rest) = some ((), cs ++ rest) := by
  rw [List.cons_append, oneOf, if_pos h]

/-- Milliseconds are read as nanoseconds. -/
theorem optionalFraction_padded {milli : Nat} (h : milli < 1000) {rest : List Char}
    (hrest : ∀ c ∈ rest.head?, c.isDigit = false) :
    optionalFraction ('.' :: padded 3 milli ++ rest) = some (milli * nanosPerMilli, rest) := by
  have hlength : (padded 3 milli).length = 3 := length_padded (by decide) h
  have hdigits : (padded 3 milli ++ rest).takeWhile Char.isDigit = padded 3 milli :=
    takeWhile_run (fun c hc => isDigit_of_mem_padded hc) hrest
  have hkept : (padded 3 milli).take 9 = padded 3 milli :=
    List.take_of_length_le (by rw [hlength]; decide)
  have hne : ¬(padded 3 milli).isEmpty = true := by
    intro hempty
    rw [List.isEmpty_iff.1 hempty] at hlength
    cases hlength
  rw [List.cons_append, optionalFraction, fraction, hdigits, if_neg hne, hkept, List.drop_left,
    natOfDigits_padded, hlength]
  rfl

end Reader

/-! ## Fields -/

namespace Fields

/-- The characters of fields in UTC, with milliseconds. -/
def chars (f : Fields) : List Char :=
  padded 4 f.date.year.natAbs ++ ('-' :: padded 2 f.date.month ++ ('-' :: padded 2 f.date.day ++
    ('T' :: padded 2 f.hour ++ (':' :: padded 2 f.minute ++ (':' :: padded 2 f.second ++
      ('.' :: padded 3 (f.nano / nanosPerMilli) ++ ['Z']))))))

/-- Digits are written, and marks between them. -/
theorem mem_chars {f : Fields} {c : Char} (h : c ∈ f.chars) :
    c.isDigit = true ∨ c ∈ ['-', 'T', ':', '.', 'Z'] := by
  have hdigit {width n : Nat} (hc : c ∈ padded width n) : c.isDigit = true :=
    isDigit_of_mem_padded hc
  simp only [chars, List.mem_append, List.mem_cons] at h ⊢
  grind

/-- The fields can be written with the full width of each, and nothing is cut off. -/
structure IsPlain (f : Fields) : Prop where
  year : 0 ≤ f.date.year ∧ f.date.year ≤ 9999
  month : f.date.month < 100
  day : f.date.day < 100
  hour : f.hour < 100
  minute : f.minute < 100
  second : f.second < 100
  nano : ∃ milli < 1000, f.nano = milli * nanosPerMilli
  offset : f.offset = 0
  weekday : f.weekday? = none

/-- Plain fields are read from their characters. -/
theorem IsPlain.rfc3339_chars {f : Fields} (h : f.IsPlain) :
    Reader.rfc3339 f.chars = some (f, []) := by
  obtain ⟨⟨year, month, day⟩, hour, minute, second, nano, offset, weekday?⟩ := f
  obtain ⟨hyear, hmonth, hday, hhour, hminute, hsecond, hnano, hoffset, hweekday⟩ := h
  obtain ⟨milli, hmilli, hnano⟩ := hnano
  dsimp only at hyear hmonth hday hhour hminute hsecond hnano hoffset hweekday
  have hdivided : milli * nanosPerMilli / nanosPerMilli = milli := Nat.mul_div_cancel _ (by decide)
  have hwidth : year.natAbs < 10 ^ 4 := by omega
  have habs : (year.natAbs : Int) = year := by omega
  have hstop : ∀ c ∈ ['Z'].head?, c.isDigit = false := by simp
  have hzulu : Reader.zuluOrOffset ['Z'] = some (0, []) := rfl
  subst hnano hoffset hweekday
  rw [Reader.rfc3339, chars]
  dsimp only
  rw [hdivided,
    Reader.bind_apply (Reader.number_padded (by decide) hwidth _),
    Reader.bind_apply (Reader.oneOf_cons (by decide) _ _),
    Reader.bind_apply (Reader.number_padded (by decide) hmonth _),
    Reader.bind_apply (Reader.oneOf_cons (by decide) _ _),
    Reader.bind_apply (Reader.number_padded (by decide) hday _),
    Reader.bind_apply (Reader.oneOf_cons (by decide) _ _),
    Reader.bind_apply (Reader.number_padded (by decide) hhour _),
    Reader.bind_apply (Reader.oneOf_cons (by decide) _ _),
    Reader.bind_apply (Reader.number_padded (by decide) hminute _),
    Reader.bind_apply (Reader.oneOf_cons (by decide) _ _),
    Reader.bind_apply (Reader.number_padded (by decide) hsecond _),
    Reader.bind_apply (Reader.optionalFraction_padded hmilli hstop),
    Reader.bind_apply hzulu, habs]
  rfl

end Fields

/-! ## Instants -/

namespace Instant

/-- The moment as it is written, in UTC and cut off after the milliseconds. -/
def fields (instant : Instant) : Fields where
  date := CivilDate.ofDay (instant.second / secondsPerDay)
  hour := (instant.second % secondsPerDay).toNat / 3600
  minute := (instant.second % secondsPerDay).toNat / 60 % 60
  second := (instant.second % secondsPerDay).toNat % 60 + instant.nano / nanosPerSecond
  nano := instant.nano % nanosPerSecond / nanosPerMilli * nanosPerMilli
  offset := 0
  weekday? := none

/-- The instant that is written.  A second that goes on past its end is written as the next one,
and only the last second of a minute is written as a leap second then. -/
def written (instant : Instant) : Instant :=
  if instant.second % 60 = 59 then
    ⟨instant.second, instant.nano / nanosPerMilli * nanosPerMilli⟩
  else
    ⟨instant.second + (instant.nano / nanosPerSecond : Nat),
      instant.nano % nanosPerSecond / nanosPerMilli * nanosPerMilli⟩

/-- The instant lies in a year of four digits, and in a second that may be a leap second. -/
structure IsPlain (instant : Instant) : Prop where
  nano : instant.nano < 2 * nanosPerSecond
  year : 0 ≤ (CivilDate.ofDay (instant.second / secondsPerDay)).year ∧
    (CivilDate.ofDay (instant.second / secondsPerDay)).year ≤ 9999

end Instant

theorem month_day_of_isValid {date : CivilDate} (h : date.isValid = true) :
    date.month ≤ 12 ∧ date.day ≤ 31 := by
  simp only [CivilDate.isValid, Bool.and_eq_true, decide_eq_true_eq] at h
  obtain ⟨⟨⟨-, hmonth⟩, -⟩, hday⟩ := h
  refine ⟨hmonth, Nat.le_trans hday ?_⟩
  unfold daysInMonth
  repeat' split
  all_goals decide

section

variable {instant : Instant}

/-- The text of an instant is that of its fields. -/
theorem toList_text (h : instant.IsPlain) : instant.text.toList = instant.fields.chars := by
  have hmilli : instant.nano % nanosPerSecond / nanosPerMilli * nanosPerMilli / nanosPerMilli =
      instant.nano % nanosPerSecond / nanosPerMilli := Nat.mul_div_cancel _ (by decide)
  rw [Instant.text, String.toList_ofList, Instant.yearText, if_pos h.year]
  simp only [Instant.fields, Fields.chars, hmilli, List.append_assoc]

theorem isPlain_fields (h : instant.IsPlain) : instant.fields.IsPlain := by
  obtain ⟨hmonth, hday⟩ := month_day_of_isValid (isValid_ofDay (instant.second / secondsPerDay))
  have hnano : instant.nano / nanosPerSecond < 2 := Nat.div_lt_of_lt_mul (Nat.mul_comm _ _ ▸ h.nano)
  have htime : (instant.second % secondsPerDay).toNat < 86400 := by
    simp only [secondsPerDay]
    omega
  have hmilli : instant.nano % nanosPerSecond / nanosPerMilli < 1000 := by
    simp only [nanosPerSecond, nanosPerMilli]
    omega
  exact {
    year := h.year
    month := Nat.lt_of_le_of_lt hmonth (by decide)
    day := Nat.lt_of_le_of_lt hday (by decide)
    hour := by simp only [Instant.fields]; omega
    minute := by simp only [Instant.fields]; omega
    second := by simp only [Instant.fields]; omega
    nano := ⟨_, hmilli, rfl⟩
    offset := rfl
    weekday := rfl }

/-- Instants of one day have the same fields if they agree in the minute of the day, the second
of the minute and the millisecond. -/
theorem fields_congr {other : Instant}
    (hminute : instant.second / 60 = other.second / 60)
    (hsecond : instant.second % 60 + (instant.nano / nanosPerSecond : Nat) =
      other.second % 60 + (other.nano / nanosPerSecond : Nat))
    (hmilli : instant.nano % nanosPerSecond / nanosPerMilli =
      other.nano % nanosPerSecond / nanosPerMilli) :
    instant.fields = other.fields := by
  have hday : instant.second / secondsPerDay = other.second / secondsPerDay := by
    simp only [secondsPerDay]
    omega
  have htime : (instant.second % secondsPerDay).toNat / 60 =
      (other.second % secondsPerDay).toNat / 60 := by
    simp only [secondsPerDay]
    omega
  have hhour : (instant.second % secondsPerDay).toNat / 3600 =
      (other.second % secondsPerDay).toNat / 3600 := by
    omega
  have hend : (instant.second % secondsPerDay).toNat % 60 + instant.nano / nanosPerSecond =
      (other.second % secondsPerDay).toNat % 60 + other.nano / nanosPerSecond := by
    simp only [secondsPerDay]
    omega
  simp only [Instant.fields, hday, hhour, htime, hend, hmilli]

/-- The instant that is written has the same fields. -/
theorem fields_written (h : instant.IsPlain) : instant.written.fields = instant.fields := by
  have hnano := h.nano
  simp only [nanosPerSecond] at hnano
  unfold Instant.written
  split <;> apply fields_congr <;> simp only [nanosPerSecond, nanosPerMilli] <;> omega

/-- The instant that is written lies in the same millisecond. -/
theorem toMillis_written (instant : Instant) : instant.written.toMillis = instant.toMillis := by
  unfold Instant.written
  split <;> simp only [Instant.toMillis, nanosPerSecond, nanosPerMilli] <;> omega

theorem isPlain_written (h : instant.IsPlain) : instant.written.IsPlain := by
  have hdate : CivilDate.ofDay (instant.written.second / secondsPerDay) =
      CivilDate.ofDay (instant.second / secondsPerDay) :=
    congrArg Fields.date (fields_written h)
  have hnano := h.nano
  refine ⟨?_, hdate ▸ h.year⟩
  simp only [nanosPerSecond] at hnano ⊢
  unfold Instant.written
  split <;> simp only [nanosPerSecond, nanosPerMilli] <;> omega

/-- The text of an instant is also that of the instant that is written. -/
theorem text_written (h : instant.IsPlain) : instant.written.text = instant.text := by
  rw [← String.toList_inj, toList_text (isPlain_written h), toList_text h, fields_written h]

/-! ## The instant of the fields -/

/-- Instants with plain years are within the reach of the calendar. -/
theorem isRepresentable_of_year {second : Int} {nano : Nat}
    (h : 0 ≤ (CivilDate.ofDay (second / secondsPerDay)).year ∧
      (CivilDate.ofDay (second / secondsPerDay)).year ≤ 9999) :
    (Instant.mk second nano).isRepresentable = true := by
  have hvalid := month_day_of_isValid (isValid_ofDay (second / secondsPerDay))
  have hday := toDay_ofDay (second / secondsPerDay)
  have hfirst : (CivilDate.mk Instant.firstYear 1 1).toDay ≤ -800000 := by decide
  have hlast : 4000000 ≤ (CivilDate.mk Instant.lastYear 12 31).toDay := by decide
  simp only [Instant.isRepresentable, Bool.and_eq_true, decide_eq_true_eq]
  generalize second / secondsPerDay = day at *
  generalize CivilDate.ofDay day = date at *
  simp only [CivilDate.toDay, daysPerCycle, epochOffset] at hday
  split at hday <;> omega

/-- The calendar makes the instant that is written of the fields. -/
theorem toInstant?_fields (h : instant.IsPlain) :
    instant.fields.toInstant? = some instant.written := by
  have hnano := h.nano
  have htoDay := toDay_ofDay (instant.second / secondsPerDay)
  have hinstant : (Instant.mk
      (instant.fields.date.toDay * secondsPerDay + instant.fields.hour * 3600 +
        instant.fields.minute * 60 + (instant.fields.second - instant.fields.second / 60 : Nat) -
        instant.fields.offset)
      (instant.fields.nano + instant.fields.second / 60 * nanosPerSecond)) = instant.written := by
    simp only [Instant.fields, htoDay]
    simp only [nanosPerSecond] at hnano
    unfold Instant.written
    split <;> simp only [Instant.mk.injEq, nanosPerSecond, nanosPerMilli, secondsPerDay] <;> omega
  have htime : (instant.second % secondsPerDay).toNat < 86400 := by
    simp only [secondsPerDay]
    omega
  have hfirst : Instant.firstYear ≤ instant.fields.date.year :=
    Int.le_trans (by decide) h.year.1
  have hlast : instant.fields.date.year ≤ Instant.lastYear :=
    Int.le_trans h.year.2 (by decide)
  have hvalid : instant.fields.date.isValid = true := isValid_ofDay _
  have hhour : instant.fields.hour < 24 := by
    simp only [Instant.fields]
    omega
  have hminute : instant.fields.minute < 60 := Nat.mod_lt _ (by decide)
  have hsecond : instant.fields.second ≤ 60 := by
    simp only [nanosPerSecond] at hnano
    simp only [Instant.fields, nanosPerSecond]
    omega
  have hoffset : instant.fields.offset.natAbs < secondsPerDay.natAbs := by
    show (0 : Int).natAbs < secondsPerDay.natAbs
    decide
  have hreach : instant.written.isRepresentable = true :=
    isRepresentable_of_year (isPlain_written h).year
  unfold Fields.toInstant?
  dsimp only
  rw [hinstant, hvalid, hreach, if_pos]
  simp only [Bool.and_eq_true, decide_eq_true_eq, and_true]
  exact ⟨⟨⟨⟨⟨⟨hfirst, hlast⟩, hhour⟩, hminute⟩, hsecond⟩, hoffset⟩, rfl⟩

/-! ## Reading the text -/

/-- The text has no white space around it. -/
theorem trim_text (h : instant.IsPlain) :
    Text.trim instant.text.toList = instant.text.toList := by
  have hmarks : (['-', 'T', ':', '.', 'Z'].all fun mark => !Text.isBlank mark) = true := by decide
  apply trim_of_not_isBlank
  intro c hc
  rw [toList_text h] at hc
  rcases Fields.mem_chars hc with hdigit | hmark
  · exact not_isBlank_of_isDigit hdigit
  · simpa using List.all_eq_true.1 hmarks c hmark

/-- The first notation decides on the texts that it reads. -/
theorem readDate?_of_rfc3339 {text : String} {f : Fields}
    (hread : Reader.rfc3339.whole (Text.trim text.toList) = some f)
    (hinstant : f.toInstant? = some instant) : readDate? text = some instant := by
  rw [readDate?, notations, List.findSome?_cons, hread, Option.bind_some, hinstant]

/-- The text of an instant is read as the instant that is written. -/
theorem readDate?_text (h : instant.IsPlain) : readDate? instant.text = some instant.written := by
  have hread : Reader.rfc3339.whole (Text.trim instant.text.toList) = some instant.fields := by
    rw [trim_text h, toList_text h, Reader.whole, (isPlain_fields h).rfc3339_chars]
  exact readDate?_of_rfc3339 hread (toInstant?_fields h)

end

end DataExpr.Calendar
