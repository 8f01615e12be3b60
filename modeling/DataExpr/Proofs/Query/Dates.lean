import DataExpr.Proofs.Calendar.Texts
import DataExpr.Query.Inference
import DataExpr.Value.Display
import DataExpr.Value.Equality

/-!
# Dates survive their text

A date in the years from 0 to 9999 is taken for a date again when its text is typed, and the two
are equal to the millisecond and have the same text (`typedValue_display_date`).  The letter `T`
keeps the text from being read as a number, and the dash from being read as a truth value.
-/

namespace DataExpr

open Calendar (Instant)

section

variable {instant : Instant}

theorem mem_text (h : instant.IsPlain) {mark : Char} (hmark : mark ∈ ['-', 'T']) :
    mark ∈ instant.text.toList := by
  rw [Calendar.toList_text h, Calendar.Fields.chars]
  simp only [List.mem_append, List.mem_cons, List.not_mem_nil, or_false] at hmark ⊢
  rcases hmark with rfl | rfl <;> simp

/-- The text of a date is no number. -/
theorem readNumber?_text (h : instant.IsPlain) : TypedText.readNumber? instant.text = none := by
  have hother : instant.text.toList.all Decimal.isNumeralChar ≠ true := by
    rw [ne_eq, List.all_eq_true]
    intro hall
    have hT := hall 'T' (mem_text h (by decide))
    cases hT
  rw [TypedText.readNumber?, Calendar.trim_text h, if_neg hother]

/-- The text of a date is no truth value. -/
theorem readBool?_text (h : instant.IsPlain) : TypedText.readBool? instant.text = none := by
  have hdash : '-' ∈ instant.text.toList.map Char.toLower :=
    List.mem_map.2 ⟨'-', mem_text h (by decide), rfl⟩
  have hother {word : List Char} (hword : '-' ∉ word) :
      instant.text.toList.map Char.toLower ≠ word := by
    rintro rfl
    exact hword hdash
  rw [TypedText.readBool?, if_neg (hother (by decide)), if_neg (hother (by decide))]

/-- A date is taken for a date again. -/
theorem typedValue_text (h : instant.IsPlain) :
    typedValue instant.text = .date instant.written := by
  rw [typedValue, TypedText.infer, readNumber?_text h, readBool?_text h]
  simp only [Calendar.readDate?_text h]
  rfl

/-- The text of a date is neither a number nor a truth value.  It is taken for a date that is
equal to the first one and has the same text. -/
theorem typedValue_display_date (h : instant.IsPlain) :
    TypedText.readNumber? (Value.date instant).display = none ∧
      TypedText.readBool? (Value.date instant).display = none ∧
      ∃ read, typedValue (Value.date instant).display = .date read ∧
        (Value.date read).deepEqual (.date instant) = true ∧
        (Value.date read).display = (Value.date instant).display := by
  have hdisplay (instant : Instant) : (Value.date instant).display = instant.text := by
    rw [Value.display]
  simp only [hdisplay]
  refine ⟨readNumber?_text h, readBool?_text h, instant.written, typedValue_text h, ?_,
    Calendar.text_written h⟩
  rw [Value.deepEqual, Calendar.toMillis_written, beq_self_eq_true]

end

/-- The last nanosecond of a leap second before 1970. -/
def endOfLeapSecond : Instant := ⟨-1, 1999999999⟩

/-- The leap second is kept, and what is finer than a millisecond is cut off. -/
theorem typedValue_display_endOfLeapSecond :
    endOfLeapSecond.IsPlain ∧
      (Value.date endOfLeapSecond).display = "1969-12-31T23:59:60.999Z" ∧
      ∃ read, typedValue (Value.date endOfLeapSecond).display = .date read ∧
        (Value.date read).deepEqual (.date endOfLeapSecond) = true ∧
        (Value.date read).display = (Value.date endOfLeapSecond).display := by
  have hplain : endOfLeapSecond.IsPlain := ⟨by decide, by decide⟩
  exact ⟨hplain, by decide, (typedValue_display_date hplain).2.2⟩

end DataExpr
