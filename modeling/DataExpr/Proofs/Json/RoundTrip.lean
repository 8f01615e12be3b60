import DataExpr.Proofs.Json.Containers

/-!
# Values through JSON

A value that is written as JSON and read again is its JSON form, if its containers are not
nested too deep and the reader keeps its numbers (`readWith?_write`).  Whatever closes the
text, the value is read (`readBy_write`), by induction on what is inside.
-/

namespace DataExpr.Json

section

variable {double? : List Char → Option Float}

/-! ## Values that are no containers -/

theorem readValue?_word (nesting : Nat) (rest : List Char) :
    readValue? double? nesting ("null".toList ++ rest) = some (.null, rest) ∧
      readValue? double? nesting ("true".toList ++ rest) = some (.bool true, rest) ∧
      readValue? double? nesting ("false".toList ++ rest) = some (.bool false, rest) := by
  cases nesting <;> exact ⟨rfl, rfl, rfl⟩

theorem readValue?_writeText (nesting : Nat) (text : String) (rest : List Char) :
    readValue? double? nesting ((writeText text).toList ++ rest) = some (.text text, rest) := by
  obtain ⟨cs, hcs, hread⟩ := readText?_writeText text rest
  have hscalar : readScalar? double? ('"' :: cs) = some (.text text, rest) := by
    rw [readScalar?, hread]
    rfl
  rw [hcs]
  cases nesting <;> exact hscalar

/-- A number that is kept starts like a numeral. -/
theorem exists_cons_writeNumber {n : Float} (hfinite : n.isFinite = true)
    (h : IsExactInteger n ∨ ReadsBack double? n) :
    ∃ c cs, (writeNumber n).toList = c :: cs ∧ Decimal.isNumeralChar c = true := by
  have hread := number?_writeNumber hfinite h
  have hnumeral := isNumeralChar_writeNumber hfinite
  cases hchars : (writeNumber n).toList with
  | nil =>
    rw [hchars] at hread
    cases hread
  | cons c cs =>
    rw [hchars] at hnumeral
    exact ⟨c, cs, rfl, hnumeral c List.mem_cons_self⟩

theorem readBy_number {n : Float} (h : NumbersKept double? (.number n)) (nesting : Nat) :
    ReadBy (readValue? double? nesting) (.number n) := by
  intro rest hrest
  rw [write, Value.jsonForm]
  cases hfinite : n.isFinite with
  | false =>
    rw [writeNumber_of_not_isFinite hfinite]
    exact (readValue?_word nesting rest).1
  | true =>
    have hkept := h n (.self _) hfinite
    have hread := @readNumber?_append double? _ _ (isNumeralChar_writeNumber hfinite) hrest
    obtain ⟨c, cs, hchars, hc⟩ := exists_cons_writeNumber hfinite hkept
    rw [number?_writeNumber hfinite hkept, hchars, List.cons_append] at hread
    rw [hchars, List.cons_append, readValue?_numeral nesting hc, hread]
    rfl

/-! ## The first character -/

theorem opens_writeNumber {n : Float} (h : NumbersKept double? (.number n)) :
    Opens (writeNumber n).toList := by
  cases hfinite : n.isFinite with
  | false =>
    rw [writeNumber_of_not_isFinite hfinite]
    exact ⟨_, _, rfl, rfl, by decide, by decide⟩
  | true =>
    obtain ⟨c, cs, hchars, hc⟩ := exists_cons_writeNumber hfinite (h n (.self _) hfinite)
    refine ⟨c, cs, hchars, isJsonBlank_of_isNumeralChar hc, ?_, ?_⟩
    · rintro rfl
      cases hc
    · rintro rfl
      cases hc

theorem opens_write {value : Value} (h : NumbersKept double? value) : Opens (itemText value) := by
  cases value with
  | null => exact ⟨_, _, rfl, rfl, by decide, by decide⟩
  | bool b => cases b <;> exact ⟨_, _, rfl, rfl, by decide, by decide⟩
  | number n => exact opens_writeNumber h
  | text s => exact opens_writeText s
  | date instant => exact opens_writeText instant.text
  | pattern p => exact opens_writeText p.text
  | sequence items => exact ⟨_, _, toList_write_sequence items, rfl, by decide, by decide⟩
  | mapping entries => exact ⟨_, _, toList_write_mapping entries, rfl, by decide, by decide⟩

/-! ## All values -/

/-- What is written of a value is read, if containers may be nested as much as they are. -/
theorem readBy_write (value : Value) (hunique : value.WellFormed)
    (hnumbers : NumbersKept double? value) {nesting : Nat} (hnesting : value.nesting ≤ nesting) :
    ReadBy (readValue? double? nesting) value := by
  induction value using Value.induction_members generalizing nesting with
  | step value ih =>
    have hmember (member : Value) (hmem : member ∈ value.members) {nesting : Nat}
        (hnesting : member.nesting ≤ nesting) : ReadBy (readValue? double? nesting) member :=
      ih member hmem (hunique.of_mem_members hmem) (hnumbers.of_mem_members hmem) hnesting
    cases value with
    | null => exact fun rest _ => (readValue?_word nesting rest).1
    | bool b =>
      intro rest _
      obtain ⟨-, htrue, hfalse⟩ := readValue?_word nesting rest
      cases b
      · exact hfalse
      · exact htrue
    | number n => exact readBy_number hnumbers nesting
    | text s => exact fun rest _ => readValue?_writeText nesting s rest
    | date instant => exact fun rest _ => readValue?_writeText nesting instant.text rest
    | pattern p => exact fun rest _ => readValue?_writeText nesting p.text rest
    | sequence items =>
      intro rest _
      obtain ⟨nesting, rfl⟩ := Nat.exists_eq_add_one.2 (Nat.zero_lt_of_lt hnesting)
      have hitems : ∀ item ∈ items, ReadBy (readValue? double? nesting) item := fun item hitem =>
        hmember item hitem
          ((Value.nesting_le_itemsNesting hitem).trans (Nat.le_of_succ_le_succ hnesting))
      have hopens : ∀ item ∈ items, Opens (itemText item) := fun item hitem =>
        opens_write (hnumbers.of_mem_members hitem)
      rw [toList_write_sequence, List.cons_append, List.append_assoc]
      exact readContainer?_sequence hitems hopens rest
    | mapping entries =>
      intro rest _
      obtain ⟨nesting, rfl⟩ := Nat.exists_eq_add_one.2 (Nat.zero_lt_of_lt hnesting)
      have hle : Value.itemsNesting (Entries.values entries) ≤ nesting := by
        rw [← Value.entriesNesting_eq]
        exact Nat.le_of_succ_le_succ hnesting
      have hentries : ∀ entry ∈ entries, ReadBy (readValue? double? nesting) entry.2 :=
        fun entry hentry =>
          have hvalue : entry.2 ∈ Entries.values entries := List.mem_map_of_mem hentry
          hmember entry.2 hvalue ((Value.nesting_le_itemsNesting hvalue).trans hle)
      have hkeys : Entries.Unique (Value.jsonEntries entries) := by
        rw [Entries.Unique, Value.keys_jsonEntries]
        exact hunique.1
      have hread := readContainer?_mapping hentries rest
      rw [Value.ofPairs, Entries.ofPairs_of_unique hkeys] at hread
      rw [toList_write_mapping, List.cons_append, List.append_assoc]
      exact hread

/-- A value that is written as JSON and read again is its JSON form, however the reader
reads what is no integer. -/
theorem readWith?_write {value : Value} (hunique : value.WellFormed)
    (hnesting : value.nesting ≤ maxNesting) (hnumbers : NumbersKept double? value) :
    readWith? double? (write value) = some value.jsonForm := by
  have hread := readBy_write value hunique hnumbers hnesting [] closes_nil
  rw [List.append_nil] at hread
  rw [readWith?, hread]
  rfl

end

/-! ## A reader that rounds twice -/

/-- A numeral in doubles: its digits without the point, times or over a power of ten. -/
def scaled (numeral : Decimal.Numeral) : Float :=
  let digits := Decimal.ofNat numeral.mantissa
  let power := Float.ofScientific 1 false numeral.scale.natAbs
  if numeral.scale < 0 then digits / power else digits * power

/-- Reads a numeral with two roundings, one of its digits and one of the scaled result. -/
def scaledDouble? (numeral : List Char) : Option Float :=
  let magnitude? := (Decimal.Numeral.ofChars? (unsigned numeral)).map scaled
  let signed? :=
    match numeral with
    | '-' :: _ => magnitude?.map fun n => -n
    | _ => magnitude?
  signed?.filter fun n => !n.isInf

/-- Readings with texts to escape, a date, a pattern, a fraction, and numbers that JSON does
not have. -/
def readings : Value :=
  .mapping [("na\"me", .text "\x07\\é"), ("since", .date ⟨0, 0⟩), ("like", .pattern ⟨"^t", "i"⟩),
    ("values", .sequence [.number (-0), .number 1.5, .number Float.nan])]

theorem numbersKept_readings : NumbersKept scaledDouble? readings := by
  intro n hn hfinite
  have hnumber : n = -0 ∨ n = 1.5 ∨ n = Float.nan := by
    simpa [readings, Value.contains_iff (.mapping _), Value.contains_iff (.sequence _),
      Value.contains_iff (.number _), Value.contains_iff (.text _), Value.contains_iff (.date _),
      Value.contains_iff (.pattern _), Value.members, Entries.values, eq_comm] using hn
  rcases hnumber with rfl | rfl | rfl
  · exact .inl ⟨⟨true, 0, -1074⟩, 0, by decide +kernel⟩
  · right
    unfold ReadsBack
    decide +kernel
  · cases hfinite

/-- The readings come back, although two roundings do not keep every number. -/
theorem readWith?_write_readings :
    (readings.WellFormed ∧ readings.nesting ≤ maxNesting ∧
      NumbersKept scaledDouble? readings) ∧
      readWith? scaledDouble? (write readings) =
        some (.mapping [("na\"me", .text "\x07\\é"), ("since", .text "1970-01-01T00:00:00.000Z"),
          ("like", .text "/^t/i"), ("values", .sequence [.number 0, .number 1.5, .null])]) ∧
      ¬ReadsBack scaledDouble? 31.245270191439438 := by
  have hunique : readings.WellFormed := by
    simp [readings, Value.WellFormed, Value.entriesWellFormed, Value.itemsWellFormed,
      Entries.Unique, Entries.keys]
  have hnesting : readings.nesting ≤ maxNesting := by decide
  refine ⟨⟨hunique, hnesting, numbersKept_readings⟩, ?_, ?_⟩
  · rw [readWith?_write hunique hnesting numbersKept_readings]
    rfl
  · unfold ReadsBack
    decide +kernel

end DataExpr.Json
