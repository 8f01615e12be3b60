import DataExpr.Evaluator.Basic
import DataExpr.Proofs.Decimal.Positions
import DataExpr.Proofs.Text.Units

/-!
# Elements by position

Sequences and texts have elements, and their properties are the number of these and each
of them by its position in the one usual spelling (`property_of_hasElements`).  The elements
of a text are its units, so a text comes back from its elements unless a character takes two
units (`elements_by_position`).
-/

namespace DataExpr

/-- A position is not spelled with letters. -/
theorem Decimal.repr_ne_length (i : Nat) : Nat.repr i ≠ "length" := by
  intro heq
  have hl : 'l' ∈ Nat.toDigits 10 i := by
    rw [← Nat.toList_repr, heq]
    decide
  cases Nat.isDigit_of_mem_toDigits (by decide) (by decide) hl

/-- The units of a text, each as a text of its own. -/
def unitTexts (t : String) : List String :=
  (Text.units t).map fun unit => String.singleton (Text.charOfUnit unit)

/-- The items of a sequence, and the units of a text. -/
inductive Value.HasElements : Value → List Value → Prop
  | sequence (items : List Value) : HasElements (.sequence items) items
  | text (t : String) : HasElements (.text t) ((unitTexts t).map .text)

namespace Value.HasElements

variable {target : Value} {elements : List Value} (h : target.HasElements elements)

include h

/-- The properties are the length and what stands at a position. -/
theorem property_eq (key : String) :
    property (some target) key =
      .ok (if key = "length" then some (.ofNat elements.length)
        else (Decimal.readIndex? key).bind fun i => elements[i]?) := by
  cases h with
  | sequence items => rfl
  | text t =>
    show Except.ok (textProperty t key) = _
    rw [textProperty, unitTexts, List.length_map, List.length_map]
    split
    · rfl
    · simp only [List.getElem?_map, Option.map_bind, Option.map_map]
      rfl

theorem property_length :
    property (some target) "length" = .ok (some (.ofNat elements.length)) := by
  rw [h.property_eq, if_pos rfl]

theorem property_repr (hlimit : elements.length ≤ Decimal.positionLimit) {i : Nat}
    (hi : i < elements.length) :
    property (some target) (Nat.repr i) = .ok (some elements[i]) := by
  have hread : Decimal.readIndex? (Nat.repr i) = some i :=
    Decimal.readIndex?_eq_some_iff.2 ⟨rfl, Nat.lt_of_lt_of_le hi hlimit⟩
  rw [h.property_eq, if_neg (Decimal.repr_ne_length i), hread, Option.bind_some,
    List.getElem?_eq_getElem hi]

theorem property_other {key : String} (hlength : key ≠ "length")
    (hpositions : ∀ i < elements.length, key ≠ Nat.repr i) :
    property (some target) key = .ok none := by
  rw [h.property_eq, if_neg hlength]
  congr 1
  rw [Option.bind_eq_none_iff]
  intro i hread
  rw [List.getElem?_eq_none_iff]
  apply Nat.le_of_not_lt
  intro hi
  exact hpositions i hi (Decimal.readIndex?_eq_some_iff.1 hread).1

end Value.HasElements

/-! ## Texts -/

/-- Joined, the units of a text are its characters again, or what is left of them. -/
theorem join_unitTexts (t : String) :
    String.join (unitTexts t) = String.ofList (t.toList.flatMap Text.charsOfUnits) := by
  have hsingle (chars : List Char) :
      String.join (chars.map String.singleton) = String.ofList chars := by
    rw [← String.toList_inj, String.toList_join, String.toList_ofList, List.flatMap_map]
    simp
  rw [← Text.map_charOfUnit_units, ← hsingle, List.map_map]
  rfl

theorem join_unitTexts_eq_self_iff {t : String} :
    String.join (unitTexts t) = t ↔ ∀ c ∈ t.toList, c.toNat < 0x10000 := by
  rw [join_unitTexts, ← String.toList_inj, String.toList_ofList,
    Text.flatMap_charsOfUnits_eq_self_iff]

/-- The properties of sequences and texts are found by position.  One is the number of
elements, each position in its usual spelling gives the element that stands there, and every
other key gives nothing; none of them fails.

The elements of a text, one behind the other, are the text with two replacement characters
in the place of every character that takes two units.  So they are the text itself just if
it has none of these. -/
theorem elements_by_position :
    (∀ target elements, Value.HasElements target elements →
      elements.length ≤ Decimal.positionLimit →
        property (some target) "length" = .ok (some (.ofNat elements.length)) ∧
        (∀ i (hi : i < elements.length),
          property (some target) (Nat.repr i) = .ok (some elements[i])) ∧
        ∀ key, key ≠ "length" → (∀ i < elements.length, key ≠ Nat.repr i) →
          property (some target) key = .ok none) ∧
      ∀ t : String, (Text.units t).length ≤ Decimal.positionLimit →
        ∃ pieces : List String, pieces.length = (Text.units t).length ∧
          (∀ i (hi : i < pieces.length),
            property (some (.text t)) (Nat.repr i) = .ok (some (.text pieces[i]))) ∧
          String.join pieces = String.ofList (t.toList.flatMap Text.charsOfUnits) ∧
          (String.join pieces = t ↔ ∀ c ∈ t.toList, c.toNat < 0x10000) := by
  refine ⟨fun target elements h hlimit => ?_, fun t hlimit => ?_⟩
  · exact ⟨h.property_length, fun i hi => h.property_repr hlimit hi, fun key => h.property_other⟩
  · have hlength : (unitTexts t).length = (Text.units t).length := List.length_map _
    refine ⟨unitTexts t, hlength, fun i hi => ?_, join_unitTexts t, join_unitTexts_eq_self_iff⟩
    have hposition : i < ((unitTexts t).map Value.text).length := by rwa [List.length_map]
    have helement := (Value.HasElements.text t).property_repr
      (by rwa [List.length_map, hlength]) hposition
    rwa [List.getElem_map] at helement

/-- A letter and a face are three elements, of which two are halves of the face. -/
theorem elements_by_position_face :
    property (some (.text "a😀")) "length" = .ok (some (.ofNat 3)) ∧
      property (some (.text "a😀")) "1" = .ok (some (.text "\uFFFD")) ∧
      property (some (.text "a😀")) "01" = .ok none ∧
      ∃ pieces : List String, pieces.length = 3 ∧
        (∀ i (hi : i < pieces.length),
          property (some (.text "a😀")) (Nat.repr i) = .ok (some (.text pieces[i]))) ∧
        String.join pieces ≠ "a😀" := by
  obtain ⟨hproperties, htexts⟩ := elements_by_position
  have hunits : Text.units "a😀" = [97, 55357, 56832] := by decide +kernel
  have helements : (unitTexts "a😀").map Value.text =
      [.text "a", .text "\uFFFD", .text "\uFFFD"] := by
    rw [unitTexts, hunits]
    rfl
  have htext := Value.HasElements.text "a😀"
  rw [helements] at htext
  obtain ⟨hlength, hposition, hother⟩ := hproperties _ _ htext (by decide)
  refine ⟨hlength, hposition 1 (by decide), hother "01" (by decide) (by decide), ?_⟩
  obtain ⟨pieces, hcount, hpieces, -, hback⟩ := htexts "a😀" (by rw [hunits]; decide)
  rw [hunits] at hcount
  refine ⟨pieces, hcount, hpieces, fun hjoin => ?_⟩
  have hshort := hback.1 hjoin (Char.ofNat 0x1F600) (by decide)
  exact absurd hshort (by decide)

end DataExpr
