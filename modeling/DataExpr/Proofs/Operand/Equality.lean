import DataExpr.Operand
import DataExpr.Proofs.Value.Equivalence

/-!
# The equality operators

Strict equality compares by structure, and loose equality converts what is of different
kinds first, one side at a time.  One conversion after the other comes to a single
comparison (`valuesLooselyEqual_eq`).  The two equalities agree on operands of one kind
(`looseEqual_of_kind?_eq`), and both are symmetric.  For loose equality this is more than
the symmetry of deep equality: whichever side is converted first, both orders of the
operands end at the same comparison (`mixedEqual_comm`).

What is converted is the same as what it is converted to.  A truth value is loosely equal
to what its number is loosely equal to (`looseEqual_bool`), and a container, date or
pattern to the numbers and texts that its text is loosely equal to (`looseEqual_display`).
Null and nothing are not converted and are loosely equal to each other only.

`equalities_coherent` states all of it together.
-/

namespace DataExpr.Operand

/-- The kind of a value; nothing has none. -/
def kind? (operand : Operand) : Option Kind :=
  operand.map Value.kind

/-- Null, or nothing. -/
def IsNullish (operand : Operand) : Prop :=
  operand = none ∨ operand = some .null

/-- The value, if there is one, is well-formed. -/
def WellFormed (operand : Operand) : Prop :=
  ∀ value ∈ operand, value.WellFormed

/-! ## What conversions come to -/

/-- A truth value as the number it stands for, and other values as they are. -/
def numeric : Value → Value
  | .bool b => .number (numberOfBool b)
  | value => value

/-- Loose equality of two values of different kinds, truth values being numbers already.
A number or a text is compared with the text of anything else. -/
def mixedEqual : Value → Value → Bool
  | .number a, .number b => a == b
  | .number a, b => a == numberOfText b.display
  | a, .number b => numberOfText a.display == b
  | .text a, b => a == b.display
  | a, .text b => a.display == b
  | _, _ => false

/-- It does not matter which side is converted. -/
theorem mixedEqual_comm (a b : Value) : mixedEqual a b = mixedEqual b a := by
  cases a <;> cases b <;> first | exact BEq.comm | rfl

/-- Beside a number or a text the text of a value does for the value. -/
theorem mixedEqual_text_display {a b : Value} (ha : isNumberOrText a = true)
    (hb : ¬isNumberOrText b = true) : mixedEqual a (.text b.display) = mixedEqual a b := by
  generalize hdisplay : b.display = text
  cases a <;> cases ha
  case number n =>
    have hright : mixedEqual (.number n) b = (n == numberOfText b.display) := by
      cases b
      case number | text => exact absurd rfl hb
      all_goals rfl
    rw [hright, hdisplay]
    rfl
  case text s =>
    have hright : mixedEqual (.text s) b = (s == b.display) := by
      cases b
      case number | text => exact absurd rfl hb
      all_goals rfl
    rw [hright, hdisplay]
    rfl

theorem numeric_eq_self {value : Value} (h : ∀ t, value = .bool t → False) :
    numeric value = value := by
  cases value
  case bool => exact absurd rfl (h _)
  all_goals rfl

/-- Values of different kinds are converted until they can be compared. -/
theorem valuesLooselyEqual_eq (a b : Value) :
    valuesLooselyEqual a b =
      if a.kind = b.kind then a.deepEqual b else mixedEqual (numeric a) (numeric b) := by
  fun_induction valuesLooselyEqual a b with
  | case1 a b hkind => rw [if_pos hkind]
  | case2 t b hkind ih =>
    rw [ih, if_neg hkind]
    cases b
    case bool => exact absurd rfl hkind
    all_goals rfl
  | case3 a t hbool hkind ih =>
    rw [ih, if_neg hkind]
    cases a
    case bool t => exact absurd rfl (hbool t)
    all_goals rfl
  | case4 n s => rfl
  | case5 s n => exact BEq.comm
  | case6 a b hleft hright _ _ hone hkind ih =>
    rw [ih, if_neg hkind, numeric_eq_self hleft, numeric_eq_self hright,
      ← mixedEqual_text_display hone.1 hone.2]
    generalize b.display = text
    cases a <;> cases hone.1 <;> rfl
  | case7 a b hleft hright _ _ _ hone hkind ih =>
    rw [ih, if_neg hkind, numeric_eq_self hleft, numeric_eq_self hright, mixedEqual_comm a,
      ← mixedEqual_text_display hone.2 hone.1]
    generalize a.display = text
    cases b <;> cases hone.2 <;> exact BEq.comm
  | case8 a b hleft hright hnumber htext hnone hnone' hkind =>
    -- What no conversion applies to is neither a number nor a text on either side.
    rw [if_neg hkind]
    cases a
    case bool => exact absurd rfl (hleft _)
    case number n =>
      cases b
      case bool => exact absurd rfl (hright _)
      case number => exact absurd rfl hkind
      case text s => exact (hnumber n s rfl rfl).elim
      all_goals exact absurd ⟨rfl, Bool.false_ne_true⟩ hnone
    case text s =>
      cases b
      case bool => exact absurd rfl (hright _)
      case number n => exact (htext s n rfl rfl).elim
      case text => exact absurd rfl hkind
      all_goals exact absurd ⟨rfl, Bool.false_ne_true⟩ hnone
    all_goals
      cases b
      case bool => exact absurd rfl (hright _)
      case number | text => exact absurd ⟨Bool.false_ne_true, rfl⟩ hnone'
      all_goals rfl

/-! ## Null and nothing -/

theorem looseEqual_iff_of_isNullish {left right : Operand}
    (h : left.IsNullish ∨ right.IsNullish) :
    left.looseEqual right = true ↔ left.IsNullish ∧ right.IsNullish := by
  rcases left with _ | a <;> rcases right with _ | b
  · simp [looseEqual, IsNullish]
  · cases b <;> simp [looseEqual, IsNullish]
  · cases a <;> simp [looseEqual, IsNullish]
  · cases a
    case null => cases b <;> simp [looseEqual, IsNullish]
    all_goals
      cases b
      case null => simp [looseEqual, IsNullish]
      all_goals simp [IsNullish] at h

theorem looseEqual_some {a b : Value} (ha : a.kind ≠ .null) (hb : b.kind ≠ .null) :
    looseEqual (some a) (some b) = valuesLooselyEqual a b := by
  cases a
  case null => exact absurd rfl ha
  all_goals
    cases b
    case null => exact absurd rfl hb
    all_goals rfl

theorem isNullish_of_kind_null {value : Value} (h : value.kind = .null) :
    IsNullish (some value) := by
  cases value
  case null => exact .inr rfl
  all_goals cases h

/-! ## Operands of one kind -/

theorem looseEqual_of_kind?_eq {left right : Operand} (h : left.kind? = right.kind?) :
    left.looseEqual right = left.strictEqual right := by
  rcases left with _ | a <;> rcases right with _ | b
  · rfl
  · cases h
  · cases h
  · have hkind : a.kind = b.kind := Option.some.inj h
    by_cases hnull : a.kind = .null
    · have hb : IsNullish (some b) := isNullish_of_kind_null (hkind ▸ hnull)
      rw [(looseEqual_iff_of_isNullish (.inr hb)).2 ⟨isNullish_of_kind_null hnull, hb⟩]
      cases a
      case null =>
        cases b
        case null => rfl
        all_goals cases hkind
      all_goals cases hnull
    · rw [looseEqual_some hnull (hkind ▸ hnull), valuesLooselyEqual_eq, if_pos hkind]
      rfl

theorem kind?_eq_of_strictEqual {left right : Operand} (h : left.strictEqual right = true) :
    left.kind? = right.kind? := by
  rcases left with _ | a <;> rcases right with _ | b
  · rfl
  · cases h
  · cases h
  · exact congrArg some (Value.kind_eq_of_deepEqual h)

/-! ## Conversions -/

/-- A truth value is compared as the number that it stands for. -/
theorem looseEqual_bool (b : Bool) {right : Operand} (h : right.kind? ≠ some .boolean) :
    looseEqual (some (.bool b)) right =
      looseEqual (some (.number (if b then 1 else 0))) right := by
  rcases right with _ | value
  · rfl
  cases value
  case null => rfl
  case bool => exact absurd rfl h
  all_goals
    show valuesLooselyEqual _ _ = valuesLooselyEqual _ _
    rw [valuesLooselyEqual.eq_def]
    rfl

/-- A container, date or pattern is compared with numbers and texts as the text that
shows it. -/
theorem looseEqual_display {value other : Value}
    (hvalue : value.kind ∈ [Kind.array, .object, .date, .regex])
    (hother : other.kind ∈ [Kind.number, .string]) :
    looseEqual (some value) (some other) =
      looseEqual (some (.text value.display)) (some other) := by
  cases value <;> simp [Value.kind] at hvalue
  all_goals
    cases other <;> simp [Value.kind] at hother
    all_goals
      show valuesLooselyEqual _ _ = valuesLooselyEqual _ _
      rw [valuesLooselyEqual.eq_def]
      rfl

/-! ## Symmetry -/

theorem valuesLooselyEqual_comm {a b : Value} (ha : a.WellFormed) (hb : b.WellFormed) :
    valuesLooselyEqual a b = valuesLooselyEqual b a := by
  rw [valuesLooselyEqual_eq, valuesLooselyEqual_eq]
  by_cases hkind : a.kind = b.kind
  · rw [if_pos hkind, if_pos hkind.symm, Bool.eq_iff_iff]
    exact ⟨Value.deepEqual_symm ha hb, Value.deepEqual_symm hb ha⟩
  · rw [if_neg hkind, if_neg (Ne.symm hkind), mixedEqual_comm]

theorem looseEqual_comm {left right : Operand} (hleft : left.WellFormed)
    (hright : right.WellFormed) : left.looseEqual right = right.looseEqual left := by
  by_cases hnullish : left.IsNullish ∨ right.IsNullish
  · rw [Bool.eq_iff_iff, looseEqual_iff_of_isNullish hnullish,
      looseEqual_iff_of_isNullish hnullish.symm, and_comm]
  · rcases left with _ | a
    · exact absurd (.inl (.inl rfl)) hnullish
    rcases right with _ | b
    · exact absurd (.inr (.inl rfl)) hnullish
    have ha : a.kind ≠ .null := fun hnull => hnullish (.inl (isNullish_of_kind_null hnull))
    have hb : b.kind ≠ .null := fun hnull => hnullish (.inr (isNullish_of_kind_null hnull))
    rw [looseEqual_some ha hb, looseEqual_some hb ha,
      valuesLooselyEqual_comm (hleft a rfl) (hright b rfl)]

theorem strictEqual_comm {left right : Operand} (hleft : left.WellFormed)
    (hright : right.WellFormed) : left.strictEqual right = right.strictEqual left := by
  rcases left with _ | a <;> rcases right with _ | b
  · rfl
  · rfl
  · rfl
  · rw [Bool.eq_iff_iff]
    exact ⟨Value.deepEqual_symm (hleft a rfl) (hright b rfl),
      Value.deepEqual_symm (hright b rfl) (hleft a rfl)⟩

/-- Both equalities are symmetric, strict equality is the narrower one, and the two are the
same on operands of one kind.  Null and nothing are loosely equal to each other and to
nothing else; a truth value is loosely equal to what its number is loosely equal to, and a
container, date or pattern to the numbers and texts that its text is loosely equal to. -/
theorem equalities_coherent :
    (∀ left right : Operand, left.WellFormed → right.WellFormed →
      left.looseEqual right = right.looseEqual left ∧
        left.strictEqual right = right.strictEqual left) ∧
      (∀ left right : Operand, left.strictEqual right → left.looseEqual right) ∧
      (∀ left right : Operand, left.kind? = right.kind? →
        left.looseEqual right = left.strictEqual right) ∧
      (∀ left right : Operand, left = none ∨ left = some .null →
        (left.looseEqual right ↔ right = none ∨ right = some .null)) ∧
      (∀ (b : Bool) (right : Operand), right.kind? ≠ some .boolean →
        looseEqual (some (.bool b)) right =
          looseEqual (some (.number (if b then 1 else 0))) right) ∧
      ∀ value other : Value, value.kind ∈ [Kind.array, .object, .date, .regex] →
        other.kind ∈ [Kind.number, .string] →
          looseEqual (some value) (some other) =
            looseEqual (some (.text value.display)) (some other) := by
  refine ⟨fun left right hleft hright => ?_, fun left right h => ?_, fun left right => ?_,
    fun left right h => ?_, fun b right => looseEqual_bool b, fun value other => ?_⟩
  · exact ⟨looseEqual_comm hleft hright, strictEqual_comm hleft hright⟩
  · rw [looseEqual_of_kind?_eq (kind?_eq_of_strictEqual h)]
    exact h
  · exact looseEqual_of_kind?_eq
  · rw [looseEqual_iff_of_isNullish (.inl h)]
    exact and_iff_right h
  · exact looseEqual_display

/-- Two readings. -/
def pairOfReadings : Value :=
  .sequence [.number 1, .number 2]

theorem equalities_coherent_pairOfReadings :
    (WellFormed (some pairOfReadings) ∧ WellFormed (some (.text "1,2")) ∧
      pairOfReadings.display = "1,2" ∧
      strictEqual (some pairOfReadings) (some pairOfReadings) = true ∧
      kind? (some (.text "1")) ≠ some .boolean) ∧
      looseEqual (some (.text "1,2")) (some pairOfReadings) = true ∧
      looseEqual (some pairOfReadings) (some pairOfReadings) = true ∧
      looseEqual (some (.bool true)) (some (.text "1")) = true ∧
      looseEqual none (some (.bool false)) ≠ true := by
  obtain ⟨hcomm, hstrict, hkind, hnull, hbool, hdisplay⟩ := equalities_coherent
  have hpair : WellFormed (some pairOfReadings) := by
    rintro _ ⟨⟩
    simp [pairOfReadings, Value.WellFormed, Value.itemsWellFormed]
  have htext : WellFormed (some (.text "1,2")) := by
    rintro _ ⟨⟩
    trivial
  have hshown : pairOfReadings.display = "1,2" := by decide +kernel
  have hself : strictEqual (some pairOfReadings) (some pairOfReadings) = true := by decide +kernel
  have hone : kind? (some (.text "1")) ≠ some .boolean := by decide
  refine ⟨⟨hpair, htext, hshown, hself, hone⟩, ?_, hstrict _ _ hself, ?_, ?_⟩
  · rw [(hcomm _ _ htext hpair).1, hdisplay _ _ (by decide) (by decide), hshown, hkind _ _ rfl]
    decide
  · rw [hbool true _ hone]
    show valuesLooselyEqual _ _ = true
    rw [valuesLooselyEqual_eq]
    decide +kernel
  · rw [Ne, hnull none _ (.inl rfl)]
    simp

end DataExpr.Operand
