import DataExpr.Evaluator.Basic
import DataExpr.Proofs.Text.Units
import Mathlib

/-!
# The ordering operators

One comparison of two operands decides all four ordering operators.  Changing the sides
turns it round (`compare?_swap`), and it is undecided only if it compares numbers of which
one is no number (`compare?_eq_none_iff`).  Operands that are shown as texts are ordered by
the units of their texts, which tell texts apart (`compare?_some`).

`comparisons_coherent` says what this means for the operators.
-/

namespace DataExpr

/-! ## Numbers -/

section

open Float.Model

/-- Comparing doubles the other way round turns the result round. -/
theorem unpacked_compare_swap (x y : UnpackedFloat) :
    y.compare x = (x.compare y).map Ordering.swap := by
  have hmagnitudes (m m' : Nat) (e e' : Int) :
      (compare e e').then (compare m m') = ((compare e' e).then (compare m' m)).swap := by
    rw [Ordering.swap_then, ← Std.OrientedOrd.eq_swap, ← Std.OrientedOrd.eq_swap]
  fun_cases UnpackedFloat.compare x y with
  | case1 => cases y <;> rfl
  | case2 => cases x <;> first | contradiction | rfl
  | case3 s s' => cases s <;> cases s' <;> rfl
  -- One side is infinite and the other is neither infinite nor `NaN`.
  | case4 => cases y <;> first | rfl | simp_all
  | case5 => cases y <;> first | rfl | simp_all
  | case6 => cases x <;> first | rfl | simp_all
  | case7 => cases x <;> first | rfl | simp_all
  | case13 m e hm m' e' hm' =>
    rw [UnpackedFloat.compare, hmagnitudes]
    rfl
  | case16 m e hm m' e' hm' =>
    rw [UnpackedFloat.compare, hmagnitudes]
    rfl
  | _ => rfl

theorem unpacked_compare_eq_none_iff {x y : UnpackedFloat} :
    x.compare y = none ↔ x = .notANumber ∨ y = .notANumber := by
  fun_cases UnpackedFloat.compare x y <;> simp_all

end

theorem lt_iff_unpacked_compare {a b : Float} :
    a < b ↔ a.toModel.unpack.compare b.toModel.unpack = some .lt := by
  show decide (a.toModel.unpack.lt b.toModel.unpack = true) = true ↔ _
  rw [decide_eq_true_iff, Float.Model.UnpackedFloat.lt, beq_iff_eq]

theorem compareNumbers_eq (a b : Float) :
    compareNumbers a b = a.toModel.unpack.compare b.toModel.unpack := by
  have hbeq : (a == b) = (a.toModel.unpack.compare b.toModel.unpack == some .eq) := rfl
  rw [compareNumbers, hbeq]
  simp only [lt_iff_unpacked_compare, unpacked_compare_swap a.toModel.unpack b.toModel.unpack]
  cases a.toModel.unpack.compare b.toModel.unpack with
  | none => rfl
  | some order => cases order <;> rfl

theorem compareNumbers_swap (a b : Float) :
    compareNumbers b a = (compareNumbers a b).map Ordering.swap := by
  rw [compareNumbers_eq, compareNumbers_eq]
  exact unpacked_compare_swap _ _

theorem compareNumbers_eq_none_iff {a b : Float} :
    compareNumbers a b = none ↔ a.isNaN = true ∨ b.isNaN = true := by
  have hnan (x : Float) : x.isNaN = true ↔ x.toModel.unpack = .notANumber :=
    Float.Model.UnpackedFloat.isNaN_iff
  rw [compareNumbers_eq, unpacked_compare_eq_none_iff, hnan, hnan]

/-! ## Operands -/

namespace Operand

/-- The kinds of values that are ordered by their texts. -/
def textualKinds : List Kind :=
  [.string, .array, .object, .regex]

/-- The operand is a value that is ordered by its text. -/
def IsTextual (operand : Operand) : Prop :=
  ∃ value ∈ operand, value.kind ∈ textualKinds

theorem comparesAsText_iff {operand : Operand} :
    operand.comparesAsText = true ↔ operand.IsTextual := by
  rcases operand with _ | value
  · simp [comparesAsText, IsTextual]
  · cases value <;> simp [comparesAsText, IsTextual, Value.kind, textualKinds]

theorem compare?_of_isTextual {left right : Operand} (hleft : left.IsTextual)
    (hright : right.IsTextual) :
    left.compare? right =
      some (Text.compareUnits (Text.units left.toText) (Text.units right.toText)) := by
  rw [compare?, comparesAsText_iff.2 hleft, comparesAsText_iff.2 hright]
  rfl

theorem compare?_of_not_isTextual {left right : Operand}
    (h : ¬(left.IsTextual ∧ right.IsTextual)) :
    left.compare? right = compareNumbers left.toNumber right.toNumber := by
  rw [← comparesAsText_iff, ← comparesAsText_iff, ← Bool.and_eq_true] at h
  rw [compare?, if_neg h]

/-- Changing the sides turns a comparison round. -/
theorem compare?_swap (left right : Operand) :
    right.compare? left = (left.compare? right).map Ordering.swap := by
  by_cases h : left.IsTextual ∧ right.IsTextual
  · rw [compare?_of_isTextual h.1 h.2, compare?_of_isTextual h.2 h.1, Option.map_some,
      ← Std.OrientedCmp.eq_swap]
  · rw [compare?_of_not_isTextual h, compare?_of_not_isTextual fun h' => h h'.symm,
      compareNumbers_swap]

/-- A comparison is undecided if it is one of numbers and one of them is none. -/
theorem compare?_eq_none_iff {left right : Operand} :
    left.compare? right = none ↔
      ¬(left.IsTextual ∧ right.IsTextual) ∧
        (left.toNumber.isNaN = true ∨ right.toNumber.isNaN = true) := by
  by_cases h : left.IsTextual ∧ right.IsTextual
  · rw [compare?_of_isTextual h.1 h.2]
    simp [h]
  · rw [compare?_of_not_isTextual h, compareNumbers_eq_none_iff]
    simp [h]

end Operand

/-! ## Operators -/

namespace BinaryOp

/-- The operator between the two operands gives true. -/
def Holds (op : BinaryOp) (left right : Operand) : Prop :=
  op.apply left right = .bool true

variable {left right : Operand}

theorem less_holds_iff : less.Holds left right ↔ left.compare? right = some .lt := by
  simp [Holds, apply]

theorem greater_holds_iff : greater.Holds left right ↔ left.compare? right = some .gt := by
  simp [Holds, apply]

theorem lessEq_holds_iff :
    lessEq.Holds left right ↔
      left.compare? right = some .lt ∨ left.compare? right = some .eq := by
  simp [Holds, apply]

theorem greaterEq_holds_iff :
    greaterEq.Holds left right ↔
      left.compare? right = some .gt ∨ left.compare? right = some .eq := by
  simp [Holds, apply]

/-- The operators that ask for an order. -/
def orderings : List BinaryOp :=
  [less, lessEq, greater, greaterEq]

theorem apply_of_undecided (h : left.compare? right = none) {op : BinaryOp}
    (hop : op ∈ orderings) : op.apply left right = .bool false := by
  simp only [orderings, List.mem_cons, List.not_mem_nil, or_false] at hop
  rcases hop with rfl | rfl | rfl | rfl <;> simp [apply, h]

end BinaryOp

/-- One of three statements is true and the others are not. -/
def ExactlyOne (p q r : Prop) : Prop :=
  p ∧ ¬q ∧ ¬r ∨ ¬p ∧ q ∧ ¬r ∨ ¬p ∧ ¬q ∧ r

open BinaryOp in
theorem exactlyOne_of_decided {left right : Operand} {order : Ordering}
    (h : left.compare? right = some order) :
    ExactlyOne (less.Holds left right) (greater.Holds left right)
        (lessEq.Holds left right ∧ greaterEq.Holds left right) ∧
      (lessEq.Holds left right ↔
        less.Holds left right ∨ lessEq.Holds left right ∧ greaterEq.Holds left right) := by
  rw [less_holds_iff, greater_holds_iff, lessEq_holds_iff, greaterEq_holds_iff, h]
  cases order <;> simp [ExactlyOne]

/-! ## Texts -/

section

variable {a b c : Value}

theorem isTextual_some (h : a.kind ∈ Operand.textualKinds) : Operand.IsTextual (some a) :=
  ⟨a, rfl, h⟩

/-- Values that are shown as texts are ordered by the units of their texts. -/
theorem lessEq_holds_iff_isLE (ha : a.kind ∈ Operand.textualKinds)
    (hb : b.kind ∈ Operand.textualKinds) :
    BinaryOp.lessEq.Holds (some a) (some b) ↔
      (Text.compareUnits (Text.units a.display) (Text.units b.display)).isLE = true := by
  rw [BinaryOp.lessEq_holds_iff,
    Operand.compare?_of_isTextual (isTextual_some ha) (isTextual_some hb), Option.some_inj,
    Option.some_inj, Ordering.isLE_iff_eq_lt_or_eq_eq]
  rfl

theorem lessEq_total (ha : a.kind ∈ Operand.textualKinds) (hb : b.kind ∈ Operand.textualKinds) :
    BinaryOp.lessEq.Holds (some a) (some b) ∨ BinaryOp.lessEq.Holds (some b) (some a) := by
  have htotal (order : Ordering) : order.isLE = true ∨ order.swap.isLE = true := by
    cases order <;> simp
  have hswap : Text.compareUnits (Text.units b.display) (Text.units a.display) =
      (Text.compareUnits (Text.units a.display) (Text.units b.display)).swap :=
    Std.OrientedCmp.eq_swap
  rw [lessEq_holds_iff_isLE ha hb, lessEq_holds_iff_isLE hb ha, hswap]
  exact htotal _

theorem lessEq_trans (ha : a.kind ∈ Operand.textualKinds) (hb : b.kind ∈ Operand.textualKinds)
    (hc : c.kind ∈ Operand.textualKinds) (h : BinaryOp.lessEq.Holds (some a) (some b))
    (h' : BinaryOp.lessEq.Holds (some b) (some c)) :
    BinaryOp.lessEq.Holds (some a) (some c) := by
  rw [lessEq_holds_iff_isLE ha hb] at h
  rw [lessEq_holds_iff_isLE hb hc] at h'
  rw [lessEq_holds_iff_isLE ha hc]
  exact Std.TransCmp.isLE_trans h h'

theorem lessEq_antisymm_iff (ha : a.kind ∈ Operand.textualKinds)
    (hb : b.kind ∈ Operand.textualKinds) :
    BinaryOp.lessEq.Holds (some a) (some b) ∧ BinaryOp.lessEq.Holds (some b) (some a) ↔
      a.display = b.display := by
  rw [lessEq_holds_iff_isLE ha hb, lessEq_holds_iff_isLE hb ha, ← Text.units_inj]
  constructor
  · rintro ⟨hle, hge⟩
    exact Std.LawfulEqCmp.eq_of_compare (Std.OrientedCmp.isLE_antisymm hle hge)
  · intro h
    rw [h]
    exact ⟨Std.ReflCmp.isLE_rfl, Std.ReflCmp.isLE_rfl⟩

end

/-- The ordering operators agree with one another.  Changing the sides of an operator gives
what its mirror image gives.  Either one operand is less than the other or both are at most
the other, and at most means one of these, or no operator holds because an operand means no
number.  Values that are shown as texts are ordered totally, and those with one text are at
most each other. -/
theorem comparisons_coherent :
    (∀ left right : Operand,
      BinaryOp.less.apply left right = BinaryOp.greater.apply right left ∧
        BinaryOp.lessEq.apply left right = BinaryOp.greaterEq.apply right left) ∧
      (∀ left right : Operand,
        ExactlyOne (BinaryOp.less.Holds left right) (BinaryOp.greater.Holds left right)
            (BinaryOp.lessEq.Holds left right ∧ BinaryOp.greaterEq.Holds left right) ∧
          (BinaryOp.lessEq.Holds left right ↔
            BinaryOp.less.Holds left right ∨
              BinaryOp.lessEq.Holds left right ∧ BinaryOp.greaterEq.Holds left right) ∨
        (∀ op ∈ BinaryOp.orderings, op.apply left right = .bool false) ∧
          ¬(left.IsTextual ∧ right.IsTextual) ∧
            (left.toNumber.isNaN = true ∨ right.toNumber.isNaN = true)) ∧
      (∀ a b : Value, a.kind ∈ Operand.textualKinds → b.kind ∈ Operand.textualKinds →
        (BinaryOp.lessEq.Holds (some a) (some b) ∨ BinaryOp.lessEq.Holds (some b) (some a)) ∧
          (BinaryOp.lessEq.Holds (some a) (some b) ∧ BinaryOp.lessEq.Holds (some b) (some a) ↔
            a.display = b.display)) ∧
      ∀ a b c : Value, a.kind ∈ Operand.textualKinds → b.kind ∈ Operand.textualKinds →
        c.kind ∈ Operand.textualKinds → BinaryOp.lessEq.Holds (some a) (some b) →
          BinaryOp.lessEq.Holds (some b) (some c) → BinaryOp.lessEq.Holds (some a) (some c) := by
  refine ⟨fun left right => ?_, fun left right => ?_, fun a b ha hb => ?_, fun a b c => ?_⟩
  · simp only [BinaryOp.apply, Operand.compare?_swap left right]
    cases left.compare? right with
    | none => exact ⟨rfl, rfl⟩
    | some order => cases order <;> exact ⟨rfl, rfl⟩
  · cases h : left.compare? right with
    | none => exact .inr ⟨fun op => BinaryOp.apply_of_undecided h, Operand.compare?_eq_none_iff.1 h⟩
    | some order => exact .inl (exactlyOne_of_decided h)
  · exact ⟨lessEq_total ha hb, lessEq_antisymm_iff ha hb⟩
  · exact lessEq_trans

/-- By their units a face comes before a ligature whose code is less, and the ligature
before a sequence of it and nothing. -/
theorem comparisons_coherent_ligature :
    BinaryOp.lessEq.Holds (some (.text "😀")) (some (.text "ﬁ")) ∧
      BinaryOp.lessEq.Holds (some (.text "ﬁ")) (some (.sequence [.text "ﬁ", .null])) ∧
      BinaryOp.lessEq.Holds (some (.text "😀")) (some (.sequence [.text "ﬁ", .null])) ∧
      ¬BinaryOp.lessEq.Holds (some (.text "ﬁ")) (some (.text "😀")) := by
  obtain ⟨-, -, horder, htrans⟩ := comparisons_coherent
  have htext (t : String) : (Value.text t).kind ∈ Operand.textualKinds := by
    show Kind.string ∈ Operand.textualKinds
    decide
  have hsequence (items : List Value) :
      (Value.sequence items).kind ∈ Operand.textualKinds := by
    show Kind.array ∈ Operand.textualKinds
    decide
  have hface : BinaryOp.lessEq.Holds (some (.text "😀")) (some (.text "ﬁ")) := by
    rw [lessEq_holds_iff_isLE (htext _) (htext _)]
    decide +kernel
  have hligature :
      BinaryOp.lessEq.Holds (some (.text "ﬁ")) (some (.sequence [.text "ﬁ", .null])) := by
    rw [lessEq_holds_iff_isLE (htext _) (hsequence _)]
    decide +kernel
  refine ⟨hface, hligature, htrans _ _ _ (htext _) (htext _) (hsequence _) hface hligature, ?_⟩
  intro hback
  have hsame : "😀" = "ﬁ" := (horder _ _ (htext _) (htext _)).2.1 ⟨hface, hback⟩
  exact absurd hsame (by decide)

end DataExpr
