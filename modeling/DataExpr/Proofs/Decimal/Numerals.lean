import DataExpr.Decimal.Layout
import DataExpr.Decimal.Numeral
import Mathlib.Data.List.Basic

/-!
# Layouts write numerals

Whatever the layout, a number is written in the characters that numerals are made of
(`isNumeralChar_write`).
-/

namespace DataExpr.Decimal

theorem isNumeralChar_of_mem_toDigits {n : Nat} {c : Char} (h : c ∈ Nat.toDigits 10 n) :
    isNumeralChar c = true := by
  simp [isNumeralChar, Nat.isDigit_of_mem_toDigits (by decide) (by decide) h]

theorem isNumeralChar_of_mem_shortestDigits {tie : Tie} {b : Binary} {c : Char}
    (h : c ∈ (shortestDigits tie b).digits) : isNumeralChar c = true := by
  unfold shortestDigits at h
  have hmem := (List.dropWhile_sublist _).subset (List.mem_reverse.1 h)
  exact isNumeralChar_of_mem_toDigits (List.mem_reverse.1 hmem)

theorem isNumeralChar_positional {layout : Layout} {d : Significant}
    (hd : ∀ c ∈ d.digits, isNumeralChar c = true) :
    ∀ c ∈ layout.positional d, isNumeralChar c = true := by
  have hzero : isNumeralChar '0' = true := rfl
  have hpoint : isNumeralChar '.' = true := rfl
  have hzeros (count : Nat) : ∀ c ∈ List.replicate count '0', isNumeralChar c = true := by
    intro c hc
    rw [List.eq_of_mem_replicate hc, hzero]
  have hend : ∀ c ∈ (if layout.pointAlways then ['.', '0'] else []), isNumeralChar c = true := by
    split <;> simp [hzero, hpoint]
  unfold Layout.positional
  dsimp only
  split
  · simp only [List.forall_mem_cons, List.forall_mem_append]
    exact ⟨hzero, hpoint, hzeros _, hd⟩
  · split <;> simp only [List.forall_mem_cons, List.forall_mem_append]
    · exact ⟨fun c hc => hd c (List.mem_of_mem_take hc), hpoint,
        fun c hc => hd c (List.mem_of_mem_drop hc)⟩
    · exact ⟨⟨hd, hzeros _⟩, hend⟩

theorem isNumeralChar_scientific {d : Significant}
    (hd : ∀ c ∈ d.digits, isNumeralChar c = true) :
    ∀ c ∈ Layout.scientific d, isNumeralChar c = true := by
  have hsign : isNumeralChar (if d.point - 1 < 0 then '-' else '+') = true := by
    split <;> rfl
  unfold Layout.scientific
  dsimp only
  simp only [List.forall_mem_cons, List.forall_mem_append]
  refine ⟨⟨fun c hc => hd c (List.mem_of_mem_take hc), ?_⟩, rfl, hsign,
    fun c => isNumeralChar_of_mem_toDigits⟩
  split
  · exact fun c hc => by cases hc
  · rw [List.forall_mem_cons]
    exact ⟨rfl, fun c hc => hd c (List.mem_of_mem_tail hc)⟩

/-- What a layout writes is a numeral. -/
theorem isNumeralChar_write (layout : Layout) (b : Binary) :
    ∀ c ∈ (layout.write b).toList, isNumeralChar c = true := by
  have hdigits : ∀ c ∈ layout.writeDigits (shortestDigits layout.tie b),
      isNumeralChar c = true := by
    have hd : ∀ c ∈ (shortestDigits layout.tie b).digits, isNumeralChar c = true := fun c =>
      isNumeralChar_of_mem_shortestDigits
    rw [Layout.writeDigits]
    split
    · exact isNumeralChar_positional hd
    · exact isNumeralChar_scientific hd
  rw [Layout.write, String.toList_ofList]
  split
  · rw [List.forall_mem_cons]
    exact ⟨rfl, hdigits⟩
  · exact hdigits

end DataExpr.Decimal
