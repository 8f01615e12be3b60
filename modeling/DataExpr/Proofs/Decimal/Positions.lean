import DataExpr.Decimal.Digits
import Mathlib.Data.Option.Basic

/-!
# Texts that name positions

A position in its usual spelling is read by both readers (`readPosition?_repr`,
`readIndex?_eq`), and the strict one reads nothing else (`readIndex?_eq_some_iff`).
-/

namespace DataExpr.Decimal

/-- Without a sign, a position is all digits. -/
theorem readPosition?_of_ne_plus {text : String} {c : Char} {cs : List Char}
    (h : text.toList = c :: cs) (hplus : c ≠ '+') :
    readPosition? text =
      if (c :: cs).all Char.isDigit ∧ natOfDigits (c :: cs) < positionLimit then
        some (natOfDigits (c :: cs))
      else none := by
  unfold readPosition?
  rw [h]
  split
  · rename_i digits heq
    cases heq
    exact absurd rfl hplus
  · simp

theorem readPosition?_repr (i : Nat) :
    readPosition? (Nat.repr i) =
      if i < positionLimit then some i else none := by
  have hdigits : ∀ c ∈ Nat.toDigits 10 i, c.isDigit = true := fun c hc =>
    Nat.isDigit_of_mem_toDigits (by decide) (by decide) hc
  have hvalue : natOfDigits (Nat.toDigits 10 i) = i := Nat.ofDigitChars_ten_toDigits
  have hchars : (Nat.repr i).toList = Nat.toDigits 10 i := Nat.toList_repr
  cases hcons : Nat.toDigits 10 i with
  | nil => exact absurd hcons Nat.toDigits_ne_nil
  | cons c cs =>
    rw [hcons] at hdigits hvalue hchars
    have hplus : c ≠ '+' := by
      rintro rfl
      cases hdigits '+' List.mem_cons_self
    rw [readPosition?_of_ne_plus hchars hplus, hvalue, List.all_eq_true.2 hdigits]
    simp

/-- Both readers take a number in its usual spelling for the same position, and neither
takes any other text that is no position. -/
theorem readIndex?_eq {key : String}
    (h : (∃ i, key = Nat.repr i) ∨ readPosition? key = none) :
    readIndex? key = readPosition? key := by
  unfold readIndex?
  rcases h with ⟨i, rfl⟩ | hnone
  · rw [readPosition?_repr]
    split
    · rw [Option.filter_some, if_pos (decide_eq_true rfl)]
    · rfl
  · rw [hnone]
    rfl

/-- An index is read from its usual spelling only. -/
theorem readIndex?_eq_some_iff {text : String} {i : Nat} :
    readIndex? text = some i ↔ text = Nat.repr i ∧ i < positionLimit := by
  constructor
  · intro h
    obtain ⟨hread, hspelling⟩ := Option.filter_eq_some_iff.1 h
    obtain rfl : Nat.repr i = text := of_decide_eq_true hspelling
    rw [readPosition?_repr] at hread
    split at hread
    · rename_i hlimit
      exact ⟨rfl, hlimit⟩
    · cases hread
  · rintro ⟨rfl, hlimit⟩
    rw [readIndex?_eq (.inl ⟨i, rfl⟩), readPosition?_repr, if_pos hlimit]

end DataExpr.Decimal
