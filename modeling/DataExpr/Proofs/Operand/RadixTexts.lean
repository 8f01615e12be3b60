import DataExpr.Operand
import DataExpr.Proofs.Decimal.Conversion
import DataExpr.Proofs.Decimal.Rounding
import DataExpr.Proofs.Syntax.Literals
import DataExpr.Proofs.Text.Runs

/-!
# Texts of another base

A zero and a letter announce digits of another base.  With white space around it, such a text means
the number that the digits denote, if that is below `2 ^ 64`, however many digits there are
(`numberOfText_radix`).  Larger numbers are not read, though a double near them exists: the text
then means no number, as if its digits were none (`not_numberOfText_isNaN_radix`).
-/

namespace DataExpr

open Decimal

/-! ## Digits -/

/-- Digits of a base up to sixteen, the highest first, and the number that they denote. -/
def Denotes (base : Nat) (digits : List Char) (n : Nat) : Prop :=
  digits ≠ [] ∧ ∃ values,
    List.Forall₂ (fun c value => HexDigit c value ∧ value < base) digits values ∧
      Nat.ofDigits base values.reverse = n

theorem readRadixFrom?_eq_some_iff {base high n : Nat} {cs : List Char} :
    readRadixFrom? base high cs = some n ↔
      ∃ values, List.Forall₂ (fun c value => HexDigit c value ∧ value < base) cs values ∧
        high * base ^ cs.length + Nat.ofDigits base values.reverse = n := by
  induction cs generalizing high with
  | nil => simp [readRadixFrom?_nil_eq_some_iff]
  | cons c cs ih =>
    have hstep {values : List Nat}
        (h : List.Forall₂ (fun c value => HexDigit c value ∧ value < base) cs values)
        (value : Nat) :
        (high * base + value) * base ^ cs.length + Nat.ofDigits base values.reverse =
          high * base ^ (c :: cs).length + Nat.ofDigits base (value :: values).reverse := by
      rw [List.reverse_cons, Nat.ofDigits_append, Nat.ofDigits_singleton, List.length_reverse,
        ← h.length_eq, List.length_cons]
      ring
    rw [readRadixFrom?_cons_eq_some_iff]
    simp only [ih]
    constructor
    · rintro ⟨value, hvalue, values, hvalues, rfl⟩
      exact ⟨value :: values, .cons hvalue hvalues, (hstep hvalues value).symm⟩
    · rintro ⟨_, hdigits, rfl⟩
      cases hdigits with
      | cons hvalue hvalues => exact ⟨_, hvalue, _, hvalues, hstep hvalues _⟩

/-- The number that is read is the one that the digits denote. -/
theorem readRadix?_eq_some_iff {base n : Nat} {digits : List Char} :
    readRadix? base digits = some n ↔ Denotes base digits n := by
  unfold readRadix? Denotes
  cases digits with
  | nil => simp
  | cons c cs =>
    have hzero (value : Nat) : 0 * base ^ (c :: cs).length + value = value := by
      rw [Nat.zero_mul, Nat.zero_add]
    rw [if_neg (by simp), readRadixFrom?_eq_some_iff]
    simp only [hzero, ne_eq, reduceCtorEq, not_false_eq_true, true_and]

theorem HexDigit.not_isBlank {c : Char} {value : Nat} (h : HexDigit c value) :
    Text.isBlank c = false := by
  rcases h with h | h | h <;>
    have hlow := toNat_le_of_le h.1 <;>
    have hhigh := toNat_le_of_le h.2 <;>
    simp only [Char.reduceToNat] at hlow hhigh <;>
    exact not_isBlank_of_visible (by omega) (by omega)

theorem Denotes.not_isBlank {base n : Nat} {digits : List Char} (h : Denotes base digits n) :
    ∀ c ∈ digits, Text.isBlank c = false := by
  obtain ⟨-, values, hvalues, -⟩ := h
  induction hvalues with
  | nil => nofun
  | cons hvalue _ ih => exact List.forall_mem_cons.2 ⟨hvalue.1.not_isBlank, ih⟩

/-- Digits mean their number if it has 64 bits. -/
theorem numberOfDigits_of_denotes {base n : Nat} {digits : List Char} (h : Denotes base digits n) :
    numberOfDigits base digits = if n < 2 ^ 64 then (UInt64.ofNat n).toFloat else 0 / 0 := by
  unfold numberOfDigits
  rw [readRadix?_eq_some_iff.2 h]
  dsimp only [Nat.pow_eq]
  split
  · rename_i hword
    exact ofNat_eq_toFloat hword
  · rfl

theorem numberOfDigits_of_not_denotes {base : Nat} {digits : List Char}
    (h : ∀ n, ¬Denotes base digits n) : numberOfDigits base digits = 0 / 0 := by
  have hnone : readRadix? base digits = none :=
    Option.eq_none_iff_forall_ne_some.2 fun n hread => h n (readRadix?_eq_some_iff.1 hread)
  unfold numberOfDigits
  rw [hnone]

/-! ## Texts -/

/-- A base that can be announced. -/
inductive Radix where
  | hexadecimal
  | octal
  | binary
  deriving DecidableEq, Repr

/-- How many digits the base has. -/
def Radix.base : Radix → Nat
  | .hexadecimal => 16
  | .octal => 8
  | .binary => 2

/-- The letters that announce the base behind a zero. -/
def Radix.letters : Radix → List Char
  | .hexadecimal => ['x', 'X']
  | .octal => ['o', 'O']
  | .binary => ['b', 'B']

theorem Radix.not_isBlank {radix : Radix} {letter : Char} (h : letter ∈ radix.letters) :
    Text.isBlank letter = false := by
  cases radix <;>
    simp only [Radix.letters, List.mem_cons, List.not_mem_nil, or_false] at h <;>
    rcases h with rfl | rfl <;>
    exact not_isBlank_of_visible (by decide) (by decide)

/-- Behind the announcement stand digits of the base. -/
theorem numberOfText_of_trim {text : String} {radix : Radix} {letter : Char}
    (hletter : letter ∈ radix.letters) {behind : List Char}
    (htrim : Text.trim text.toList = '0' :: letter :: behind) :
    numberOfText text = numberOfDigits radix.base behind := by
  unfold numberOfText
  rw [htrim]
  cases radix <;>
    simp only [Radix.letters, List.mem_cons, List.not_mem_nil, or_false] at hletter <;>
    rcases hletter with rfl | rfl <;>
    rfl

/-- A text that announces a base, with white space around it. -/
def announced (before : List Char) (letter : Char) (behind after : List Char) : String :=
  String.ofList (before ++ '0' :: letter :: behind ++ after)

theorem numberOfText_announced {radix : Radix} {letter : Char} (hletter : letter ∈ radix.letters)
    {before after : List Char} (hbefore : ∀ c ∈ before, Text.isBlank c = true)
    (hafter : ∀ c ∈ after, Text.isBlank c = true) {behind : List Char}
    (hend : ∀ c ∈ behind.getLast?, Text.isBlank c = false) :
    numberOfText (announced before letter behind after) = numberOfDigits radix.base behind := by
  apply numberOfText_of_trim hletter
  rw [announced, String.toList_ofList]
  apply trim_surrounded hbefore hafter (List.cons_ne_nil _ _)
  · rintro c ⟨⟩
    decide
  · cases behind with
    | nil =>
      rintro c ⟨⟩
      exact radix.not_isBlank hletter
    | cons c behind => rwa [List.getLast?_cons_cons, List.getLast?_cons_cons]

theorem isNaN_noNumber : (0 / 0 : Float).isNaN = true := by
  decide +kernel

/-- A zero and a letter announce digits of a base, and white space around the text does not matter.
Digits that denote a number of 64 bits mean the double that the word is converted to, which is
never `NaN`.  Digits that denote a larger number, and any other text in the place of the digits,
mean `NaN`. -/
theorem numberOfText_radix {radix : Radix} {letter : Char} (hletter : letter ∈ radix.letters)
    {before after : List Char} (hbefore : ∀ c ∈ before, Text.isBlank c = true)
    (hafter : ∀ c ∈ after, Text.isBlank c = true) :
    (∀ digits n, Denotes radix.base digits n →
      (n < 2 ^ 64 →
        numberOfText (announced before letter digits after) = (UInt64.ofNat n).toFloat) ∧
      ((numberOfText (announced before letter digits after)).isNaN = true ↔ 2 ^ 64 ≤ n)) ∧
    ∀ behind, (∀ c ∈ behind.getLast?, Text.isBlank c = false) →
      (∀ n, ¬Denotes radix.base behind n) →
        (numberOfText (announced before letter behind after)).isNaN = true := by
  refine ⟨fun digits n hdigits => ?_, fun behind hend hnone => ?_⟩
  · have hend : ∀ c ∈ digits.getLast?, Text.isBlank c = false := fun c hc =>
      hdigits.not_isBlank c (List.mem_of_getLast? hc)
    rw [numberOfText_announced hletter hbefore hafter hend, numberOfDigits_of_denotes hdigits]
    by_cases hword : n < 2 ^ 64
    · rw [if_pos hword]
      refine ⟨fun _ => rfl, iff_of_false ?_ (Nat.not_le.2 hword)⟩
      rw [← ofNat_eq_toFloat hword, not_isNaN_ofNat]
      decide
    · rw [if_neg hword]
      exact ⟨fun h => absurd h hword, iff_of_true isNaN_noNumber (Nat.le_of_not_lt hword)⟩
  · rw [numberOfText_announced hletter hbefore hafter hend, numberOfDigits_of_not_denotes hnone]
    exact isNaN_noNumber

theorem denotes_1F : Denotes Radix.hexadecimal.base ['1', 'F'] 31 :=
  readRadix?_eq_some_iff.1 (by decide)

theorem not_denotes_plus (n : Nat) : ¬Denotes Radix.hexadecimal.base ['+', '5'] n := by
  intro h
  have hread : none = some n := readRadix?_eq_some_iff.2 h
  cases hread

/-- A one and sixteen zeros are the least digits of base sixteen that need more than 64 bits. -/
theorem denotes_two_pow_64 :
    Denotes Radix.hexadecimal.base ('1' :: List.replicate 16 '0') (2 ^ 64) :=
  readRadix?_eq_some_iff.1 (by decide)

/-- Two digits in either case between blanks, digits that are one too many, and a sign. -/
theorem numberOfText_radix_blanksAround :
    ('x' ∈ Radix.hexadecimal.letters ∧ (∀ c ∈ [' '], Text.isBlank c = true) ∧
      (∀ c ∈ ['\n'], Text.isBlank c = true) ∧ Denotes Radix.hexadecimal.base ['1', 'F'] 31 ∧
      Denotes Radix.hexadecimal.base ('1' :: List.replicate 16 '0') (2 ^ 64) ∧
      ∀ n, ¬Denotes Radix.hexadecimal.base ['+', '5'] n) ∧
    numberOfText (announced [' '] 'x' ['1', 'F'] ['\n']) = (UInt64.ofNat 31).toFloat ∧
    (numberOfText (announced [' '] 'x' ('1' :: List.replicate 16 '0') ['\n'])).isNaN = true ∧
    (numberOfText (announced [' '] 'x' ['+', '5'] ['\n'])).isNaN = true := by
  have hletter : 'x' ∈ Radix.hexadecimal.letters := by decide
  have hbefore : ∀ c ∈ [' '], Text.isBlank c = true := List.forall_mem_singleton.2 (by decide)
  have hafter : ∀ c ∈ ['\n'], Text.isBlank c = true := List.forall_mem_singleton.2 (by decide)
  have hend : ∀ c ∈ ['+', '5'].getLast?, Text.isBlank c = false := by
    rintro c ⟨⟩
    decide
  obtain ⟨hdigits, hother⟩ := numberOfText_radix hletter hbefore hafter
  refine ⟨⟨hletter, hbefore, hafter, denotes_1F, denotes_two_pow_64, not_denotes_plus⟩,
    (hdigits _ _ denotes_1F).1 (by decide), ?_, hother _ hend not_denotes_plus⟩
  exact (hdigits _ _ denotes_two_pow_64).2.2 (Nat.le_refl _)

/-- Not all digits of a base mean a number. -/
theorem not_numberOfText_isNaN_radix :
    ¬∀ (radix : Radix) (letter : Char), letter ∈ radix.letters → ∀ digits n,
      Denotes radix.base digits n →
        (numberOfText (announced [] letter digits [])).isNaN = false := by
  intro h
  have hnumber := h .hexadecimal 'x' (by decide) _ _ denotes_two_pow_64
  have hend : ∀ c ∈ ('1' :: List.replicate 16 '0').getLast?, Text.isBlank c = false := by
    rintro c ⟨⟩
    decide
  have hletter : 'x' ∈ Radix.hexadecimal.letters := by decide
  rw [numberOfText_announced hletter (List.forall_mem_nil _) (List.forall_mem_nil _) hend,
    numberOfDigits_of_denotes denotes_two_pow_64, if_neg (Nat.lt_irrefl _), isNaN_noNumber]
    at hnumber
  cases hnumber

end DataExpr
