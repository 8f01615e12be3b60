import DataExpr.Proofs.Decimal.Integers
import DataExpr.Proofs.Decimal.Numerals
import DataExpr.Proofs.Decimal.Unpacked
import DataExpr.Proofs.Json.Form
import DataExpr.Proofs.Text.Runs
import DataExpr.Proofs.Value.Equality

/-!
# JSON numbers

A number that JSON keeps is read from its text, up to the sign of zero
(`number?_writeNumber`), and whatever closes its numeral (`readNumber?_append`).  An
integer below `2 ^ 53` is written in its decimal digits, which no reader of doubles comes
to see; of other numbers it is assumed that their texts are read back.
-/

namespace DataExpr

namespace Decimal

/-- Only zero starts with the digit zero. -/
theorem head?_toDigits_ne {n : Nat} (h : 0 < n) : (Nat.toDigits 10 n).head? ≠ some '0' := by
  induction n using Nat.strong_induction_on with
  | _ n ih =>
    by_cases hlt : n < 10
    · have hdigit : ∀ d < 10, 0 < d → Nat.digitChar d ≠ '0' := by decide
      rw [Nat.toDigits_of_lt_base hlt, List.head?_cons]
      exact fun heq => hdigit n hlt h (Option.some.inj heq)
    · have hrest := ih (n / 10) (by omega) (by omega)
      rw [Nat.toDigits_of_base_le (by decide) (by omega),
        List.head?_append_of_ne_nil _ Nat.toDigits_ne_nil]
      exact hrest

end Decimal

namespace Json

open Decimal

/-! ## Digits -/

theorem isJsonNumeral_toDigits (n : Nat) : isJsonNumeral (Nat.toDigits 10 n) = true := by
  unfold isJsonNumeral
  dsimp only
  rw [takeWhile_toDigits, dropWhile_toDigits, ofChars?_toDigits, Option.isSome_some,
    Bool.and_true, Bool.and_true]
  by_cases hpos : 0 < n
  · have hhead := head?_toDigits_ne hpos
    split
    · rename_i hnil
      exact absurd hnil Nat.toDigits_ne_nil
    · rfl
    · rename_i c cs hcons
      rw [hcons] at hhead
      simpa using hhead
  · obtain rfl : n = 0 := by omega
    rfl

theorem all_isDigit_toDigits (n : Nat) : (Nat.toDigits 10 n).all Char.isDigit = true :=
  List.all_eq_true.2 fun _ => Nat.isDigit_of_mem_toDigits (by decide) (by decide)

theorem natOfDigits_toDigits (n : Nat) : natOfDigits (Nat.toDigits 10 n) = n :=
  Nat.ofDigitChars_ten_toDigits

/-! ## Numerals before other text -/

/-- What stands behind a numeral and is no part of it. -/
def Closes (rest : List Char) : Prop :=
  ∀ c ∈ rest.head?, isNumeralChar c = false

theorem closes_nil : Closes [] :=
  fun _ hc => by cases hc

theorem closes_cons {c : Char} (h : isNumeralChar c = false) (cs : List Char) :
    Closes (c :: cs) := by
  intro d hd
  rwa [← Option.some.inj hd]

theorem splitNumeral_append {cs rest : List Char} (h : ∀ c ∈ cs, isNumeralChar c = true)
    (hrest : Closes rest) : splitNumeral (cs ++ rest) = (cs, rest) := by
  rw [splitNumeral, takeWhile_run h hrest, dropWhile_run h hrest]

/-! ## Integers -/

/-- The characters of an integer are its digits, behind a minus sign if it is negative. -/
theorem toList_writeInt (i : Int) :
    (writeInt i).toList =
      if i < 0 then '-' :: Nat.toDigits 10 i.natAbs else Nat.toDigits 10 i.natAbs := by
  unfold writeInt
  split
  · rw [String.toList_append, Nat.toList_repr]
    rfl
  · rw [Nat.toList_repr]

theorem isNumeralChar_of_mem_writeInt {i : Int} {c : Char} (h : c ∈ (writeInt i).toList) :
    isNumeralChar c = true := by
  rw [toList_writeInt] at h
  split at h
  · rcases List.mem_cons.1 h with rfl | hdigit
    · rfl
    · exact isNumeralChar_of_mem_toDigits hdigit
  · exact isNumeralChar_of_mem_toDigits h

theorem toDigits_ne_minus {n : Nat} {cs : List Char} : Nat.toDigits 10 n ≠ '-' :: cs := by
  intro h
  have hmem : '-' ∈ Nat.toDigits 10 n := h ▸ List.mem_cons_self
  cases Nat.isDigit_of_mem_toDigits (by decide) (by decide) hmem

theorem integer?_writeInt {i : Int} (h : i.natAbs < exactLimit) :
    integer? (writeInt i).toList = some i := by
  have hlimit : exactLimit ≤ Nat.pow 2 63 := by decide
  rw [toList_writeInt]
  by_cases hneg : i < 0
  · have hfits : 0 < i.natAbs ∧ i.natAbs ≤ Nat.pow 2 63 := by omega
    rw [if_pos hneg, integer?, natOfDigits_toDigits, if_pos ⟨all_isDigit_toDigits _, hfits⟩]
    congr 1
    omega
  · have hfits : i.natAbs < Nat.pow 2 64 := by
      have : Nat.pow 2 63 < Nat.pow 2 64 := by decide
      omega
    rw [if_neg hneg]
    unfold integer?
    split
    · rename_i hcons
      exact absurd hcons toDigits_ne_minus
    · dsimp only
      rw [natOfDigits_toDigits, if_pos ⟨all_isDigit_toDigits _, hfits⟩]
      congr 1
      omega

/-- An integer below `2 ^ 53` denotes its double. -/
theorem number?_writeInt (double? : List Char → Option Float) {i : Int}
    (h : i.natAbs < exactLimit) : number? double? (writeInt i).toList = some (ofInt i) := by
  have hunsigned : unsigned (writeInt i).toList = Nat.toDigits 10 i.natAbs := by
    rw [toList_writeInt]
    split
    · rfl
    · unfold unsigned
      split
      · rename_i hcons
        exact absurd hcons toDigits_ne_minus
      · rfl
  rw [number?, hunsigned, if_pos (isJsonNumeral_toDigits _), integer?_writeInt h]

/-! ## Numbers -/

/-- A finite number is written as a numeral. -/
theorem isNumeralChar_writeNumber {n : Float} (h : n.isFinite = true) :
    ∀ c ∈ (writeNumber n).toList, isNumeralChar c = true := by
  rw [isFinite_eq, Option.isSome_iff_exists] at h
  obtain ⟨b, hb⟩ := h
  rw [writeNumber, hb]
  dsimp only
  split
  · split
    · exact fun c => isNumeralChar_of_mem_writeInt
    · exact isNumeralChar_write _ _
  · exact isNumeralChar_write _ _

/-- A number that is not finite is written as null. -/
theorem writeNumber_of_not_isFinite {n : Float} (h : n.isFinite = false) :
    writeNumber n = "null" := by
  rw [isFinite_eq, Option.isSome_eq_false_iff, Option.isNone_iff_eq_none] at h
  rw [writeNumber, h]

theorem skipBlanks_cons {c : Char} (h : isJsonBlank c = false) (cs : List Char) :
    skipBlanks (c :: cs) = c :: cs :=
  List.dropWhile_cons_of_neg (by simp [h])

theorem isJsonBlank_of_isNumeralChar {c : Char} (h : isNumeralChar c = true) :
    isJsonBlank c = false := by
  have hnot : ∀ blank ∈ [' ', '\n', '\t', '\r'], c ≠ blank := by
    rintro blank hblank rfl
    fin_cases hblank <;> cases h
  simpa [isJsonBlank, and_assoc] using hnot

section

variable {double? : List Char → Option Float}

/-- A numeral denotes the same number whatever closes it. -/
theorem readNumber?_append {cs rest : List Char} (h : ∀ c ∈ cs, isNumeralChar c = true)
    (hrest : Closes rest) :
    readNumber? double? (cs ++ rest) = (number? double? cs).map fun n => (n, rest) := by
  rw [readNumber?, splitNumeral_append h hrest]

/-- What starts like a numeral is read as a number. -/
theorem readValue?_numeral (nesting : Nat) {c : Char} (h : isNumeralChar c = true)
    (cs : List Char) :
    readValue? double? nesting (c :: cs) =
      (readNumber? double? (c :: cs)).map fun (n, rest) => (.number n, rest) := by
  have hscalar : readScalar? double? (c :: cs) =
      (readNumber? double? (c :: cs)).map fun (n, rest) => (.number n, rest) := by
    unfold readScalar?
    split <;> first | rfl | (rename_i heq; cases heq; cases h)
  have hskip := skipBlanks_cons (isJsonBlank_of_isNumeralChar h) cs
  cases nesting <;> rw [readValue?, hskip, ← hscalar] <;> split <;>
    first | rfl | (rename_i heq; cases heq; cases h)

theorem number?_of_isExactInteger {n : Float} (h : IsExactInteger n) :
    number? double? (writeNumber n).toList = some (unsignedZero n) := by
  obtain ⟨b, i, hb, hi, hlt⟩ := h
  have hwrite : writeNumber n = writeInt i := by
    rw [writeNumber, hb]
    dsimp only
    rw [hi]
    exact if_pos hlt
  have hzero : (n == 0) = true ↔ i = 0 := by
    obtain ⟨-, hparts⟩ := toInt?_eq_some hi
    rw [beq_zero_iff hb, ← Int.natAbs_eq_zero]
    rcases hparts with ⟨-, habs⟩ | ⟨-, hmantissa⟩
    · rw [habs]
      simp
    · rw [hmantissa]
      simp
  rw [hwrite, number?_writeInt double? hlt, unsignedZero]
  by_cases hi0 : i = 0
  · rw [if_pos (hzero.2 hi0), hi0]
    rfl
  · rw [if_neg (mt hzero.1 hi0), ← eq_ofInt_of_toInt? hb hi hlt hi0]

theorem number?_of_readsBack {n : Float} (hfinite : n.isFinite = true)
    (h : ReadsBack double? n) (hzero : (n == 0) = false) :
    number? double? (writeNumber n).toList = some n := by
  have hnumeral := isNumeralChar_writeNumber hfinite
  obtain ⟨value, hread, hequal⟩ := (Option.any_eq_true _ _).1 h
  rw [readWith?] at hread
  generalize (writeNumber n).toList = cs at hnumeral hread
  cases cs with
  | nil => cases hread
  | cons c cs =>
    have hnumber := @readNumber?_append double? _ _ hnumeral closes_nil
    rw [List.append_nil] at hnumber
    rw [readValue?_numeral _ (hnumeral c List.mem_cons_self), hnumber] at hread
    cases hvalue : number? double? (c :: cs) with
    | none =>
      rw [hvalue] at hread
      cases hread
    | some m =>
      rw [hvalue] at hread
      obtain rfl : .number m = value := Option.some.inj hread
      rcases Value.eq_or_zero_of_beq hequal with rfl | ⟨hzero', -⟩
      · rfl
      · rw [hzero'] at hzero
        cases hzero

/-- Zero is an integer, whatever its sign. -/
theorem isExactInteger_of_beq_zero {n : Float} (h : (n == 0) = true) : IsExactInteger n := by
  obtain ⟨-, -, rfl | ⟨rfl, -⟩ | ⟨rfl, -⟩⟩ := Float.beq_iff_ne_nan_and_eq.1 h
  · exact ⟨⟨false, 0, -1074⟩, 0, by decide +kernel⟩
  · exact ⟨⟨false, 0, -1074⟩, 0, by decide +kernel⟩
  · exact ⟨⟨true, 0, -1074⟩, 0, by decide +kernel⟩

/-- What is read for a finite number that is an exact integer or reads back. -/
theorem number?_writeNumber {n : Float} (hfinite : n.isFinite = true)
    (h : IsExactInteger n ∨ ReadsBack double? n) :
    number? double? (writeNumber n).toList = some (unsignedZero n) := by
  cases hzero : n == 0 with
  | true => exact number?_of_isExactInteger (isExactInteger_of_beq_zero hzero)
  | false =>
    rcases h with hexact | hback
    · exact number?_of_isExactInteger hexact
    · rw [unsignedZero, hzero]
      exact number?_of_readsBack hfinite hback hzero

end

end Json

end DataExpr
