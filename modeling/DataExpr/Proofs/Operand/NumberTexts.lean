import DataExpr.Operand
import DataExpr.Proofs.Decimal.Rounding
import DataExpr.Proofs.Syntax.Numerals
import DataExpr.Query.Inference

/-!
# Texts that are numbers

Three readers take numbers from texts: the tokens of an expression, the conversion of
operands to numbers, and the inference of types in a query.  On texts that are made of the
characters of numerals and start without a sign they agree (`number_readers_agree`).
-/

namespace DataExpr

open Decimal

/-! ## Characters of numerals -/

theorem not_isBlank_of_isNumeralChar {c : Char} (h : isNumeralChar c = true) :
    Text.isBlank c = false := by
  unfold isNumeralChar at h
  simp only [Bool.or_eq_true, beq_iff_eq] at h
  rcases h with ((((hdigit | rfl) | rfl) | rfl) | rfl) | rfl
  · exact not_isBlank_of_isDigit hdigit
  all_goals decide

section

variable {t : String} (hchars : ∀ c ∈ t.toList, isNumeralChar c = true)

include hchars

theorem trim_of_isNumeralChar : Text.trim t.toList = t.toList :=
  trim_of_not_isBlank fun c hc => not_isBlank_of_isNumeralChar (hchars c hc)

/-- The conversion to numbers knows no other form of such texts. -/
theorem numberOfText_of_isNumeralChar (hne : t ≠ "") :
    numberOfText t = (readFloat? t.toList).getD (0 / 0) := by
  have hnil : t.toList ≠ [] := fun hnil => hne (String.toList_eq_nil_iff.1 hnil)
  have hother (c : Char) (h : isNumeralChar c = false) : c ∉ t.toList := by
    intro hc
    rw [hchars c hc] at h
    cases h
  have hradix {c : Char} (h : isNumeralChar c = false) (digits : List Char) :
      t.toList ≠ '0' :: c :: digits := by
    intro heq
    exact hother c h (by simp [heq])
  have hI := hother 'I' rfl
  unfold numberOfText
  rw [trim_of_isNumeralChar hchars]
  split
  · contradiction
  -- The two letters of each of the three prefixes are in no numeral.
  iterate 6
    · exact absurd ‹_› (hradix rfl _)
  · rw [if_neg, if_neg, if_pos (List.all_eq_true.2 hchars)]
    · intro heq
      exact absurd (by simp [heq]) hI
    · rintro (heq | heq) <;> exact absurd (by simp [heq]) hI

theorem readNumber?_of_isNumeralChar :
    TypedText.readNumber? t = (readFloat? t.toList).filter Float.isFinite := by
  unfold TypedText.readNumber?
  dsimp only
  rw [trim_of_isNumeralChar hchars, if_pos (List.all_eq_true.2 hchars)]

end

theorem readFloat?_of_unsigned {cs : List Char} (h : ∀ c ∈ cs.head?, c ≠ '+' ∧ c ≠ '-') :
    readFloat? cs = (Numeral.ofChars? cs).map Numeral.toFloat := by
  unfold readFloat?
  split
  · exact absurd rfl (h '-' rfl).2
  · exact absurd rfl (h '+' rfl).1
  · rfl

/-- What is read without a sign is a number. -/
theorem numberOfText_eq_iff {t : String} (hne : t ≠ "")
    (hchars : ∀ c ∈ t.toList, isNumeralChar c = true)
    (hunsigned : ∀ c ∈ t.toList.head?, c ≠ '+' ∧ c ≠ '-') {n : Float} :
    numberOfText t = n ∧ n.isNaN = false ↔ readFloat? t.toList = some n := by
  rw [numberOfText_of_isNumeralChar hchars hne, readFloat?_of_unsigned hunsigned]
  constructor
  · rintro ⟨rfl, hnumber⟩
    cases hread : Numeral.ofChars? t.toList with
    | none =>
      have hnan : (0 / 0 : Float).isNaN = true := by decide +kernel
      rw [hread, Option.map_none, Option.getD_none, hnan] at hnumber
      cases hnumber
    | some numeral => rfl
  · intro h
    rw [h, Option.getD_some]
    obtain ⟨numeral, -, rfl⟩ := Option.map_eq_some_iff.1 h
    exact ⟨rfl, not_isNaN_toFloat numeral⟩

theorem typedValue_of_readNumber? {t : String} {n : Float}
    (h : TypedText.readNumber? t = some n) : typedValue t = .number n := by
  have hinfer : TypedText.infer {} t = .number n := by
    unfold TypedText.infer
    rw [h]
    rfl
  rw [typedValue, hinfer]
  rfl

/-- The readers of numbers agree.  Take a text that is made of the characters of numerals,
is not empty and does not start with a sign.  It is one token, a number, just if it means
that number as an operand, and just if it is a numeral that denotes the number.  It is taken
for the number in a query just if that is finite.

So where a number starts in an expression there is always one, and the fault that says
otherwise is never found. -/
theorem number_readers_agree :
    (∀ t : String, t ≠ "" → (∀ c ∈ t.toList, isNumeralChar c = true) →
      (∀ c ∈ t.toList.head?, c ≠ '+' ∧ c ≠ '-') →
        ((readFloat? t.toList).isSome = true ↔ IsNumeral t.toList) ∧
        (∀ n : Float,
          [kinds t = [.number n, .endOfInput], numberOfText t = n ∧ n.isNaN = false,
            readFloat? t.toList = some n].TFAE) ∧
        ((TypedText.readNumber? t).isSome = true ↔
          ∃ n, readFloat? t.toList = some n ∧ n.isFinite = true) ∧
        ∀ n, readFloat? t.toList = some n → n.isFinite = true → typedValue t = .number n) ∧
      ∀ source, .error .badNumber ∉ kinds source := by
  refine ⟨fun t hne hchars hunsigned => ?_, badNumber_not_mem_kinds⟩
  have hread := readFloat?_of_unsigned hunsigned
  have hfinite {n : Float} : TypedText.readNumber? t = some n ↔
      readFloat? t.toList = some n ∧ n.isFinite = true := by
    rw [readNumber?_of_isNumeralChar hchars, Option.filter_eq_some_iff]
  refine ⟨?_, fun n => ?_, ?_, fun n h hn => typedValue_of_readNumber? (hfinite.2 ⟨h, hn⟩)⟩
  · rw [hread, Option.isSome_map]
    exact isSome_ofChars?_iff
  · have htoken : kinds t = [.number n, .endOfInput] ↔ readFloat? t.toList = some n := by
      rw [hread]
      exact kindsFrom_eq_number_iff fun c hc => not_isBlank_of_isNumeralChar (hchars c hc)
    tfae_have 1 ↔ 3 := htoken
    tfae_have 2 ↔ 3 := numberOfText_eq_iff hne hchars hunsigned
    tfae_finish
  · rw [Option.isSome_iff_exists]
    exact exists_congr fun n => hfinite

/-- Point, digit and exponent make a number of each reader's, and a letter without digits
behind it makes none. -/
theorem number_readers_agree_scaled :
    kinds ".5e1" = [.number 5, .endOfInput] ∧ numberOfText ".5e1" = 5 ∧
      typedValue ".5e1" = .number 5 ∧
      (∀ n, kinds "5e" ≠ [.number n, .endOfInput]) ∧ TypedText.readNumber? "5e" = none := by
  obtain ⟨hagree, -⟩ := number_readers_agree
  have hchars : ∀ c ∈ ".5e1".toList, isNumeralChar c = true :=
    List.all_eq_true.1 (by decide +kernel)
  have hchars' : ∀ c ∈ "5e".toList, isNumeralChar c = true :=
    List.all_eq_true.1 (by decide +kernel)
  have hunsigned : ∀ c ∈ ".5e1".toList.head?, c ≠ '+' ∧ c ≠ '-' := by
    rintro c ⟨⟩
    decide
  have hunsigned' : ∀ c ∈ "5e".toList.head?, c ≠ '+' ∧ c ≠ '-' := by
    rintro c ⟨⟩
    decide
  obtain ⟨-, hreaders, -, hquery⟩ := hagree ".5e1" (by decide) hchars hunsigned
  obtain ⟨-, hreaders', hfinite', -⟩ := hagree "5e" (by decide) hchars' hunsigned'
  have hfive : readFloat? ".5e1".toList = some 5 := by decide +kernel
  have hnone : readFloat? "5e".toList = none := by decide +kernel
  have htoken : kinds ".5e1" = [.number 5, .endOfInput] ↔ readFloat? ".5e1".toList = some 5 :=
    (hreaders 5).out 0 2
  have hoperand : numberOfText ".5e1" = 5 ∧ (5 : Float).isNaN = false ↔
      readFloat? ".5e1".toList = some 5 :=
    (hreaders 5).out 1 2
  refine ⟨htoken.2 hfive, (hoperand.2 hfive).1, hquery 5 hfive (by decide +kernel),
    fun n h => ?_, ?_⟩
  · have htoken' : kinds "5e" = [.number n, .endOfInput] ↔ readFloat? "5e".toList = some n :=
      (hreaders' n).out 0 2
    rw [htoken'.1 h] at hnone
    cases hnone
  · rw [← Option.not_isSome_iff_eq_none, hfinite']
    rintro ⟨n, hn, -⟩
    rw [hn] at hnone
    cases hnone

end DataExpr
