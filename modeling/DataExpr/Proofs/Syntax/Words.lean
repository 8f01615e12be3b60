import DataExpr.Proofs.Syntax.Scanners
import DataExpr.Proofs.Syntax.Tokens

/-!
# Words as tokens

A text made like a name is one token, wherever it ends (`kindsFrom_word`).  It is a keyword
or a name, and a name exactly if it is an identifier (`kinds_eq_name_iff`).
-/

namespace DataExpr

/-- The text is made like a name.  Keywords are, too. -/
structure IsNameShaped (text : String) : Prop where
  exists_chars : ∃ c cs, text.toList = c :: cs ∧ isNameStart c = true ∧
    ∀ d ∈ cs, isNamePart d = true

theorem isIdentifier_iff {text : String} :
    isIdentifier text = true ↔ IsNameShaped text ∧ Keyword.ofText? text = none := by
  unfold isIdentifier
  cases hchars : text.toList with
  | nil =>
    simp only [Bool.false_eq_true, false_iff, not_and]
    rintro ⟨c, cs, h, -⟩
    rw [hchars] at h
    cases h
  | cons c cs =>
    simp only [Bool.and_eq_true, List.all_eq_true, Option.isNone_iff_eq_none]
    refine and_congr_left fun _ => ?_
    constructor
    · intro h
      exact ⟨c, cs, hchars, h⟩
    · rintro ⟨d, ds, h, hshape⟩
      rw [hchars] at h
      cases h
      exact hshape

theorem scanWord_append {c : Char} {cs rest : List Char} (hparts : ∀ d ∈ cs, isNamePart d = true)
    (hrest : ∀ d ∈ rest.head?, isNamePart d = false) :
    scanWord c (cs ++ rest) = (wordKind (c :: cs), cs.length) := by
  rw [scanWord, takeWhile_run hparts hrest]

theorem kindsFrom_word {text : String} (h : IsNameShaped text) {rest : List Char}
    (hrest : ∀ d ∈ rest.head?, isNamePart d = false) :
    kindsFrom (text.toList ++ rest) = wordKind text.toList :: kindsFrom rest := by
  obtain ⟨c, cs, hchars, hstart, hparts⟩ := h.exists_chars
  rw [hchars, List.cons_append]
  apply kindsFrom_token (not_isBlank_of_isNameStart hstart)
  rw [scanToken_nameStart hstart, scanWord_append hparts hrest]

theorem kindsFrom_identifier {text : String} (h : isIdentifier text = true) {rest : List Char}
    (hrest : ∀ d ∈ rest.head?, isNamePart d = false) :
    kindsFrom (text.toList ++ rest) = .name text :: kindsFrom rest := by
  obtain ⟨hshaped, hkeyword⟩ := isIdentifier_iff.1 h
  have hword : wordKind text.toList = .name text := by
    rw [wordKind, String.ofList_toList, hkeyword]
  rw [kindsFrom_word hshaped hrest, hword]

/-- A text is a name by itself exactly if it is an identifier. -/
theorem kinds_eq_name_iff (text : String) :
    kinds text = [.name text, .endOfInput] ↔ isIdentifier text = true := by
  constructor
  · intro h
    have hmem : .name text ∈ kinds text := by
      rw [h]
      exact List.mem_cons_self
    exact isIdentifier_of_mem_kinds hmem
  · intro h
    have hkinds : kindsFrom (text.toList ++ []) = .name text :: kindsFrom [] :=
      kindsFrom_identifier h (by simp)
    rwa [List.append_nil] at hkinds

end DataExpr
