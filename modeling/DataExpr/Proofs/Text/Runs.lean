import DataExpr.Text.Basic
import Mathlib.Data.List.TakeWhile

/-!
# Runs of characters

A run is what comes first as long as the characters have some property.  Every text is a run and
what stands behind it (`exists_run`), and a run that is put in front of something else is found
there again (`takeWhile_run`, `dropWhile_run`).

Trimming drops a run of white space at either end of a text (`trim_surrounded`), and a text
without blanks has nothing to trim (`trim_of_not_isBlank`).  What the table of white space leaves
out is not blank (`isBlank_eq_false`).
-/

namespace DataExpr

open DataExpr.Text (isBlank)

/-- A run ends where a character comes that does not go on with it. -/
theorem takeWhile_run {p : Char → Bool} {run rest : List Char} (hrun : ∀ c ∈ run, p c = true)
    (hrest : ∀ c ∈ rest.head?, p c = false) : (run ++ rest).takeWhile p = run := by
  rw [List.takeWhile_append_of_pos hrun]
  cases rest with
  | nil => rw [List.takeWhile_nil, List.append_nil]
  | cons c rest =>
    have hc : p c = false := hrest c rfl
    rw [List.takeWhile_cons_of_neg (by rw [hc]; decide), List.append_nil]

theorem dropWhile_run {p : Char → Bool} {run rest : List Char} (hrun : ∀ c ∈ run, p c = true)
    (hrest : ∀ c ∈ rest.head?, p c = false) : (run ++ rest).dropWhile p = rest := by
  rw [List.dropWhile_append_of_pos hrun]
  cases rest with
  | nil => rfl
  | cons c rest => exact List.dropWhile_cons_of_neg (by simp [hrest c rfl])

/-- A run comes first, and then something else. -/
theorem exists_run (p : Char → Bool) (cs : List Char) :
    ∃ run rest, cs = run ++ rest ∧ (∀ c ∈ run, p c = true) ∧ ∀ c ∈ rest.head?, p c = false := by
  refine ⟨cs.takeWhile p, cs.dropWhile p, (List.takeWhile_append_dropWhile).symm,
    fun c => List.mem_takeWhile_imp, ?_⟩
  intro c hc
  have hhead := List.head?_dropWhile_not p cs
  rwa [Option.mem_def.1 hc] at hhead

/-! ## White space -/

theorem isBlank_eq_false {c : Char}
    (h : ∀ blank ∈ Text.blankRanges, blank.2 < c.toNat ∨ c.toNat < blank.1) :
    isBlank c = false := by
  rw [isBlank, Text.inRanges, List.any_eq_false]
  intro blank hblank hc
  simp only [Bool.and_eq_true, decide_eq_true_eq] at hc
  have hapart := h blank hblank
  omega

/-- The ASCII characters behind the space are not blank. -/
theorem not_isBlank_of_visible {c : Char} (hlow : 33 ≤ c.toNat) (hhigh : c.toNat ≤ 126) :
    isBlank c = false := by
  have hvisible : ∀ blank ∈ Text.blankRanges, blank.2 < 33 ∨ 126 < blank.1 := by decide +kernel
  apply isBlank_eq_false
  intro blank hblank
  have hapart := hvisible blank hblank
  omega

theorem toNat_of_isDigit {c : Char} (h : c.isDigit = true) : 48 ≤ c.toNat ∧ c.toNat ≤ 57 := by
  have hdigit : (decide (48 ≤ c.toNat) && decide (c.toNat ≤ 57)) = true := h
  simpa using hdigit

theorem not_isBlank_of_isDigit {c : Char} (h : c.isDigit = true) : isBlank c = false := by
  have hc := toNat_of_isDigit h
  exact not_isBlank_of_visible (by omega) (by omega)

/-- Blanks around a text that neither starts nor ends with one are trimmed. -/
theorem trim_surrounded {before core after : List Char} (hbefore : ∀ c ∈ before, isBlank c = true)
    (hafter : ∀ c ∈ after, isBlank c = true) (hne : core ≠ [])
    (hfirst : ∀ c ∈ core.head?, isBlank c = false) (hlast : ∀ c ∈ core.getLast?, isBlank c = false) :
    Text.trim (before ++ core ++ after) = core := by
  have hstart : Text.trimStart (before ++ (core ++ after)) = core ++ after := by
    obtain ⟨c, core, rfl⟩ := List.exists_cons_of_ne_nil hne
    exact dropWhile_run hbefore hfirst
  have hend : Text.trimStart (after.reverse ++ core.reverse) = core.reverse := by
    apply dropWhile_run
    · simpa using hafter
    · rwa [List.head?_reverse]
  rw [Text.trim, List.append_assoc, hstart, List.reverse_append, hend, List.reverse_reverse]

/-- A text without blanks has nothing to trim. -/
theorem trim_of_not_isBlank {cs : List Char} (h : ∀ c ∈ cs, isBlank c = false) :
    Text.trim cs = cs := by
  by_cases hne : cs = []
  · rw [hne]
    rfl
  · have htrim := @trim_surrounded [] cs [] nofun nofun hne
      (fun c hc => h c (List.mem_of_mem_head? hc)) fun c hc => h c (List.mem_of_getLast? hc)
    rwa [List.nil_append, List.append_nil] at htrim

end DataExpr
