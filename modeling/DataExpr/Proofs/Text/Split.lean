import DataExpr.Text.Basic

/-!
# Splitting undoes joining

Pieces without the separator come back from their join (`splitAll_intercalate`), and
a first piece without it is cut off before the separator (`cutAt_append`).
-/

namespace DataExpr.Text

variable {separator : Char}

theorem splitAll_of_not_mem {cs : List Char} (h : separator ∉ cs) :
    splitAll separator cs = [cs] := by
  induction cs with
  | nil => rfl
  | cons c cs ih =>
    rw [List.mem_cons, not_or] at h
    rw [splitAll, if_neg (Ne.symm h.1), ih h.2]

theorem splitAll_append {piece : List Char} (h : separator ∉ piece) (rest : List Char) :
    splitAll separator (piece ++ separator :: rest) = piece :: splitAll separator rest := by
  induction piece with
  | nil => rw [List.nil_append, splitAll, if_pos rfl]
  | cons c piece ih =>
    rw [List.mem_cons, not_or] at h
    rw [List.cons_append, splitAll, if_neg (Ne.symm h.1), ih h.2]

/-- The text of no pieces at all has one, the empty one. -/
theorem splitAll_intercalate {pieces : List (List Char)} (h : ∀ piece ∈ pieces, separator ∉ piece) :
    splitAll separator ([separator].intercalate pieces) =
      if pieces = [] then [[]] else pieces := by
  induction pieces with
  | nil => rfl
  | cons piece pieces ih =>
    rw [List.forall_mem_cons] at h
    rw [if_neg (List.cons_ne_nil _ _)]
    cases pieces with
    | nil => simpa using splitAll_of_not_mem h.1
    | cons next pieces =>
      have hrest := ih h.2
      rw [if_neg (List.cons_ne_nil _ _)] at hrest
      rw [List.intercalate_cons_cons, List.append_assoc, List.singleton_append,
        splitAll_append h.1, hrest]

/-- A join has the characters of the pieces and separators only. -/
theorem not_mem_intercalate {c : Char} (hne : c ≠ separator) {pieces : List (List Char)}
    (h : ∀ piece ∈ pieces, c ∉ piece) : c ∉ [separator].intercalate pieces := by
  induction pieces with
  | nil => simp
  | cons piece pieces ih =>
    rw [List.forall_mem_cons] at h
    cases pieces with
    | nil => simpa using h.1
    | cons next pieces =>
      rw [List.intercalate_cons_cons]
      simp [h.1, hne, ih h.2]

/-- A join starts like its first piece, or with a separator. -/
theorem head?_intercalate_ne {c : Char} (hne : c ≠ separator) {pieces : List (List Char)}
    (h : ∀ piece ∈ pieces, piece.head? ≠ some c) :
    ([separator].intercalate pieces).head? ≠ some c := by
  match pieces with
  | [] => simp
  | [piece] => simpa using h
  | [] :: next :: pieces => simpa [List.intercalate_cons_cons] using Ne.symm hne
  | (first :: piece) :: next :: pieces =>
    rw [List.forall_mem_cons] at h
    simpa [List.intercalate_cons_cons] using h.1

theorem decide_ne_of_not_mem {cs : List Char} (h : separator ∉ cs) :
    ∀ c ∈ cs, decide (c ≠ separator) = true := by
  intro c hc
  exact decide_eq_true fun heq => h (heq ▸ hc)

theorem takeWhile_ne_append {cs : List Char} (h : separator ∉ cs) (rest : List Char) :
    (cs ++ rest).takeWhile (· ≠ separator) = cs ++ rest.takeWhile (· ≠ separator) :=
  List.takeWhile_append_of_pos (decide_ne_of_not_mem h)

theorem dropWhile_ne_append {cs : List Char} (h : separator ∉ cs) (rest : List Char) :
    (cs ++ rest).dropWhile (· ≠ separator) = rest.dropWhile (· ≠ separator) :=
  List.dropWhile_append_of_pos (decide_ne_of_not_mem h)

theorem cutAt_of_not_mem {cs : List Char} (h : separator ∉ cs) : cutAt separator cs = (cs, []) := by
  have htake : cs.takeWhile (· ≠ separator) = cs := by simpa using takeWhile_ne_append h []
  have hdrop : cs.dropWhile (· ≠ separator) = [] := by simpa using dropWhile_ne_append h []
  rw [cutAt, htake, hdrop]
  rfl

theorem cutAt_append {piece : List Char} (h : separator ∉ piece) (rest : List Char) :
    cutAt separator (piece ++ separator :: rest) = (piece, rest) := by
  rw [cutAt, takeWhile_ne_append h, dropWhile_ne_append h]
  simp

end DataExpr.Text
