import DataExpr.Text.Basic

/-!
# Byte offsets between characters

The offset behind some characters at the front of a text splits the text there, so the
piece between two such offsets is what stands between them (`slice_append`), and the line
around such an offset is the whole line on which the place lies (`isLineAt_lineAt`).
-/

namespace DataExpr.Text

theorem byteLength_append (cs others : List Char) :
    byteLength (cs ++ others) = byteLength cs + byteLength others := by
  have hfrom (cs : List Char) (length : Nat) :
      cs.foldl (fun length c => length + c.utf8Size) length = length + byteLength cs := by
    induction cs generalizing length with
    | nil => rfl
    | cons c cs ih =>
      rw [byteLength, List.foldl_cons, List.foldl_cons, ih, ih (0 + c.utf8Size)]
      omega
  rw [byteLength, List.foldl_append, hfrom others]
  rfl

theorem byteLength_cons (c : Char) (cs : List Char) :
    byteLength (c :: cs) = c.utf8Size + byteLength cs := by
  rw [← List.singleton_append, byteLength_append]
  simp [byteLength]

theorem splitAtOffset_append (cs others : List Char) :
    splitAtOffset (byteLength cs) (cs ++ others) = (cs, others) := by
  induction cs with
  | nil => cases others <;> rfl
  | cons c cs ih =>
    have hsize := c.utf8Size_pos
    have hrest : byteLength (c :: cs) - c.utf8Size = byteLength cs := by
      rw [byteLength_cons]
      omega
    have hne : byteLength (c :: cs) ≠ 0 := by
      rw [byteLength_cons]
      omega
    rw [List.cons_append, splitAtOffset, if_neg hne, hrest, ih]

/-- What stands between the offsets at the two ends of a piece is the piece. -/
theorem slice_append (before piece behind : List Char) :
    slice (byteLength before) (byteLength (before ++ piece)) (before ++ piece ++ behind) =
      piece := by
  have hlength : byteLength (before ++ piece) - byteLength before = byteLength piece := by
    rw [byteLength_append]
    omega
  rw [slice, List.append_assoc, splitAtOffset_append, hlength, splitAtOffset_append]

/-! ## Lines -/

/-- The characters are the whole line of a text, without its line end, on which the place
behind `before` lies. -/
def IsLineAt (text before line : List Char) : Prop :=
  ∃ above front back below, text = above ++ (front ++ back) ++ below ∧ before = above ++ front ∧
    line = front ++ back ∧ '\n' ∉ line ∧ (above = [] ∨ above.getLast? = some '\n') ∧
    (below = [] ∨ below.head? = some '\n')

theorem dropWhile_ne_lineEnd (cs : List Char) :
    cs.dropWhile (· ≠ '\n') = [] ∨ (cs.dropWhile (· ≠ '\n')).head? = some '\n' := by
  cases h : cs.dropWhile (· ≠ '\n') with
  | nil => exact .inl rfl
  | cons c rest =>
    have hc := List.head?_dropWhile_not (· ≠ '\n') cs
    rw [h] at hc
    exact .inr (by simpa using hc)

theorem not_mem_takeWhile_ne_lineEnd (cs : List Char) : '\n' ∉ cs.takeWhile (· ≠ '\n') := by
  intro h
  simpa using List.all_eq_true.1 List.all_takeWhile _ h

theorem isLineAt_lineAt (before rest : List Char) :
    IsLineAt (before ++ rest) before (lineAt (byteLength before) (before ++ rest)) := by
  have hbefore : before = (before.reverse.dropWhile (· ≠ '\n')).reverse ++
      (before.reverse.takeWhile (· ≠ '\n')).reverse := by
    rw [← List.reverse_append, List.takeWhile_append_dropWhile, List.reverse_reverse]
  have hrest : rest = rest.takeWhile (· ≠ '\n') ++ rest.dropWhile (· ≠ '\n') :=
    List.takeWhile_append_dropWhile.symm
  have hline : lineAt (byteLength before) (before ++ rest) =
      (before.reverse.takeWhile (· ≠ '\n')).reverse ++ rest.takeWhile (· ≠ '\n') := by
    rw [lineAt, splitAtOffset_append]
  refine ⟨_, _, _, _, ?_, hbefore, hline, ?_, ?_, dropWhile_ne_lineEnd rest⟩
  · rw [List.append_assoc, List.append_assoc, ← hrest, ← List.append_assoc, ← hbefore]
  · rw [hline, List.mem_append, List.mem_reverse]
    rintro (h | h)
    · exact not_mem_takeWhile_ne_lineEnd _ h
    · exact not_mem_takeWhile_ne_lineEnd _ h
  · rw [List.reverse_eq_nil_iff, List.getLast?_reverse]
    exact dropWhile_ne_lineEnd before.reverse

end DataExpr.Text
