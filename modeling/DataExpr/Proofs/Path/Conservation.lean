import DataExpr.Proofs.Path.Pieces

/-!
# What splitting a path drops

A segment has no quotes in it, and all that is missing from the segments of a path is syntax:
with separators and quotes left out, they spell the path (`segments_keep_bare`).

Both are shown of a cut.  Each of its pieces contributes the bare characters that it has
(`Piece.IsProper.filter_contribution`), and no piece contributes a quote.  So it does not matter
which quotes open a run and which are passed over.
-/

namespace DataExpr.Path

/-- The characters that a piece contributes to the segments. -/
def Piece.contribution (piece : Piece) : List Char :=
  piece.segment?.elim [] String.toList

theorem bare_singleton_quote {quote : Char} (hquote : isQuote quote = true) :
    [quote].filter isBare = [] :=
  List.filter_cons_of_neg (by rw [isBare_of_isQuote hquote]; decide)

/-- Bare characters are no quotes, so a run loses none of them. -/
theorem filter_isBare_segmentOfRun (run : List Char) :
    (segmentOfRun run).toList.filter isBare = run.filter isBare := by
  rw [segmentOfRun, String.toList_ofList, List.filter_filter]
  refine List.filter_congr fun c _ => ?_
  cases hquote : isQuote c with
  | true => rw [isBare_of_isQuote hquote, Bool.false_and]
  | false => rw [Bool.not_false, Bool.and_true]

/-- A piece contributes its bare characters. -/
theorem Piece.IsProper.filter_contribution {piece : Piece} (h : piece.IsProper) :
    piece.contribution.filter isBare = piece.chars.filter isBare := by
  cases piece with
  | skipped c =>
    have hskipped : isBare c = false := h
    exact (List.filter_cons_of_neg (by rw [hskipped]; decide)).symm
  | quoted quote run =>
    have hquote : [quote].filter isBare = [] := bare_singleton_quote h.1
    calc (segmentOfRun run).toList.filter isBare
        = run.filter isBare := filter_isBare_segmentOfRun run
      _ = [quote].filter isBare ++ (run.filter isBare ++ [quote].filter isBare) := by
          rw [hquote, List.nil_append, List.append_nil]
      _ = (quote :: (run ++ [quote])).filter isBare := by
          rw [← List.filter_append, ← List.filter_append, List.singleton_append]
  | bare run =>
    show (String.ofList run).toList.filter isBare = run.filter isBare
    rw [String.toList_ofList]

/-- What a piece contributes has no quotes in it. -/
theorem Piece.IsProper.not_isQuote {piece : Piece} (h : piece.IsProper) {segment : String}
    (hsegment : piece.segment? = some segment) {c : Char} (hc : c ∈ segment.toList) :
    isQuote c = false := by
  cases piece with
  | skipped => cases hsegment
  | quoted quote run =>
    obtain rfl := Option.some.inj hsegment
    rw [segmentOfRun, String.toList_ofList, List.mem_filter, Bool.not_eq_true'] at hc
    exact hc.2
  | bare run =>
    obtain rfl := Option.some.inj hsegment
    rw [String.toList_ofList] at hc
    exact (isBare_iff.1 (h.2 c hc)).2

/-- The segments of pieces, one behind the other. -/
theorem flatMap_contribution (pieces : List Piece) :
    (pieces.filterMap Piece.segment?).flatMap String.toList = pieces.flatMap Piece.contribution := by
  induction pieces with
  | nil => rfl
  | cons piece pieces ih =>
    rw [List.flatMap_cons, ← ih, Piece.contribution, List.filterMap_cons]
    cases piece.segment? <;> rfl

/-- Pieces contribute all their bare characters. -/
theorem filter_flatMap_contribution {pieces : List Piece} (h : ∀ piece ∈ pieces, piece.IsProper) :
    (pieces.flatMap Piece.contribution).filter isBare =
      (pieces.flatMap Piece.chars).filter isBare := by
  induction pieces with
  | nil => rfl
  | cons piece pieces ih =>
    rw [List.forall_mem_cons] at h
    rw [List.flatMap_cons, List.flatMap_cons, List.filter_append, List.filter_append, ih h.2,
      h.1.filter_contribution]

/-- No segment has a quote in it, and with separators and quotes left out, the segments one
behind the other are the path.  So of all other characters none is lost, doubled or moved,
however the quotes of the path are matched. -/
theorem segments_keep_bare (path : String) :
    (∀ segment ∈ segments path, ∀ c ∈ segment.toList, isQuote c = false) ∧
      (String.join (segments path)).toList.filter isBare = path.toList.filter isBare := by
  obtain ⟨pieces, hcut⟩ := exists_cut path.toList
  have hsegments : segments path = pieces.filterMap Piece.segment? := hcut.segmentsFrom_eq
  constructor
  · intro segment hmem c hc
    rw [hsegments] at hmem
    obtain ⟨piece, hpiece, hsegment⟩ := List.mem_filterMap.1 hmem
    exact (hcut.isProper piece hpiece).not_isQuote hsegment hc
  · rw [String.toList_join, hsegments, flatMap_contribution,
      filter_flatMap_contribution hcut.isProper, hcut.flatMap_chars]

/-- The first quote is passed over, the second one opens a run, and the last one is missing its
other half. -/
example : segments "''a.b'[\"c" = ["a.b", "c"] := by decide

end DataExpr.Path
