import DataExpr.Proofs.Path.Writing

/-!
# The pieces of a path

Splitting takes a path apart into pieces: separators, runs in quotes, runs of bare characters,
and quotes that open no run.  `Cut` says what the pieces are, without the order in which they
are found; every path has a cut, and its segments are those of the pieces
(`exists_cut`, `Cut.segmentsFrom_eq`).

A quote opens a run unless the next quote of its kind is missing or stands right behind it.  So
no run is empty, but a run may consist of quotes of the other kind, and these are not part of
its segment.  Such runs are the ones whose segments are empty (`Cut.empty_mem_iff`,
`empty_segments`).
-/

namespace DataExpr.Path

/-- A piece of a path. -/
inductive Piece where
  /-- A separator, or a quote that opens no run. -/
  | skipped (c : Char)
  /-- A run in quotes. -/
  | quoted (quote : Char) (run : List Char)
  /-- A run of bare characters. -/
  | bare (run : List Char)
  deriving DecidableEq, Repr

namespace Piece

/-- The characters of a piece. -/
def chars : Piece → List Char
  | skipped c => [c]
  | quoted quote run => quote :: (run ++ [quote])
  | bare run => run

/-- The segment that a piece contributes. -/
def segment? : Piece → Option String
  | skipped _ => none
  | quoted _ run => some (segmentOfRun run)
  | bare run => some (String.ofList run)

/-- What a piece shows by itself.  No run is empty, and one in quotes goes up to the next quote of
its kind. -/
def IsProper : Piece → Prop
  | skipped c => isBare c = false
  | quoted quote run => isQuote quote = true ∧ run ≠ [] ∧ quote ∉ run
  | bare run => run ≠ [] ∧ ∀ c ∈ run, isBare c = true

end Piece

/-- A quote in front of these characters opens no run: the next one of its kind is missing or
stands right behind it. -/
def IsLoose (quote : Char) (cs : List Char) : Prop :=
  quote ∉ cs ∨ cs.head? = some quote

/-- The characters are cut into these pieces. -/
inductive Cut : List Char → List Piece → Prop where
  | nothing : Cut [] []
  | separator {c cs pieces} (hc : isSeparator c = true) (rest : Cut cs pieces) :
      Cut (c :: cs) (.skipped c :: pieces)
  | looseQuote {quote cs pieces} (hquote : isQuote quote = true) (hloose : IsLoose quote cs)
      (rest : Cut cs pieces) : Cut (quote :: cs) (.skipped quote :: pieces)
  | quoted {quote run cs pieces} (hquote : isQuote quote = true) (hrun : run ≠ [])
      (hfree : quote ∉ run) (rest : Cut cs pieces) :
      Cut (quote :: (run ++ quote :: cs)) (.quoted quote run :: pieces)
  | bare {run cs pieces} (hrun : run ≠ []) (hbare : ∀ c ∈ run, isBare c = true)
      (hstop : ∀ c ∈ cs.head?, isBare c = false) (rest : Cut cs pieces) :
      Cut (run ++ cs) (.bare run :: pieces)

/-! ## Splitting is cutting -/

/-- A loose quote is passed over. -/
theorem segmentsFrom_loose {quote : Char} (hquote : isQuote quote = true) {cs : List Char}
    (hloose : IsLoose quote cs) : segmentsFrom 0 (quote :: cs) = segmentsFrom 0 cs := by
  have hnone : quotedRun? quote cs = none := by
    unfold quotedRun?
    dsimp only
    rcases hloose with hmissing | hbehind
    · have htake : cs.takeWhile (· ≠ quote) = cs := by
        rw [List.takeWhile_eq_self_iff]
        intro c hc
        have hne : c ≠ quote := fun heq => hmissing (heq ▸ hc)
        simp [hne]
      rw [htake, if_neg (by simp)]
    · have htake : cs.takeWhile (· ≠ quote) = [] := by
        cases cs with
        | nil => rfl
        | cons c cs =>
          cases hbehind
          simp
      rw [htake, if_neg (by simp)]
  rw [segmentsFrom, if_neg (not_isSeparator_of_isQuote hquote), if_pos hquote]
  simp only [hnone]

/-- The segments of a path are those of its pieces. -/
theorem Cut.segmentsFrom_eq {cs : List Char} {pieces : List Piece} (h : Cut cs pieces) :
    segmentsFrom 0 cs = pieces.filterMap Piece.segment? := by
  induction h with
  | nothing => rfl
  | separator hc _ ih => rw [segmentsFrom_separator hc, ih]; rfl
  | looseQuote hquote hloose _ ih => rw [segmentsFrom_loose hquote hloose, ih]; rfl
  | quoted hquote hrun hfree _ ih => rw [segmentsFrom_quoted hquote hrun hfree, ih]; rfl
  | bare hrun hbare hstop _ ih => rw [segmentsFrom_bare hrun hbare hstop, ih]; rfl

/-- The pieces make up the path. -/
theorem Cut.flatMap_chars {cs : List Char} {pieces : List Piece} (h : Cut cs pieces) :
    pieces.flatMap Piece.chars = cs := by
  induction h with
  | nothing => rfl
  | separator _ _ ih | looseQuote _ _ _ ih =>
    rw [List.flatMap_cons, ih]
    rfl
  | quoted _ _ _ _ ih =>
    rw [List.flatMap_cons, ih, Piece.chars, List.cons_append, List.append_assoc]
    rfl
  | bare _ _ _ _ ih =>
    rw [List.flatMap_cons, ih]
    rfl

theorem isBare_of_isQuote {c : Char} (h : isQuote c = true) : isBare c = false := by
  rw [isBare, h, Bool.not_true, Bool.and_false]

theorem Cut.isProper {cs : List Char} {pieces : List Piece} (h : Cut cs pieces) :
    ∀ piece ∈ pieces, piece.IsProper := by
  induction h with
  | nothing => nofun
  | separator hc _ ih => exact List.forall_mem_cons.2 ⟨isBare_of_isSeparator hc, ih⟩
  | looseQuote hquote _ _ ih => exact List.forall_mem_cons.2 ⟨isBare_of_isQuote hquote, ih⟩
  | quoted hquote hrun hfree _ ih => exact List.forall_mem_cons.2 ⟨⟨hquote, hrun, hfree⟩, ih⟩
  | bare hrun hbare _ _ ih => exact List.forall_mem_cons.2 ⟨⟨hrun, hbare⟩, ih⟩

/-- A quote is loose or opens a run. -/
theorem isLoose_or_exists_run (quote : Char) (cs : List Char) :
    IsLoose quote cs ∨ ∃ run rest, run ≠ [] ∧ quote ∉ run ∧ cs = run ++ quote :: rest := by
  by_cases hmem : quote ∈ cs
  · obtain ⟨run, rest, rfl, hfree⟩ := List.eq_append_cons_of_mem hmem
    by_cases hrun : run = []
    · exact .inl (.inr (by rw [hrun]; rfl))
    · exact .inr ⟨run, rest, hrun, hfree, rfl⟩
  · exact .inl (.inl hmem)

/-- What is left behind a piece can be cut, so everything can. -/
theorem exists_cut_drop (cs : List Char) (skip : Nat) : ∃ pieces, Cut (cs.drop skip) pieces := by
  induction cs generalizing skip with
  | nil =>
    rw [List.drop_nil]
    exact ⟨[], .nothing⟩
  | cons c cs ih =>
    cases skip with
    | succ skip => exact ih skip
    | zero =>
      obtain ⟨behind, hbehind⟩ := ih 0
      rw [List.drop_zero] at hbehind ⊢
      by_cases hseparator : isSeparator c = true
      · exact ⟨_, .separator hseparator hbehind⟩
      by_cases hquote : isQuote c = true
      · rcases isLoose_or_exists_run c cs with hloose | ⟨run, rest, hrun, hfree, rfl⟩
        · exact ⟨_, .looseQuote hquote hloose hbehind⟩
        · obtain ⟨pieces, hpieces⟩ := ih (run.length + 1)
          rw [← List.drop_drop, List.drop_left] at hpieces
          exact ⟨_, .quoted hquote hrun hfree hpieces⟩
      · obtain ⟨run, rest, rfl, hbare, hstop⟩ := exists_run isBare cs
        obtain ⟨pieces, hpieces⟩ := ih run.length
        rw [List.drop_left] at hpieces
        have hc : isBare c = true :=
          isBare_iff.2 ⟨Bool.eq_false_iff.2 hseparator, Bool.eq_false_iff.2 hquote⟩
        exact ⟨_, .bare (List.cons_ne_nil c run) (List.forall_mem_cons.2 ⟨hc, hbare⟩) hstop hpieces⟩

/-- Every text can be cut. -/
theorem exists_cut (cs : List Char) : ∃ pieces, Cut cs pieces :=
  exists_cut_drop cs 0

/-! ## Texts without segments -/

/-- There is something to match: a bare character, or a quote with another of its kind behind
it and something in between. -/
def IsMatchable (cs : List Char) : Prop :=
  (∃ c ∈ cs, isBare c = true) ∨
    ∃ quote run, isQuote quote = true ∧ run ≠ [] ∧ quote ∉ run ∧ quote :: (run ++ [quote]) <:+: cs

theorem not_isMatchable_nil : ¬IsMatchable [] := by
  rintro (⟨c, hc, -⟩ | ⟨quote, run, -, -, -, hinfix⟩)
  · cases hc
  · cases List.infix_nil.1 hinfix

/-- A quoted run in front is matched. -/
theorem isMatchable_quoted {quote : Char} {run : List Char} (hquote : isQuote quote = true)
    (hrun : run ≠ []) (hfree : quote ∉ run) (rest : List Char) :
    IsMatchable (quote :: (run ++ quote :: rest)) := by
  refine .inr ⟨quote, run, hquote, hrun, hfree, List.IsPrefix.isInfix ⟨rest, ?_⟩⟩
  rw [List.cons_append, List.append_assoc, List.singleton_append]

theorem isMatchable_bare {run : List Char} (hrun : run ≠ []) (hbare : ∀ c ∈ run, isBare c = true)
    (rest : List Char) : IsMatchable (run ++ rest) := by
  obtain ⟨c, hc⟩ := List.exists_mem_of_ne_nil run hrun
  exact .inl ⟨c, List.mem_append_left rest hc, hbare c hc⟩

/-- A character that is skipped is no part of a match. -/
theorem isMatchable_cons_iff {c : Char} (hbare : isBare c = false) {cs : List Char}
    (hloose : isQuote c = true → IsLoose c cs) : IsMatchable (c :: cs) ↔ IsMatchable cs := by
  constructor
  · rintro (⟨d, hd, hmatch⟩ | ⟨quote, run, hquote, hrun, hfree, hinfix⟩)
    · rcases List.mem_cons.1 hd with rfl | hd
      · rw [hbare] at hmatch
        cases hmatch
      · exact .inl ⟨d, hd, hmatch⟩
    · rcases List.infix_cons_iff.1 hinfix with ⟨rest, hprefix⟩ | hinfix
      · -- The run would start at the character, and a loose quote opens none.
        obtain ⟨rfl, rfl⟩ : quote = c ∧ run ++ [quote] ++ rest = cs := List.cons.inj hprefix
        rcases hloose hquote with hmissing | hbehind
        · exact absurd (by simp) hmissing
        · obtain ⟨first, run, rfl⟩ := List.exists_cons_of_ne_nil hrun
          obtain rfl : first = quote := Option.some.inj hbehind
          exact absurd List.mem_cons_self hfree
      · exact .inr ⟨quote, run, hquote, hrun, hfree, hinfix⟩
  · rintro (⟨d, hd, hmatch⟩ | ⟨quote, run, hquote, hrun, hfree, hinfix⟩)
    · exact .inl ⟨d, List.mem_cons_of_mem c hd, hmatch⟩
    · exact .inr ⟨quote, run, hquote, hrun, hfree, List.infix_cons_iff.2 (.inr hinfix)⟩

/-- A text has no segments exactly if there is nothing to match. -/
theorem Cut.segmentsFrom_eq_nil_iff {cs : List Char} {pieces : List Piece} (h : Cut cs pieces) :
    segmentsFrom 0 cs = [] ↔ ¬IsMatchable cs := by
  induction h with
  | nothing => exact iff_of_true rfl not_isMatchable_nil
  | separator hc _ ih =>
    rw [segmentsFrom_separator hc, ih, isMatchable_cons_iff (isBare_of_isSeparator hc)]
    exact fun hquote => absurd hc (not_isSeparator_of_isQuote hquote)
  | looseQuote hquote hloose _ ih =>
    rw [segmentsFrom_loose hquote hloose, ih,
      isMatchable_cons_iff (isBare_of_isQuote hquote) fun _ => hloose]
  | quoted hquote hrun hfree =>
    rw [segmentsFrom_quoted hquote hrun hfree]
    exact iff_of_false (List.cons_ne_nil _ _)
      (not_not_intro (isMatchable_quoted hquote hrun hfree _))
  | bare hrun hbare hstop =>
    rw [segmentsFrom_bare hrun hbare hstop]
    exact iff_of_false (List.cons_ne_nil _ _) (not_not_intro (isMatchable_bare hrun hbare _))

/-! ## Empty segments -/

/-- Nothing is left of a run exactly if it is all quotes. -/
theorem segmentOfRun_eq_empty_iff {run : List Char} :
    segmentOfRun run = "" ↔ ∀ c ∈ run, isQuote c = true := by
  rw [segmentOfRun, ← String.toList_inj, String.toList_ofList, String.toList_empty,
    List.filter_eq_nil_iff]
  simp

/-- Empty segments come from runs in quotes that are quotes themselves. -/
theorem Cut.empty_mem_iff {cs : List Char} {pieces : List Piece} (h : Cut cs pieces) :
    "" ∈ pieces.filterMap Piece.segment? ↔
      ∃ quote run, .quoted quote run ∈ pieces ∧ ∀ c ∈ run, isQuote c = true := by
  rw [List.mem_filterMap]
  constructor
  · rintro ⟨piece, hpiece, hempty⟩
    cases piece with
    | skipped c => cases hempty
    | quoted quote run =>
      exact ⟨quote, run, hpiece, segmentOfRun_eq_empty_iff.1 (Option.some.inj hempty)⟩
    | bare run =>
      have hchars := congrArg String.toList (Option.some.inj hempty)
      rw [String.toList_ofList] at hchars
      exact absurd hchars (h.isProper _ hpiece).1
  · rintro ⟨quote, run, hpiece, hquotes⟩
    exact ⟨_, hpiece, congrArg some (segmentOfRun_eq_empty_iff.2 hquotes)⟩

/-- A run of quotes in quotes has quotes of both kinds in its path. -/
theorem Cut.mem_of_quotesQuoted {cs : List Char} {pieces : List Piece} (h : Cut cs pieces)
    {quote : Char} {run : List Char} (hmem : .quoted quote run ∈ pieces)
    (hquotes : ∀ c ∈ run, isQuote c = true) {other : Char} (hother : isQuote other = true) :
    other ∈ cs := by
  obtain ⟨hquote, hrun, hfree⟩ := h.isProper _ hmem
  obtain ⟨inner, hinner⟩ := List.exists_mem_of_ne_nil run hrun
  have hkinds : other = quote ∨ other = inner := by
    have hinnerQuote := hquotes inner hinner
    have hne : quote ≠ inner := fun heq => hfree (heq ▸ hinner)
    simp only [isQuote, Bool.or_eq_true, beq_iff_eq] at hquote hother hinnerQuote
    grind
  rw [← h.flatMap_chars, List.mem_flatMap]
  refine ⟨_, hmem, ?_⟩
  rcases hkinds with rfl | rfl
  · exact List.mem_cons_self
  · exact List.mem_cons_of_mem quote (List.mem_append_left _ hinner)

/-- A path is cut into pieces, and its segments are those of the pieces.  It has an empty
segment exactly if a piece is a run in quotes that is all quotes, which takes quotes of both
kinds, and it has no segments exactly if nothing in it can be matched. -/
theorem empty_segments (path : String) :
    ∃ pieces, Cut path.toList pieces ∧ segments path = pieces.filterMap Piece.segment? ∧
      ("" ∈ segments path ↔
        ∃ quote run, .quoted quote run ∈ pieces ∧ ∀ c ∈ run, isQuote c = true) ∧
      (∀ quote, isQuote quote = true → quote ∉ path.toList → "" ∉ segments path) ∧
      (segments path = [] ↔ ¬IsMatchable path.toList) := by
  obtain ⟨pieces, hcut⟩ := exists_cut path.toList
  have hsegments : segments path = pieces.filterMap Piece.segment? := hcut.segmentsFrom_eq
  have hempty : "" ∈ segments path ↔
      ∃ quote run, .quoted quote run ∈ pieces ∧ ∀ c ∈ run, isQuote c = true := by
    rw [hsegments]
    exact hcut.empty_mem_iff
  refine ⟨pieces, hcut, hsegments, hempty, ?_, hcut.segmentsFrom_eq_nil_iff⟩
  intro other hother hmissing hmem
  obtain ⟨quote, run, hpiece, hquotes⟩ := hempty.1 hmem
  exact hmissing (hcut.mem_of_quotesQuoted hpiece hquotes hother)

/-- Single quotes alone leave no empty segment. -/
theorem empty_segments_unclosed :
    isQuote '"' = true ∧ '"' ∉ "a.''.'b".toList ∧ "" ∉ segments "a.''.'b" := by
  obtain ⟨_, _, _, _, hmissing, _⟩ := empty_segments "a.''.'b"
  exact ⟨by decide, by decide, hmissing '"' (by decide) (by decide)⟩

/-- A quote between quotes of the other kind is taken for a run, and nothing is left of it. -/
theorem not_segments_ne_empty :
    ¬∀ path, ∀ segment ∈ segments path, segment ≠ "" := by
  intro h
  exact h "'\"'" "" (by decide) rfl

end DataExpr.Path
