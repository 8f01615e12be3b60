import DataExpr.Path
import DataExpr.Proofs.Text.Runs

/-!
# Keys written as a path

Keys come back from every path they are written as (`segments_writeParts`).  A key is written
as it is, unless a separator is in it, or in quotes of either kind, and tied to the one before
by a dot or by brackets around it; a path may mix all of these.

Nothing matches brackets when a path is split, and nothing has to: what ends a key that is
written as it is can only be the separator of the next joint, and what ends one in quotes is
the next quote of the same kind.  So the key in front is read whatever follows
(`segmentsFrom_part`), and the rest is split as if it stood alone.
-/

namespace DataExpr.Path

/-! ## The front of a path -/

theorem isBare_iff {c : Char} : isBare c = true ↔ isSeparator c = false ∧ isQuote c = false := by
  rw [isBare, Bool.and_eq_true, Bool.not_eq_true', Bool.not_eq_true']

/-- The characters of a segment that has been read are passed over. -/
theorem segmentsFrom_skip (taken cs : List Char) :
    segmentsFrom taken.length (taken ++ cs) = segmentsFrom 0 cs := by
  induction taken with
  | nil => rfl
  | cons c taken ih =>
    rw [List.length_cons, List.cons_append, segmentsFrom]
    exact ih

theorem segmentsFrom_separator {c : Char} (h : isSeparator c = true) (cs : List Char) :
    segmentsFrom 0 (c :: cs) = segmentsFrom 0 cs := by
  rw [segmentsFrom, if_pos h]

/-- No quote is a separator. -/
theorem not_isSeparator_of_isQuote {c : Char} (h : isQuote c = true) : ¬isSeparator c = true := by
  simp only [isQuote, Bool.or_eq_true, beq_iff_eq] at h
  rcases h with rfl | rfl <;> decide

/-- A run of bare characters is a segment, up to what is not bare or the end. -/
theorem segmentsFrom_bare {run rest : List Char} (hrun : run ≠ [])
    (hbare : ∀ c ∈ run, isBare c = true) (hrest : ∀ c ∈ rest.head?, isBare c = false) :
    segmentsFrom 0 (run ++ rest) = String.ofList run :: segmentsFrom 0 rest := by
  cases run with
  | nil => exact absurd rfl hrun
  | cons c run =>
    rw [List.forall_mem_cons] at hbare
    obtain ⟨hseparator, hquote⟩ := isBare_iff.1 hbare.1
    have htake : (run ++ rest).takeWhile isBare = run := takeWhile_run hbare.2 hrest
    rw [List.cons_append, segmentsFrom, if_neg (by simp [hseparator]), if_neg (by simp [hquote])]
    dsimp only
    rw [htake, segmentsFrom_skip]

/-- What stands in quotes goes up to the next quote of the same kind. -/
theorem quotedRun?_append {quote : Char} {run : List Char} (hrun : run ≠ []) (hfree : quote ∉ run)
    (rest : List Char) : quotedRun? quote (run ++ quote :: rest) = some run := by
  have htake : (run ++ quote :: rest).takeWhile (· ≠ quote) = run := by
    apply takeWhile_run
    · intro c hc
      have hne : c ≠ quote := fun heq => hfree (heq ▸ hc)
      simp [hne]
    · rintro _ ⟨⟩
      simp
  unfold quotedRun?
  dsimp only
  rw [htake, if_pos (by simp [hrun])]

/-- A run in quotes is a segment, whatever stands in it and behind it. -/
theorem segmentsFrom_quoted {quote : Char} (hquote : isQuote quote = true) {run : List Char}
    (hrun : run ≠ []) (hfree : quote ∉ run) (rest : List Char) :
    segmentsFrom 0 (quote :: (run ++ quote :: rest)) =
      segmentOfRun run :: segmentsFrom 0 rest := by
  have hskip : segmentsFrom (run.length + 1) (run ++ quote :: rest) = segmentsFrom 0 rest := by
    have h := segmentsFrom_skip (run ++ [quote]) rest
    rwa [List.length_append, List.append_assoc] at h
  rw [segmentsFrom, if_neg (not_isSeparator_of_isQuote hquote), if_pos hquote]
  simp only [quotedRun?_append hrun hfree rest]
  rw [hskip]

/-- A run without quotes is a segment as it stands. -/
theorem segmentOfRun_of_unquoted {run : List Char} (h : ∀ c ∈ run, isQuote c = false) :
    segmentOfRun run = String.ofList run := by
  rw [segmentOfRun, List.filter_eq_self.2 fun c hc => by rw [h c hc]; rfl]

/-! ## Parts -/

/-- A way to write a key. -/
inductive Spelling (key : String) where
  /-- As it is, if no separator is in it. -/
  | bare (unseparated : ∀ c ∈ key.toList, isSeparator c = false)
  /-- In quotes of one of the two kinds. -/
  | quoted (quote : Char) (isQuote : isQuote quote = true)

/-- A key that a path can lead along, and how it is written. -/
structure Part where
  /-- The key. -/
  key : String
  ne_empty : key.toList ≠ []
  unquoted : ∀ c ∈ key.toList, isQuote c = false
  /-- The way in which it is written. -/
  spelling : Spelling key

/-- The characters of a key. -/
def Part.chars (part : Part) : List Char :=
  match part.spelling with
  | .bare _ => part.key.toList
  | .quoted quote _ => quote :: (part.key.toList ++ [quote])

/-- What ties a part to the one before. -/
inductive Joint where
  /-- A dot in front. -/
  | dot
  /-- Brackets around it. -/
  | brackets
  deriving DecidableEq, Repr

/-- The characters of a part with its joint. -/
def Joint.attach : Joint → List Char → List Char
  | .dot, cs => '.' :: cs
  | .brackets, cs => '[' :: (cs ++ [']'])

/-- The characters of parts with their joints. -/
def attachAll (parts : List (Joint × Part)) : List Char :=
  parts.flatMap fun (joint, part) => joint.attach part.chars

/-- The text of a path.  Its first part may stand there without a joint. -/
def writeParts (first? : Option Part) (parts : List (Joint × Part)) : String :=
  String.ofList (first?.toList.flatMap Part.chars ++ attachAll parts)

/-! ## Parts are read back -/

/-- A separator ends a key that is written as it is. -/
theorem isBare_of_isSeparator {c : Char} (h : isSeparator c = true) : isBare c = false := by
  rw [isBare, h, Bool.not_true, Bool.false_and]

/-- A part is read back if a separator follows, or nothing. -/
theorem segmentsFrom_part (part : Part) {rest : List Char}
    (hrest : ∀ c ∈ rest.head?, isSeparator c = true) :
    segmentsFrom 0 (part.chars ++ rest) = part.key :: segmentsFrom 0 rest := by
  obtain ⟨key, hne, hunquoted, spelling⟩ := part
  cases spelling with
  | bare hunseparated =>
    have hbare : ∀ c ∈ key.toList, isBare c = true := fun c hc =>
      isBare_iff.2 ⟨hunseparated c hc, hunquoted c hc⟩
    show segmentsFrom 0 (key.toList ++ rest) = key :: segmentsFrom 0 rest
    rw [segmentsFrom_bare hne hbare fun c hc => isBare_of_isSeparator (hrest c hc),
      String.ofList_toList]
  | quoted quote hquote =>
    have hfree : quote ∉ key.toList := by
      intro hmem
      rw [hunquoted quote hmem] at hquote
      cases hquote
    show segmentsFrom 0 (quote :: (key.toList ++ [quote]) ++ rest) = key :: segmentsFrom 0 rest
    rw [List.cons_append, List.append_assoc, List.singleton_append,
      segmentsFrom_quoted hquote hne hfree, segmentOfRun_of_unquoted hunquoted,
      String.ofList_toList]

/-- Every joint starts with a separator. -/
theorem isSeparator_of_mem_head?_attachAll {parts : List (Joint × Part)} {c : Char}
    (h : c ∈ (attachAll parts).head?) : isSeparator c = true := by
  cases parts with
  | nil => cases h
  | cons part parts =>
    obtain ⟨joint, part⟩ := part
    cases joint <;> cases h <;> decide

/-- A part is read back with either joint. -/
theorem segmentsFrom_attach (joint : Joint) (part : Part) {rest : List Char}
    (hrest : ∀ c ∈ rest.head?, isSeparator c = true) :
    segmentsFrom 0 (joint.attach part.chars ++ rest) = part.key :: segmentsFrom 0 rest := by
  cases joint with
  | dot =>
    rw [Joint.attach, List.cons_append, segmentsFrom_separator (by decide),
      segmentsFrom_part part hrest]
  | brackets =>
    have hclose : ∀ c ∈ (']' :: rest).head?, isSeparator c = true := by
      rintro _ ⟨⟩
      decide
    rw [Joint.attach, List.cons_append, segmentsFrom_separator (by decide), List.append_assoc,
      List.singleton_append, segmentsFrom_part part hclose, segmentsFrom_separator (by decide)]

theorem segmentsFrom_attachAll (parts : List (Joint × Part)) :
    segmentsFrom 0 (attachAll parts) = parts.map (·.2.key) := by
  induction parts with
  | nil => rfl
  | cons part parts ih =>
    rw [attachAll, List.flatMap_cons, ← attachAll,
      segmentsFrom_attach part.1 part.2 fun c => isSeparator_of_mem_head?_attachAll, ih,
      List.map_cons]

/-- Keys are read back from every path that they are written as: each of them as it is or in
quotes of either kind, and each with a dot in front or with brackets around it, the first also
with neither. -/
theorem segments_writeParts (first? : Option Part) (parts : List (Joint × Part)) :
    segments (writeParts first? parts) =
      first?.toList.map Part.key ++ parts.map (·.2.key) := by
  rw [segments, writeParts, String.toList_ofList]
  cases first? with
  | none => exact segmentsFrom_attachAll parts
  | some first =>
    have hfirst := segmentsFrom_part first fun c => @isSeparator_of_mem_head?_attachAll parts c
    rw [Option.toList_some, List.flatMap_singleton, hfirst, segmentsFrom_attachAll]
    rfl

/-- Joints and spellings in any mixture. -/
example : segments "['x.y'].\"[0]\"[b].c" = ["x.y", "[0]", "b", "c"] := by decide

end DataExpr.Path
