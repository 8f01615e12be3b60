import DataExpr.Proofs.Path.Writing
import DataExpr.Proofs.Syntax.Words

/-!
# Texts of paths

A path that is both a plain path and an expression: a name, and behind it any number of
steps `.name`, `[position]` and `['key']` (`Path.write`).  Splitting such a text at dots
and brackets gives the name and the keys of the steps back (`segments_write`).
-/

namespace DataExpr

/-- The text can stand in quotes of either kind as it is. -/
structure IsPlainKey (key : String) : Prop where
  ne_empty : key.toList ≠ []
  notDouble : '"' ∉ key.toList
  notSingle : '\'' ∉ key.toList
  notBackslash : '\\' ∉ key.toList
  notLineEnd : '\n' ∉ key.toList

theorem IsPlainKey.isQuote_eq_false {key : String} (h : IsPlainKey key) :
    ∀ c ∈ key.toList, Path.isQuote c = false := by
  intro c hc
  rw [Bool.eq_false_iff]
  intro hquote
  simp only [Path.isQuote, Bool.or_eq_true, beq_iff_eq] at hquote
  rcases hquote with rfl | rfl
  · exact h.notDouble hc
  · exact h.notSingle hc

namespace Path

/-- A step of a path, as it is written. -/
inductive Step where
  /-- The step `.text`. -/
  | name (text : String) (shaped : IsNameShaped text)
  /-- The step `[i]`. -/
  | position (i : Nat) (exact : i < Decimal.exactLimit)
  /-- The step `['key']`, with quotes of one of the two kinds.  The key is the usual
  spelling of a number or none that is read as a position. -/
  | quoted (quote : Char) (key : String) (isQuote : isQuote quote = true)
      (plain : IsPlainKey key)
      (canonical : (∃ i, key = Nat.repr i) ∨ Decimal.readPosition? key = none)

namespace Step

/-- The key that a step leads to. -/
def key : Step → String
  | .name text _ => text
  | .position i _ => Nat.repr i
  | .quoted _ key _ _ _ => key

/-- The characters of a step. -/
def chars : Step → List Char
  | .name text _ => '.' :: text.toList
  | .position i _ => '[' :: ((Nat.repr i).toList ++ [']'])
  | .quoted quote key _ _ _ => '[' :: quote :: (key.toList ++ [quote, ']'])

end Step

/-- The text of a path. -/
def write (head : String) (steps : List Step) : String :=
  String.ofList (head.toList ++ steps.flatMap Step.chars)

/-! ## Characters -/

/-- Neither separators nor quotes are parts of names. -/
theorem isBare_of_isNamePart {c : Char} (h : isNamePart c = true) : isBare c = true := by
  rw [← Bool.not_eq_false]
  intro hbare
  simp only [isBare, isSeparator, isQuote, Bool.and_eq_false_iff, Bool.not_eq_false',
    Bool.or_eq_true, beq_iff_eq] at hbare
  rcases hbare with ((rfl | rfl) | rfl) | rfl | rfl <;>
    (rw [isNamePart, isNameStart_of_ascii (by decide)] at h; exact absurd h (by decide))

theorem isBare_of_isNameShaped {text : String} (h : IsNameShaped text) :
    ∀ c ∈ text.toList, isBare c = true := by
  obtain ⟨c, cs, hchars, hstart, hparts⟩ := h.exists_chars
  have hpart : isNamePart c = true := by rw [isNamePart, hstart, Bool.true_or]
  rw [hchars, List.forall_mem_cons]
  exact ⟨isBare_of_isNamePart hpart, fun d hd => isBare_of_isNamePart (hparts d hd)⟩

theorem isBare_of_mem_repr {i : Nat} {c : Char} (h : c ∈ (Nat.repr i).toList) :
    isBare c = true := by
  rw [Nat.toList_repr] at h
  have hdigit : c.isDigit = true := Nat.isDigit_of_mem_toDigits (by decide) (by decide) h
  apply isBare_of_isNamePart
  rw [isNamePart, hdigit, Bool.or_true]

/-! ## Steps as parts -/

/-- A key of bare characters, written as it is. -/
def barePart (key : String) (ne_empty : key.toList ≠ [])
    (bare : ∀ c ∈ key.toList, isBare c = true) : Part where
  key := key
  ne_empty := ne_empty
  unquoted c hc := (isBare_iff.1 (bare c hc)).2
  spelling := .bare fun c hc => (isBare_iff.1 (bare c hc)).1

/-- A name, written as it is. -/
def namePart (text : String) (shaped : IsNameShaped text) : Part :=
  barePart text
    (by obtain ⟨c, cs, hchars, -⟩ := shaped.exists_chars; rw [hchars]; exact List.cons_ne_nil c cs)
    (isBare_of_isNameShaped shaped)

namespace Step

/-- What ties a step to the text before it. -/
def joint : Step → Joint
  | .name _ _ => .dot
  | .position _ _ | .quoted _ _ _ _ _ => .brackets

/-- The key of a step, as it is written there. -/
def part : Step → Part
  | .name text shaped => namePart text shaped
  | .position i _ =>
      barePart (Nat.repr i) (by rw [Nat.toList_repr]; exact Nat.toDigits_ne_nil)
        (fun _ hc => isBare_of_mem_repr hc)
  | .quoted quote key isQuote plain _ =>
      ⟨key, plain.ne_empty, plain.isQuote_eq_false, .quoted quote isQuote⟩

theorem chars_eq (step : Step) : step.chars = step.joint.attach step.part.chars := by
  cases step with
  | name text shaped => rfl
  | position i => rfl
  | quoted quote key =>
    show '[' :: quote :: (key.toList ++ [quote, ']']) =
      '[' :: (quote :: (key.toList ++ [quote]) ++ [']'])
    rw [List.cons_append, List.append_assoc, List.singleton_append]

theorem key_part (step : Step) : step.part.key = step.key := by
  cases step <;> rfl

end Step

theorem flatMap_chars_eq (steps : List Step) :
    steps.flatMap Step.chars = attachAll (steps.map fun step => (step.joint, step.part)) := by
  rw [attachAll, List.flatMap_map, funext Step.chars_eq]

/-- The steps of a path start with separators. -/
theorem isSeparator_of_mem_head? {steps : List Step} {c : Char}
    (h : c ∈ (steps.flatMap Step.chars).head?) : isSeparator c = true := by
  rw [flatMap_chars_eq] at h
  exact isSeparator_of_mem_head?_attachAll h

/-- A path is split into its name and the keys of its steps. -/
theorem segments_write {head : String} (h : IsNameShaped head) (steps : List Step) :
    segments (write head steps) = head :: steps.map Step.key := by
  have hhead := segmentsFrom_part (namePart head h) fun c => @isSeparator_of_mem_head? steps c
  have hkeys : (steps.map fun step => (step.joint, step.part)).map (·.2.key) =
      steps.map Step.key := by
    rw [List.map_map]
    exact List.map_congr_left fun step _ => step.key_part
  rw [flatMap_chars_eq, segmentsFrom_attachAll, hkeys, ← flatMap_chars_eq] at hhead
  rw [segments, write, String.toList_ofList]
  exact hhead

end Path

end DataExpr
