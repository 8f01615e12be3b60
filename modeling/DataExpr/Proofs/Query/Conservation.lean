import DataExpr.Proofs.Query.Filing
import DataExpr.Proofs.Query.Indexed
import Mathlib.Data.List.Induction

/-!
# Reading a query keeps all values

Every part of a query with a key leaves its value somewhere, once, and nothing else
is left (`entryContents_decode_perm`).  A part files its value in what the parts before
it made (`decodeParts_concat`), and the final pass over indices only moves
values.
-/

namespace DataExpr

theorem Logged.value_foldlM {α β : Type} (f : β → α → Logged β) (start : β) (inputs : List α) :
    (inputs.foldlM f start).value =
      inputs.foldl (fun state input => (f state input).value) start := by
  induction inputs generalizing start with
  | nil => rfl
  | cons input inputs ih => rw [List.foldlM_cons, Logged.value_bind, ih, List.foldl_cons]

namespace Query

open Value (entryContents)

/-- The key of a part of a query. -/
def partKey (part : List Char) : String :=
  (unescape (Text.cutAt '=' part).1).value

/-- The value that a part of a query carries. -/
def partValue (config : QueryConfig) (part : List Char) : Value :=
  (TypedText.infer config (unescape (Text.cutAt '=' part).2).value).toValue

/-- The values of the parts that have a key. -/
def keptValues (config : QueryConfig) (parts : List (List Char)) : List Value :=
  (parts.filter fun part => partKey part ≠ "").map (partValue config)

/-- What is filed when parts are read one after another. -/
def decodeParts (config : QueryConfig) (parts : List (List Char)) : Entries Value :=
  parts.foldl (fun entries part => (addPart config entries part).value) []

theorem value_decode (config : QueryConfig) (query : String) :
    (decode config query).value =
      if config.nestedKeys then sequenceIndexedEntries (decodeParts config (splitParts query))
      else decodeParts config (splitParts query) := by
  rw [decode, Logged.value_bind, Logged.value_foldlM]
  rfl

theorem decodeParts_concat (config : QueryConfig) (parts : List (List Char)) (part : List Char) :
    decodeParts config (parts ++ [part]) =
      (addPart config (decodeParts config parts) part).value := by
  rw [decodeParts, List.foldl_append]
  rfl

/-! ## One part -/

theorem value_readKey (config : QueryConfig) (key : String) :
    (readKey config key).value =
      if config.nestedKeys then keyPath? config.maxDepth key else none := by
  rw [readKey]
  generalize (if config.nestedKeys then keyPath? config.maxDepth key else none) = path?
  dsimp only
  split <;> rfl

theorem value_addPart (config : QueryConfig) (entries : Entries Value) (part : List Char) :
    (addPart config entries part).value =
      if partKey part = "" then entries
      else (fileValue config entries (partKey part) (partValue config part)).value := by
  have hempty : ((unescape (Text.cutAt '=' part).1).value.isEmpty = true) ↔ partKey part = "" :=
    String.isEmpty_iff
  simp only [addPart, Logged.value_bind, hempty]
  split
  · split <;> rfl
  · rfl

/-- A typed text contains itself. -/
theorem contents_toValue (typed : TypedText) : typed.toValue.contents = [typed.toValue] := by
  cases typed <;> rfl

theorem wellFormed_toValue (typed : TypedText) : typed.toValue.WellFormed := by
  cases typed <;> trivial

/-- A part with a key files its value. -/
theorem files_addPart {config : QueryConfig} {part : List Char} (hkey : partKey part ≠ "")
    (entries : Entries Value) :
    Files (partValue config part) entries (addPart config entries part).value := by
  rw [value_addPart, if_neg hkey]
  exact files_fileValue (wellFormed_toValue _) config entries _

/-! ## All parts -/

theorem wellFormed_decodeParts (config : QueryConfig) (parts : List (List Char)) :
    (Value.mapping (decodeParts config parts)).WellFormed := by
  induction parts using List.reverseRecOn with
  | nil => exact Value.wellFormed_mapping_nil
  | append_singleton parts part ih =>
    rw [decodeParts_concat]
    by_cases hkey : partKey part = ""
    · rwa [value_addPart, if_pos hkey]
    · exact (files_addPart hkey _).wellFormed ih

theorem entryContents_decodeParts_perm (config : QueryConfig) (parts : List (List Char)) :
    (entryContents (decodeParts config parts)).Perm (keptValues config parts) := by
  induction parts using List.reverseRecOn with
  | nil => exact List.Perm.refl _
  | append_singleton parts part ih =>
    rw [decodeParts_concat]
    by_cases hkey : partKey part = ""
    · rw [value_addPart, if_pos hkey]
      simpa [keptValues, hkey] using ih
    · have hfiles : Files (partValue config part) (decodeParts config parts) _ :=
        files_addPart hkey _
      have hcontents := hfiles.contents
      have hvalue : (partValue config part).contents = [partValue config part] := contents_toValue _
      rw [hvalue] at hcontents
      refine hcontents.trans ?_
      simpa [keptValues, hkey] using ih.append_right [partValue config part]

/-- A decoded query has no key twice, at any depth. -/
theorem wellFormed_decode (config : QueryConfig) (query : String) :
    (Value.mapping (decode config query).value).WellFormed := by
  have h := wellFormed_decodeParts config (splitParts query)
  rw [value_decode]
  split
  · refine ⟨?_, entriesWellFormed_sequenceIndexedEntries h.2⟩
    rw [Entries.Unique, keys_sequenceIndexedEntries]
    exact h.1
  · exact h

/-- A decoded query contains exactly the values of the parts with a key, each as often
as it comes. -/
theorem entryContents_decode_perm (config : QueryConfig) (query : String) :
    (entryContents (decode config query).value).Perm
      (((splitParts query).filter fun part => partKey part ≠ "").map (partValue config)) := by
  rw [value_decode]
  split
  · exact (entryContents_sequenceIndexedEntries_perm _).trans (entryContents_decodeParts_perm _ _)
  · exact entryContents_decodeParts_perm _ _

end Query

end DataExpr
