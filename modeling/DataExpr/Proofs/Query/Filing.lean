import DataExpr.Proofs.Query.Insertion
import DataExpr.Proofs.Value.Contents
import Mathlib.Data.List.Induction

/-!
# Filing a value keeps all values

However a value is filed in entries, they gain its contents and lose none
(`Files`).  That is one lemma for each way of filing: under a key (`files_collect`),
along a path (`files_of_insertPath?`), and as the settings say (`files_fileValue`).
-/

namespace DataExpr.Query

open Value (entryContents optionContents itemContents)

/-- The entries after are those before with the value somewhere among them. -/
structure Files (value : Value) (before after : Entries Value) : Prop where
  wellFormed : (Value.mapping before).WellFormed → (Value.mapping after).WellFormed
  contents : (entryContents after).Perm (entryContents before ++ value.contents)

/-- A value is filed by changing what is under one key. -/
theorem files_alter {value : Value} {f : Option Value → Value} {entries : Entries Value}
    {key : String}
    (hwellFormed : (Value.mapping entries).WellFormed → (f (Entries.get? entries key)).WellFormed)
    (hcontents : (f (Entries.get? entries key)).contents.Perm
      (optionContents (Entries.get? entries key) ++ value.contents)) :
    Files value entries (Entries.alter f entries key) where
  wellFormed h := h.alter (hwellFormed h)
  contents := Value.entryContents_alter_perm f entries key _ hcontents

theorem files_collect {value : Value} (hvalue : value.WellFormed) (asList : Bool)
    (entries : Entries Value) (key : String) :
    Files value entries (collect asList entries key value) := by
  apply files_alter
  · intro h
    rcases hget : Entries.get? entries key with _ | first
    · cases asList
      · exact hvalue
      · exact ⟨hvalue, trivial⟩
    have hfirst : first.WellFormed := h.get? hget
    cases first with
    | sequence items =>
      show Value.itemsWellFormed (items ++ [value])
      rw [Value.itemsWellFormed_iff, List.forall_mem_append, List.forall_mem_singleton]
      exact ⟨(Value.itemsWellFormed_iff items).1 hfirst, hvalue⟩
    | _ => exact ⟨hfirst, hvalue, trivial⟩
  · rcases hget : Entries.get? entries key with _ | first
    · cases asList <;> simp [optionContents, Value.contents, itemContents]
    · cases first <;>
        simp [optionContents, Value.contents, itemContents, Value.itemContents_append]

theorem files_of_insertPath? {value : Value} (hvalue : value.WellFormed) {path : List String}
    {entries result : Entries Value} (h : insertPath? value path entries = some result) :
    Files value entries result := by
  induction path generalizing entries result with
  | nil => simp [insertPath?] at h
  | cons key path ih =>
    rcases insertPath?_cases h with ⟨asList, rfl⟩ | ⟨-, inner, further, hinner, hfurther, rfl⟩
    · exact files_collect hvalue asList entries key
    have hfiles := ih hfurther
    cases hinner with
    | new hget =>
      refine files_alter (fun _ => hfiles.wellFormed Value.wellFormed_mapping_nil) ?_
      rw [hget]
      exact hfiles.contents
    | mapping hget =>
      refine files_alter (fun hentries => hfiles.wellFormed (hentries.get? hget)) ?_
      rw [hget]
      exact hfiles.contents

theorem files_fileValue {value : Value} (hvalue : value.WellFormed) (config : QueryConfig)
    (entries : Entries Value) (key : String) :
    Files value entries (fileValue config entries key value).value := by
  rw [fileValue, Logged.value_bind]
  split
  · exact files_collect hvalue false entries key
  · split
    · rename_i hinsert
      exact files_of_insertPath? hvalue hinsert
    · exact files_collect hvalue false entries key

/-! ## One after the other -/

/-- Files values along their paths, one after the other. -/
def fileAll (leaves : List (List String × Value)) : Option (Entries Value) :=
  leaves.foldlM (fun entries leaf => insertPath? leaf.2 leaf.1 entries) []

theorem fileAll_concat (leaves : List (List String × Value)) (leaf : List String × Value) :
    fileAll (leaves ++ [leaf]) = (fileAll leaves).bind (insertPath? leaf.2 leaf.1) := by
  rw [fileAll, List.foldlM_append]
  simp [fileAll]

theorem wellFormed_fileAll {leaves : List (List String × Value)}
    (h : ∀ leaf ∈ leaves, leaf.2.WellFormed) {entries : Entries Value}
    (hfile : fileAll leaves = some entries) : (Value.mapping entries).WellFormed := by
  induction leaves using List.reverseRecOn generalizing entries with
  | nil =>
    obtain rfl : [] = entries := Option.some.inj hfile
    exact Value.wellFormed_mapping_nil
  | append_singleton leaves leaf ih =>
    rw [List.forall_mem_append, List.forall_mem_singleton] at h
    rw [fileAll_concat, Option.bind_eq_some_iff] at hfile
    obtain ⟨before, hbefore, hinsert⟩ := hfile
    exact (files_of_insertPath? h.2 hinsert).wellFormed (ih h.1 hbefore)

end DataExpr.Query
