import DataExpr.Value.Basic
import Mathlib.Data.List.Perm.Basic

/-!
# What a value contains

`Value.contents` are the values inside a value that are no containers.  What is filed
in a mapping adds its contents to those of the mapping (`entryContents_alter_perm`),
and the mapping stays well-formed (`Value.WellFormed.alter`).
-/

namespace DataExpr

namespace Value

mutual

/-- What a value contains besides containers, from left to right.  A value that is no
container contains itself. -/
def contents : Value → List Value
  | .sequence items => itemContents items
  | .mapping entries => entryContents entries
  | value => [value]

/-- The contents of all items. -/
def itemContents : List Value → List Value
  | [] => []
  | item :: items => item.contents ++ itemContents items

/-- The contents of all values of entries. -/
def entryContents : List (String × Value) → List Value
  | [] => []
  | (_, item) :: entries => item.contents ++ entryContents entries

end

theorem itemContents_eq_flatMap (items : List Value) :
    itemContents items = items.flatMap contents := by
  induction items with
  | nil => rfl
  | cons item items ih => rw [itemContents, ih, List.flatMap_cons]

theorem entryContents_eq_itemContents (entries : Entries Value) :
    entryContents entries = itemContents (Entries.values entries) := by
  induction entries with
  | nil => rfl
  | cons entry entries ih =>
    obtain ⟨key, item⟩ := entry
    rw [entryContents, ih]
    rfl

theorem itemContents_append (items others : List Value) :
    itemContents (items ++ others) = itemContents items ++ itemContents others := by
  simp only [itemContents_eq_flatMap, List.flatMap_append]

/-- The order of items is the order of their contents. -/
theorem itemContents_perm {items others : List Value} (h : items.Perm others) :
    (itemContents items).Perm (itemContents others) := by
  simp only [itemContents_eq_flatMap]
  exact h.flatMap_right _

/-- The contents of what is under a key, if there is something. -/
def optionContents : Option Value → List Value
  | none => []
  | some value => value.contents

/-- If changing what is under a key adds contents to it, these are added to the entries. -/
theorem entryContents_alter_perm (f : Option Value → Value) (entries : Entries Value) (key : String)
    (added : List Value)
    (h : (f (Entries.get? entries key)).contents.Perm
      (optionContents (Entries.get? entries key) ++ added)) :
    (entryContents (Entries.alter f entries key)).Perm (entryContents entries ++ added) := by
  induction entries with
  | nil => simpa [Entries.alter, entryContents, optionContents] using h
  | cons entry entries ih =>
    obtain ⟨name, item⟩ := entry
    by_cases hname : name = key
    · simp only [Entries.get?_cons, hname, if_true, optionContents] at h
      simp only [Entries.alter, hname, if_true, entryContents]
      refine (h.append_right _).trans ?_
      rw [List.append_assoc, List.append_assoc]
      exact List.perm_append_comm.append_left _
    · simp only [Entries.get?_cons, hname, if_false] at h
      simp only [Entries.alter, hname, if_false, entryContents, List.append_assoc]
      exact (ih h).append_left _

/-! ## Well-formed mappings -/

theorem entriesWellFormed_iff (entries : Entries Value) :
    entriesWellFormed entries ↔ ∀ entry ∈ entries, entry.2.WellFormed := by
  induction entries with
  | nil => simp [entriesWellFormed]
  | cons entry entries ih =>
    obtain ⟨key, item⟩ := entry
    rw [entriesWellFormed, ih, List.forall_mem_cons]

theorem itemsWellFormed_iff (items : List Value) :
    itemsWellFormed items ↔ ∀ item ∈ items, item.WellFormed := by
  induction items with
  | nil => simp [itemsWellFormed]
  | cons item items ih => rw [itemsWellFormed, ih, List.forall_mem_cons]

theorem wellFormed_mapping_nil : (Value.mapping []).WellFormed :=
  ⟨List.nodup_nil, trivial⟩

/-- What is under a key of a well-formed mapping is well-formed. -/
theorem WellFormed.get? {entries : Entries Value} (h : (Value.mapping entries).WellFormed)
    {key : String} {value : Value} (hget : Entries.get? entries key = some value) :
    value.WellFormed := by
  obtain ⟨-, h⟩ := h
  induction entries with
  | nil => simp at hget
  | cons entry entries ih =>
    obtain ⟨name, item⟩ := entry
    rw [Entries.get?_cons] at hget
    split at hget
    · obtain rfl : item = value := Option.some.inj hget
      exact h.1
    · exact ih hget h.2

/-- A well-formed value may replace what is under a key. -/
theorem WellFormed.alter {f : Option Value → Value} {entries : Entries Value} {key : String}
    (h : (Value.mapping entries).WellFormed)
    (hf : (f (Entries.get? entries key)).WellFormed) :
    (Value.mapping (Entries.alter f entries key)).WellFormed := by
  refine ⟨h.1.alter f key, ?_⟩
  obtain ⟨-, h⟩ := h
  induction entries with
  | nil => exact ⟨hf, trivial⟩
  | cons entry entries ih =>
    obtain ⟨name, item⟩ := entry
    by_cases hname : name = key
    · simp only [Entries.get?_cons, hname, if_true] at hf
      simp only [Entries.alter, hname, if_true]
      exact ⟨hf, h.2⟩
    · simp only [Entries.get?_cons, hname, if_false] at hf
      simp only [Entries.alter, hname, if_false]
      exact ⟨h.1, ih hf h.2⟩

end Value

end DataExpr
