import DataExpr.Proofs.Value.Contents
import DataExpr.Proofs.Value.Lookup
import DataExpr.Query.Decoding
import Mathlib.Data.List.Nodup
import Mathlib.Data.List.Perm.Subperm

/-!
# Mappings that count from zero

`inIndexOrder?` finds values under the decimal numbers from zero on, as many as there
are entries (`inIndexOrder?_eq_some_iff`).  These are all of the entries
(`indexed_perm_of_inIndexOrder?`), so that turning such mappings into sequences keeps
the contents of a value (`contents_sequenceIndexed_perm`) and leaves it well-formed
(`wellFormed_sequenceIndexed`).
-/

namespace DataExpr.Query

open Value (entryContents itemContents)

theorem repr_injective : Function.Injective Nat.repr := by
  intro n m h
  have hdigits : Nat.toDigits 10 n = Nat.toDigits 10 m := by
    rw [← Nat.toList_repr, ← Nat.toList_repr, h]
  rw [← @Nat.ofDigitChars_ten_toDigits n, ← @Nat.ofDigitChars_ten_toDigits m, hdigits]

/-- Looking up one thing after another finds all of them or nothing. -/
theorem mapM_eq_some_iff {α β : Type} (f : α → Option β) (inputs : List α) (outputs : List β) :
    inputs.mapM f = some outputs ↔ List.Forall₂ (fun a b => f a = some b) inputs outputs := by
  induction inputs generalizing outputs with
  | nil =>
    rw [List.mapM_nil, List.forall₂_nil_left_iff]
    exact ⟨fun h => (Option.some.inj h).symm, fun h => congrArg some h.symm⟩
  | cons a inputs ih =>
    rw [List.mapM_cons, List.forall₂_cons_left_iff]
    simp only [Option.bind_eq_bind, Option.bind_eq_some_iff, Option.pure_def, Option.some.injEq, ih]
    constructor
    · rintro ⟨b, hb, rest, hrest, rfl⟩
      exact ⟨b, rest, hb, hrest, rfl⟩
    · rintro ⟨b, rest, hb, hrest, rfl⟩
      exact ⟨b, hb, rest, hrest, rfl⟩

/-- The items in the order of indices are those under the decimal numbers. -/
theorem inIndexOrder?_eq_some_iff (entries : Entries Value) (items : List Value) :
    inIndexOrder? entries = some items ↔
      entries ≠ [] ∧ List.Forall₂ (fun i item => Entries.get? entries (Nat.repr i) = some item)
        (List.range entries.length) items := by
  rw [inIndexOrder?, ← mapM_eq_some_iff]
  split
  · rename_i hempty
    simp [List.isEmpty_iff.1 hempty]
  · rename_i hempty
    simp [List.isEmpty_iff.not.1 hempty]

/-- Items with their indices. -/
def indexed (items : List Value) : Entries Value :=
  ((List.range items.length).map Nat.repr).zip items

theorem keys_indexed (items : List Value) :
    Entries.keys (indexed items) = (List.range items.length).map Nat.repr :=
  List.map_fst_zip (by simp)

theorem values_indexed (items : List Value) : Entries.values (indexed items) = items :=
  List.map_snd_zip (by simp)

/-- Every entry has its index.  The entries with an index are different ones, and they
are as many as all entries. -/
theorem indexed_perm_of_inIndexOrder? {entries : Entries Value} {items : List Value}
    (h : inIndexOrder? entries = some items) : (indexed items).Perm entries := by
  obtain ⟨-, hitems⟩ := (inIndexOrder?_eq_some_iff entries items).1 h
  have hlength : entries.length = items.length := by
    simpa using hitems.length_eq
  have hnodup : (indexed items).Nodup := by
    apply List.Nodup.of_map Prod.fst
    show (Entries.keys (indexed items)).Nodup
    rw [keys_indexed]
    exact List.nodup_range.map repr_injective
  have hsubset : indexed items ⊆ entries := by
    rintro ⟨key, item⟩ hmem
    simp only [indexed, List.zip_map_left, List.mem_map] at hmem
    obtain ⟨⟨i, item'⟩, hpair, heq⟩ := hmem
    obtain ⟨rfl, rfl⟩ : Nat.repr i = key ∧ item' = item := by simpa using heq
    rw [hlength] at hitems
    exact Entries.mem_of_get? (List.forall₂_iff_zip.1 hitems |>.2 hpair)
  exact (hnodup.subperm hsubset).perm_of_length_le (by simp [indexed, hlength])

theorem perm_values_of_inIndexOrder? {entries : Entries Value} {items : List Value}
    (h : inIndexOrder? entries = some items) : items.Perm (Entries.values entries) := by
  have hperm := (indexed_perm_of_inIndexOrder? h).map Prod.snd
  rwa [← Entries.values, values_indexed] at hperm

theorem keys_perm_of_inIndexOrder? {entries : Entries Value} {items : List Value}
    (h : inIndexOrder? entries = some items) :
    (Entries.keys entries).Perm ((List.range entries.length).map Nat.repr) := by
  have hperm := indexed_perm_of_inIndexOrder? h
  have hkeys := (hperm.map Prod.fst).symm
  rw [← Entries.keys, ← Entries.keys, keys_indexed] at hkeys
  have hlength : items.length = entries.length := by
    simpa [indexed] using hperm.length_eq
  rwa [← hlength]

theorem mapM_option_map {α β γ : Type} (f : α → Option β) (g : β → γ) (inputs : List α) :
    inputs.mapM (fun input => (f input).map g) = (inputs.mapM f).map (List.map g) := by
  induction inputs with
  | nil => rfl
  | cons input inputs ih =>
    rw [List.mapM_cons, List.mapM_cons, ih]
    cases f input with
    | none => rfl
    | some output => cases inputs.mapM f <;> rfl

/-- It is by their keys alone that entries have an order. -/
theorem inIndexOrder?_mapValues (g : Value → Value) (entries : Entries Value) :
    inIndexOrder? (Entries.mapValues g entries) = (inIndexOrder? entries).map (List.map g) := by
  rw [inIndexOrder?, inIndexOrder?]
  simp only [Entries.get?_mapValues, mapM_option_map]
  cases entries with
  | nil => rfl
  | cons entry entries => simp [Entries.mapValues]

/-! ## Contents -/

mutual

/-- Turning mappings into sequences keeps what they contain. -/
theorem contents_sequenceIndexed_perm (value : Value) :
    (sequenceIndexed value).contents.Perm value.contents := by
  match value with
  | .mapping entries =>
    rw [sequenceIndexed]
    split
    · rename_i items hitems
      rw [Value.contents, Value.contents]
      refine (Value.itemContents_perm (perm_values_of_inIndexOrder? hitems)).trans ?_
      rw [← Value.entryContents_eq_itemContents]
      exact entryContents_sequenceIndexedEntries_perm entries
    · exact entryContents_sequenceIndexedEntries_perm entries
  | .sequence items => exact itemContents_sequenceIndexedItems_perm items
  | .null | .bool _ | .number _ | .text _ | .date _ | .pattern _ => exact List.Perm.refl _

theorem itemContents_sequenceIndexedItems_perm (items : List Value) :
    (itemContents (sequenceIndexedItems items)).Perm (itemContents items) := by
  match items with
  | [] => exact List.Perm.refl _
  | item :: items =>
    exact (contents_sequenceIndexed_perm item).append (itemContents_sequenceIndexedItems_perm items)

theorem entryContents_sequenceIndexedEntries_perm (entries : List (String × Value)) :
    (entryContents (sequenceIndexedEntries entries)).Perm (entryContents entries) := by
  match entries with
  | [] => exact List.Perm.refl _
  | (_, item) :: entries =>
    exact (contents_sequenceIndexed_perm item).append
      (entryContents_sequenceIndexedEntries_perm entries)

end

/-! ## Well-formedness -/

theorem sequenceIndexedItems_eq (items : List Value) :
    sequenceIndexedItems items = items.map sequenceIndexed := by
  induction items with
  | nil => rfl
  | cons item items ih => rw [sequenceIndexedItems, ih, List.map_cons]

theorem sequenceIndexedEntries_eq (entries : Entries Value) :
    sequenceIndexedEntries entries = Entries.mapValues sequenceIndexed entries := by
  induction entries with
  | nil => rfl
  | cons entry entries ih =>
    obtain ⟨key, item⟩ := entry
    rw [sequenceIndexedEntries, ih, Entries.mapValues_cons]

theorem keys_sequenceIndexedEntries (entries : Entries Value) :
    Entries.keys (sequenceIndexedEntries entries) = Entries.keys entries := by
  rw [sequenceIndexedEntries_eq, Entries.keys_mapValues]

theorem length_sequenceIndexedEntries (entries : Entries Value) :
    (sequenceIndexedEntries entries).length = entries.length := by
  rw [sequenceIndexedEntries_eq]
  exact List.length_map _

/-- The values of a well-formed mapping are well-formed in any order. -/
theorem itemsWellFormed_of_perm {entries : Entries Value} {items : List Value}
    (hperm : items.Perm (Entries.values entries)) (h : Value.entriesWellFormed entries) :
    Value.itemsWellFormed items := by
  rw [Value.itemsWellFormed_iff]
  intro item hitem
  obtain ⟨entry, hentry, rfl⟩ := List.mem_map.1 (hperm.mem_iff.1 hitem)
  exact (Value.entriesWellFormed_iff entries).1 h entry hentry

mutual

theorem wellFormed_sequenceIndexed {value : Value} (h : value.WellFormed) :
    (sequenceIndexed value).WellFormed := by
  match value with
  | .mapping entries =>
    have hentries := entriesWellFormed_sequenceIndexedEntries h.2
    rw [sequenceIndexed]
    split
    · rename_i items hitems
      exact itemsWellFormed_of_perm (perm_values_of_inIndexOrder? hitems) hentries
    · refine ⟨?_, hentries⟩
      rw [Entries.Unique, keys_sequenceIndexedEntries]
      exact h.1
  | .sequence items => exact itemsWellFormed_sequenceIndexedItems h
  | .null | .bool _ | .number _ | .text _ | .date _ | .pattern _ => trivial

theorem itemsWellFormed_sequenceIndexedItems {items : List Value}
    (h : Value.itemsWellFormed items) : Value.itemsWellFormed (sequenceIndexedItems items) := by
  match items with
  | [] => trivial
  | item :: items =>
    exact ⟨wellFormed_sequenceIndexed h.1, itemsWellFormed_sequenceIndexedItems h.2⟩

theorem entriesWellFormed_sequenceIndexedEntries {entries : List (String × Value)}
    (h : Value.entriesWellFormed entries) :
    Value.entriesWellFormed (sequenceIndexedEntries entries) := by
  match entries with
  | [] => trivial
  | (_, item) :: entries =>
    exact ⟨wellFormed_sequenceIndexed h.1, entriesWellFormed_sequenceIndexedEntries h.2⟩

end

end DataExpr.Query
