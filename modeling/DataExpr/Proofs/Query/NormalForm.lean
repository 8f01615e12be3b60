import DataExpr.Proofs.Query.Indexed
import DataExpr.Value.Display

/-!
# The normal form of a mapping

What is left of a mapping that is written as a query and read again.  Scalars become
what their texts are taken for, null and containers without a scalar are left out, and
it is by its keys that a container inside is a sequence or a mapping.

* `Value.normalEntries` is the normal form.  It is an instance of `Value.rebuildEntries`,
  with which `sequenceIndexedEntries_rebuildEntries` compares the mappings before and
  after the pass over indices.
* `Value.ofEntries` says when entries are a sequence, in other words than the decoder
  (`inIndexOrder?_eq`).
* `Value.Stable` values are their own normal form (`normalEntries_of_stable`).
-/

namespace DataExpr

namespace Value

mutual

/-- Whether a value is or contains something that is no container and not null. -/
def holdsScalar : Value → Bool
  | .null => false
  | .sequence items => itemsHoldScalar items
  | .mapping entries => entriesHoldScalar entries
  | _ => true

/-- Whether one of the items does. -/
def itemsHoldScalar : List Value → Bool
  | [] => false
  | item :: items => item.holdsScalar || itemsHoldScalar items

/-- Whether one of the values of entries does. -/
def entriesHoldScalar : List (String × Value) → Bool
  | [] => false
  | (_, item) :: entries => item.holdsScalar || entriesHoldScalar entries

end

mutual

/-- The value with its scalars taken for what their texts are, and without parts that
hold no scalar.  A container is what `wrap` makes of its keys or positions and what is
under them. -/
def rebuild (wrap : Entries Value → Value) : Value → Value
  | .null => .null
  | .sequence items => wrap (rebuildItems wrap 0 items)
  | .mapping entries => wrap (rebuildEntries wrap entries)
  | scalar => typedValue scalar.display

/-- Does so for items, the first of which is at a position. -/
def rebuildItems (wrap : Entries Value → Value) (position : Nat) : List Value → Entries Value
  | [] => []
  | item :: items =>
      if item.holdsScalar then
        (Nat.repr position, item.rebuild wrap) :: rebuildItems wrap (position + 1) items
      else rebuildItems wrap (position + 1) items

/-- Does so for entries. -/
def rebuildEntries (wrap : Entries Value → Value) : List (String × Value) → Entries Value
  | [] => []
  | (key, item) :: entries =>
      if item.holdsScalar then (key, item.rebuild wrap) :: rebuildEntries wrap entries
      else rebuildEntries wrap entries

end

/-- The decimal numbers below a number. -/
def indices (length : Nat) : List String :=
  (List.range length).map Nat.repr

/-- A sequence, if the keys are the decimal numbers from zero on in any order, and a
mapping otherwise. -/
def ofEntries (entries : Entries Value) : Value :=
  if (Entries.keys entries).Perm (indices entries.length) then
    .sequence ((indices entries.length).filterMap (Entries.get? entries))
  else .mapping entries

/-- The normal form of a mapping. -/
def normalEntries (entries : Entries Value) : Entries Value :=
  rebuildEntries ofEntries entries

end Value

namespace Query

open Value (indices ofEntries)

/-! ## Sequences by their keys -/

/-- Nothing is found for an index that is no key. -/
theorem inIndexOrder?_eq {entries : Entries Value} (h : entries ≠ []) :
    inIndexOrder? entries =
      if (Entries.keys entries).Perm (indices entries.length) then
        some ((indices entries.length).filterMap (Entries.get? entries))
      else none := by
  split
  · rename_i hperm
    refine (inIndexOrder?_eq_some_iff _ _).2 ⟨h, ?_⟩
    have hmem : ∀ i ∈ List.range entries.length, (Entries.get? entries (Nat.repr i)).isSome := by
      intro i hi
      exact Entries.get?_isSome_iff.2 (hperm.mem_iff.2 (List.mem_map_of_mem hi))
    rw [indices]
    generalize List.range entries.length = positions at hmem
    induction positions with
    | nil => exact .nil
    | cons i positions ih =>
      rw [List.forall_mem_cons] at hmem
      obtain ⟨item, hitem⟩ := Option.isSome_iff_exists.1 hmem.1
      rw [List.map_cons, List.filterMap_cons_some hitem]
      exact .cons hitem (ih hmem.2)
  · rename_i hperm
    rw [Option.eq_none_iff_forall_ne_some]
    intro items hitems
    exact hperm (keys_perm_of_inIndexOrder? hitems)

theorem ofEntries_eq {entries : Entries Value} (h : entries ≠ []) :
    ofEntries entries =
      match inIndexOrder? entries with
      | some items => .sequence items
      | none => .mapping entries := by
  rw [ofEntries, inIndexOrder?_eq h]
  split <;> rfl

/-! ## The pass over indices -/

theorem sequenceIndexed_typedValue (text : String) :
    sequenceIndexed (typedValue text) = typedValue text := by
  rw [typedValue]
  cases TypedText.infer {} text <;> rfl

/-- Something is left of items exactly if they hold a scalar. -/
theorem rebuildItems_ne_nil (wrap : Entries Value → Value) {position : Nat} {items : List Value}
    (h : Value.itemsHoldScalar items) : Value.rebuildItems wrap position items ≠ [] := by
  induction items generalizing position with
  | nil => simp [Value.itemsHoldScalar] at h
  | cons item items ih =>
    rw [Value.rebuildItems]
    split
    · exact List.cons_ne_nil _ _
    · rename_i hitem
      exact ih (by simpa [Value.itemsHoldScalar, hitem] using h)

theorem rebuildEntries_ne_nil (wrap : Entries Value → Value) {entries : Entries Value}
    (h : Value.entriesHoldScalar entries) : Value.rebuildEntries wrap entries ≠ [] := by
  induction entries with
  | nil => simp [Value.entriesHoldScalar] at h
  | cons entry entries ih =>
    obtain ⟨key, item⟩ := entry
    rw [Value.rebuildEntries]
    split
    · exact List.cons_ne_nil _ _
    · rename_i hitem
      exact ih (by simpa [Value.entriesHoldScalar, hitem] using h)

theorem sequenceIndexed_mapping {entries : Entries Value}
    (h : sequenceIndexedEntries entries ≠ []) :
    sequenceIndexed (.mapping entries) = ofEntries (sequenceIndexedEntries entries) := by
  rcases horder : inIndexOrder? (sequenceIndexedEntries entries) with _ | items
  · simp only [sequenceIndexed, horder, ofEntries_eq h]
  · simp only [sequenceIndexed, horder, ofEntries_eq h]

mutual

/-- Rebuilt with mappings for all containers, a value that holds a scalar is brought to
its normal form by the pass over indices. -/
theorem sequenceIndexed_rebuild {value : Value} (h : value.holdsScalar) :
    sequenceIndexed (value.rebuild .mapping) = value.rebuild ofEntries := by
  match value with
  | .sequence items =>
    have hitems := sequenceIndexedEntries_rebuildItems 0 items
    have hne : Value.rebuildItems ofEntries 0 items ≠ [] := rebuildItems_ne_nil _ h
    rw [Value.rebuild, sequenceIndexed_mapping (by rwa [hitems]), hitems, Value.rebuild]
  | .mapping entries =>
    have hentries := sequenceIndexedEntries_rebuildEntries entries
    have hne : Value.rebuildEntries ofEntries entries ≠ [] := rebuildEntries_ne_nil _ h
    rw [Value.rebuild, sequenceIndexed_mapping (by rwa [hentries]), hentries, Value.rebuild]
  | .bool _ | .number _ | .text _ | .date _ | .pattern _ => exact sequenceIndexed_typedValue _

theorem sequenceIndexedEntries_rebuildItems (position : Nat) (items : List Value) :
    sequenceIndexedEntries (Value.rebuildItems .mapping position items) =
      Value.rebuildItems ofEntries position items := by
  match items with
  | [] => rfl
  | item :: items =>
    have hitems := sequenceIndexedEntries_rebuildItems (position + 1) items
    rw [Value.rebuildItems, Value.rebuildItems]
    split
    · rename_i hitem
      rw [sequenceIndexedEntries, sequenceIndexed_rebuild hitem, hitems]
    · exact hitems

theorem sequenceIndexedEntries_rebuildEntries (entries : List (String × Value)) :
    sequenceIndexedEntries (Value.rebuildEntries .mapping entries) =
      Value.rebuildEntries ofEntries entries := by
  match entries with
  | [] => rfl
  | (key, item) :: entries =>
    have hentries := sequenceIndexedEntries_rebuildEntries entries
    rw [Value.rebuildEntries, Value.rebuildEntries]
    split
    · rename_i hitem
      rw [sequenceIndexedEntries, sequenceIndexed_rebuild hitem, hentries]
    · exact hentries

end

end Query

/-! ## Values that are their own normal form -/

namespace Value

mutual

/-- The value has no null and no empty container, no mapping in it has the keys of a
sequence, and its scalars are what their texts are taken for. -/
def Stable : Value → Prop
  | .null => False
  | .sequence items => items ≠ [] ∧ itemsStable items
  | .mapping entries =>
      entries ≠ [] ∧ ¬ (Entries.keys entries).Perm (indices entries.length) ∧
        entriesStable entries
  | scalar => typedValue scalar.display = scalar

/-- All items are stable. -/
def itemsStable : List Value → Prop
  | [] => True
  | item :: items => item.Stable ∧ itemsStable items

/-- All values of entries are stable. -/
def entriesStable : List (String × Value) → Prop
  | [] => True
  | (_, item) :: entries => item.Stable ∧ entriesStable entries

end

end Value

namespace Query

open Value (indices ofEntries)

/-- Items with their positions, from one on. -/
def indexedFrom (position : Nat) (items : List Value) : Entries Value :=
  ((List.range' position items.length).map Nat.repr).zip items

theorem inIndexOrder?_indexed {items : List Value} (h : items ≠ []) :
    inIndexOrder? (indexed items) = some items := by
  have hlength : (indexed items).length = items.length := by simp [indexed]
  have hunique : Entries.Unique (indexed items) := by
    rw [Entries.Unique, keys_indexed]
    exact List.nodup_range.map repr_injective
  refine (inIndexOrder?_eq_some_iff _ _).2 ⟨?_, ?_⟩
  · rw [← List.length_pos_iff, hlength]
    exact List.length_pos_iff.2 h
  · rw [hlength, List.forall₂_iff_zip]
    refine ⟨by simp, fun {i item} hmem => Entries.get?_of_mem hunique ?_⟩
    simp only [indexed, List.zip_map_left, List.mem_map]
    exact ⟨(i, item), hmem, rfl⟩

theorem ofEntries_indexed {items : List Value} (h : items ≠ []) :
    ofEntries (indexed items) = .sequence items := by
  have horder := inIndexOrder?_indexed h
  have hne : indexed items ≠ [] := by
    intro hnil
    rw [hnil] at horder
    simp [inIndexOrder?] at horder
  rw [ofEntries_eq hne, horder]

mutual

theorem rebuild_of_stable {value : Value} (h : value.Stable) :
    value.holdsScalar ∧ value.rebuild ofEntries = value := by
  match value with
  | .null => exact h.elim
  | .sequence items =>
    obtain ⟨hhold, hitems⟩ := rebuildItems_of_stable 0 h.2
    refine ⟨hhold h.1, ?_⟩
    rw [Value.rebuild, hitems]
    have hindexed : indexedFrom 0 items = indexed items := by
      rw [indexedFrom, indexed, List.range_eq_range']
    rw [hindexed, ofEntries_indexed h.1]
  | .mapping entries =>
    obtain ⟨hhold, hentries⟩ := rebuildEntries_of_stable h.2.2
    refine ⟨hhold h.1, ?_⟩
    rw [Value.rebuild, hentries, ofEntries, if_neg h.2.1]
  | .bool _ | .number _ | .text _ | .date _ | .pattern _ => exact ⟨rfl, h⟩

theorem rebuildItems_of_stable (position : Nat) {items : List Value}
    (h : Value.itemsStable items) :
    (items ≠ [] → Value.itemsHoldScalar items) ∧
      Value.rebuildItems ofEntries position items = indexedFrom position items := by
  match items with
  | [] => exact ⟨fun hne => absurd rfl hne, rfl⟩
  | item :: items =>
    obtain ⟨hhold, hitem⟩ := rebuild_of_stable h.1
    obtain ⟨-, hitems⟩ := rebuildItems_of_stable (position + 1) h.2
    refine ⟨fun _ => by simp [Value.itemsHoldScalar, hhold], ?_⟩
    rw [Value.rebuildItems, if_pos hhold, hitem, hitems]
    rfl

theorem rebuildEntries_of_stable {entries : List (String × Value)}
    (h : Value.entriesStable entries) :
    (entries ≠ [] → Value.entriesHoldScalar entries) ∧
      Value.rebuildEntries ofEntries entries = entries := by
  match entries with
  | [] => exact ⟨fun hne => absurd rfl hne, rfl⟩
  | (key, item) :: entries =>
    obtain ⟨hhold, hitem⟩ := rebuild_of_stable h.1
    obtain ⟨-, hentries⟩ := rebuildEntries_of_stable h.2
    refine ⟨fun _ => by simp [Value.entriesHoldScalar, hhold], ?_⟩
    rw [Value.rebuildEntries, if_pos hhold, hitem, hentries]

end

/-- Entries with stable values are their own normal form, whatever their keys are. -/
theorem normalEntries_of_stable {entries : Entries Value} (h : Value.entriesStable entries) :
    Value.normalEntries entries = entries :=
  (rebuildEntries_of_stable h).2

end Query

end DataExpr
