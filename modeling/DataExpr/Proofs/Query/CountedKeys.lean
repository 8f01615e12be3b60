import DataExpr.Proofs.Query.IndexMarks
import DataExpr.Proofs.Query.NormalForm
import DataExpr.Proofs.Value.Members

/-!
# Mappings with counted keys become sequences

The pass over indices brings a value to a form without mappings whose keys count from zero
(`sequenceIndexed_settles`).  A value in that form is `Settled`.  Two lemmas carry the main
result: whatever comes out of the pass is settled (`settled_sequenceIndexed`), and the pass
leaves settled values alone (`sequenceIndexed_of_settled`).

`IsCounted` speaks of the set of keys, `inIndexOrder?` of look-ups.  They agree because no key
stands twice (`isCounted_iff`).
-/

namespace DataExpr

namespace Value

mutual

/-- The leaves of a value from left to right: all that is in it and no container, and the
empty mappings. -/
def leafValues : Value → List Value
  | .sequence items => itemLeafValues items
  | .mapping [] => [.mapping []]
  | .mapping entries => entryLeafValues entries
  | value => [value]

/-- The leaves of all items. -/
def itemLeafValues : List Value → List Value
  | [] => []
  | item :: items => item.leafValues ++ itemLeafValues items

/-- The leaves of all values of entries. -/
def entryLeafValues : List (String × Value) → List Value
  | [] => []
  | (_, item) :: entries => item.leafValues ++ entryLeafValues entries

end

theorem leafValues_sequence (items : List Value) :
    (sequence items).leafValues = items.flatMap leafValues := by
  rw [leafValues]
  induction items with
  | nil => rfl
  | cons item items ih => rw [itemLeafValues, ih, List.flatMap_cons]

theorem leafValues_mapping {entries : Entries Value} (h : entries ≠ []) :
    (mapping entries).leafValues = (Entries.values entries).flatMap leafValues := by
  have hentries (entries : Entries Value) :
      entryLeafValues entries = (Entries.values entries).flatMap leafValues := by
    induction entries with
    | nil => rfl
    | cons entry entries ih =>
      obtain ⟨key, item⟩ := entry
      rw [entryLeafValues, ih]
      rfl
  rw [leafValues, hentries]
  exact h

end Value

namespace Query

open Value (indices)

/-! ## Counted keys -/

/-- The keys are the decimal numbers below a number, in any order. -/
def CountsTo (length : Nat) (entries : Entries Value) : Prop :=
  ∀ key, key ∈ Entries.keys entries ↔ ∃ i < length, key = Nat.repr i

/-- The keys are the decimal numbers from zero on, and there is one at least. -/
def IsCounted (entries : Entries Value) : Prop :=
  ∃ length ≥ 1, CountsTo length entries

section

variable {entries : Entries Value} {length : Nat}

theorem countsTo_of_perm (h : (Entries.keys entries).Perm (indices length)) :
    CountsTo length entries := by
  intro key
  rw [h.mem_iff]
  simp [indices, eq_comm]

/-- Keys that count to a number are as many as that. -/
theorem CountsTo.perm (h : CountsTo length entries) (hunique : Entries.Unique entries) :
    (Entries.keys entries).Perm (indices length) := by
  have hnodup : (indices length).Nodup := List.nodup_range.map repr_injective
  refine (List.perm_ext_iff_of_nodup hunique hnodup).2 fun key => ?_
  rw [h key]
  simp [indices, eq_comm]

theorem CountsTo.length_eq (h : CountsTo length entries) (hunique : Entries.Unique entries) :
    entries.length = length := by
  simpa [Entries.keys, indices] using (h.perm hunique).length_eq

theorem isCounted_of_inIndexOrder? {items : List Value} (h : inIndexOrder? entries = some items) :
    IsCounted entries := by
  obtain ⟨hne, -⟩ := (inIndexOrder?_eq_some_iff entries items).1 h
  exact ⟨entries.length, List.length_pos_iff.2 hne,
    countsTo_of_perm (keys_perm_of_inIndexOrder? h)⟩

/-- Entries have an order of indices exactly if their keys are counted. -/
theorem isCounted_iff (hunique : Entries.Unique entries) :
    IsCounted entries ↔ ∃ items, inIndexOrder? entries = some items := by
  constructor
  · rintro ⟨length, hlength, hcounts⟩
    have heq := hcounts.length_eq hunique
    have hne : entries ≠ [] := by
      rintro rfl
      simp at heq
      omega
    have hperm := hcounts.perm hunique
    rw [← heq] at hperm
    exact ⟨_, (inIndexOrder?_eq hne).trans (if_pos hperm)⟩
  · rintro ⟨items, hitems⟩
    exact isCounted_of_inIndexOrder? hitems

/-- The pass turns entries into the sequence of what their values become, in the order of
indices, or keeps the keys. -/
theorem sequenceIndexed_mapping_eq (entries : Entries Value) :
    sequenceIndexed (.mapping entries) =
      match inIndexOrder? entries with
      | some items => .sequence (items.map sequenceIndexed)
      | none => .mapping (Entries.mapValues sequenceIndexed entries) := by
  rw [sequenceIndexed, sequenceIndexedEntries_eq, inIndexOrder?_mapValues]
  cases inIndexOrder? entries <;> rfl

/-- Entries whose keys are not counted keep them, in their order. -/
theorem sequenceIndexed_of_not_isCounted (h : ¬IsCounted entries) :
    sequenceIndexed (.mapping entries) =
      .mapping (Entries.mapValues sequenceIndexed entries) := by
  have hnone : inIndexOrder? entries = none := by
    rw [Option.eq_none_iff_forall_ne_some]
    exact fun items hitems => h (isCounted_of_inIndexOrder? hitems)
  rw [sequenceIndexed_mapping_eq, hnone]

theorem isCounted_mapValues_iff (f : Value → Value) :
    IsCounted (Entries.mapValues f entries) ↔ IsCounted entries := by
  simp only [IsCounted, CountsTo, Entries.keys_mapValues]

end

/-! ## Settled values -/

/-- No mapping in the value, at any depth, has counted keys. -/
def Settled (value : Value) : Prop :=
  ∀ entries, value.Contains (.mapping entries) → ¬IsCounted entries

theorem settled_iff (value : Value) :
    Settled value ↔
      (∀ entries, value = .mapping entries → ¬IsCounted entries) ∧
        ∀ member ∈ value.members, Settled member := by
  constructor
  · intro h
    refine ⟨fun entries heq => h entries (heq ▸ .self value), fun member hmember entries hin => ?_⟩
    exact h entries (.inside hmember hin)
  · rintro ⟨hself, hmembers⟩ entries hin
    rcases (Value.contains_iff _ _).1 hin with heq | ⟨member, hmember, hin⟩
    · exact hself entries heq
    · exact hmembers member hmember entries hin

theorem settled_sequence_iff (items : List Value) :
    Settled (.sequence items) ↔ ∀ item ∈ items, Settled item := by
  simp [settled_iff (.sequence items), Value.members]

theorem settled_mapping_iff (entries : Entries Value) :
    Settled (.mapping entries) ↔
      ¬IsCounted entries ∧ ∀ item ∈ Entries.values entries, Settled item := by
  simp [settled_iff (.mapping entries), Value.members]

theorem settled_of_members_eq_nil {value : Value} (h : value.members = [])
    (hkind : value.kind ≠ .object) : Settled value := by
  refine (settled_iff value).2 ⟨?_, by simp [h]⟩
  rintro entries rfl
  exact absurd rfl hkind

/-- What comes out of the pass over indices is settled. -/
theorem settled_sequenceIndexed {value : Value} (h : value.WellFormed) :
    Settled (sequenceIndexed value) := by
  induction value using Value.induction_members with
  | step value ih =>
    cases value with
    | sequence items =>
      rw [sequenceIndexed, sequenceIndexedItems_eq, settled_sequence_iff, List.forall_mem_map]
      exact fun item hitem => ih item hitem (h.of_mem_members hitem)
    | mapping entries =>
      have hvalues : ∀ item ∈ Entries.values entries, Settled (sequenceIndexed item) :=
        fun item hitem => ih item hitem (h.of_mem_members hitem)
      rw [sequenceIndexed_mapping_eq]
      split
      · rename_i items hitems
        rw [settled_sequence_iff, List.forall_mem_map]
        exact fun item hitem =>
          hvalues item ((perm_values_of_inIndexOrder? hitems).mem_iff.1 hitem)
      · rename_i hnone
        rw [settled_mapping_iff, isCounted_mapValues_iff, isCounted_iff h.1, hnone,
          Entries.values_mapValues, List.forall_mem_map]
        exact ⟨by simp, hvalues⟩
    | _ => exact settled_of_members_eq_nil rfl (by simp [sequenceIndexed, Value.kind])

/-- The pass over indices leaves settled values alone. -/
theorem sequenceIndexed_of_settled {value : Value} (h : Settled value) :
    sequenceIndexed value = value := by
  induction value using Value.induction_members with
  | step value ih =>
    cases value with
    | sequence items =>
      rw [settled_sequence_iff] at h
      have hitems : items.map sequenceIndexed = items.map id :=
        List.map_congr_left fun item hitem => ih item hitem (h item hitem)
      rw [sequenceIndexed, sequenceIndexedItems_eq, hitems, List.map_id]
    | mapping entries =>
      obtain ⟨hcounted, hvalues⟩ := (settled_mapping_iff entries).1 h
      rw [sequenceIndexed_of_not_isCounted hcounted, Entries.mapValues_eq_self]
      exact fun item hitem => ih item hitem (hvalues item hitem)
    | _ => rfl

/-! ## Leaves -/

/-- Every leaf is kept. -/
theorem leafValues_sequenceIndexed_perm (value : Value) :
    (sequenceIndexed value).leafValues.Perm value.leafValues := by
  induction value using Value.induction_members with
  | step value ih =>
    cases value with
    | sequence items =>
      rw [sequenceIndexed, sequenceIndexedItems_eq, Value.leafValues_sequence,
        Value.leafValues_sequence, List.flatMap_map]
      exact List.Perm.flatMap_left items ih
    | mapping entries =>
      by_cases hne : entries = []
      · subst hne
        exact List.Perm.refl _
      have hleaves : ((Entries.values entries).flatMap fun item =>
          (sequenceIndexed item).leafValues).Perm (Value.mapping entries).leafValues := by
        rw [Value.leafValues_mapping hne]
        exact List.Perm.flatMap_left _ ih
      rw [sequenceIndexed_mapping_eq]
      split
      · rename_i items hitems
        rw [Value.leafValues_sequence, List.flatMap_map]
        exact ((perm_values_of_inIndexOrder? hitems).flatMap_right _).trans hleaves
      · have hmapped : Entries.mapValues sequenceIndexed entries ≠ [] := by
          simpa [Entries.mapValues] using hne
        rwa [Value.leafValues_mapping hmapped, Entries.values_mapValues, List.flatMap_map]
    | _ => exact List.Perm.refl _

/-! ## The form that is reached -/

/-- The item at each position is what the value under that index becomes. -/
theorem sequenceIndexed_of_countsTo {entries : Entries Value} (hunique : Entries.Unique entries)
    {length : Nat} (hlength : length ≥ 1) (h : CountsTo length entries) :
    ∃ items, sequenceIndexed (.mapping entries) = .sequence items ∧ items.length = length ∧
      ∀ i < length, ∃ item, Entries.get? entries (Nat.repr i) = some item ∧
        items[i]? = some (sequenceIndexed item) := by
  obtain ⟨items, hitems⟩ := (isCounted_iff hunique).1 ⟨length, hlength, h⟩
  obtain ⟨-, hfound⟩ := (inIndexOrder?_eq_some_iff entries items).1 hitems
  rw [h.length_eq hunique] at hfound
  have hcount : items.length = length := by simpa using hfound.length_eq.symm
  refine ⟨items.map sequenceIndexed, ?_, by rw [List.length_map, hcount], fun i hi => ?_⟩
  · rw [sequenceIndexed_mapping_eq, hitems]
  · have hget := hfound.get (by simpa using hi) (by omega : i < items.length)
    rw [List.get_eq_getElem, List.get_eq_getElem, List.getElem_range] at hget
    refine ⟨_, hget, ?_⟩
    rw [List.getElem?_map, List.getElem?_eq_getElem (by omega), Option.map_some]

/-- The pass does the same in place, by positions. -/
theorem sequenceIndexed_eq_arrange {entries : Entries Value}
    (hlimit : entries.length ≤ Decimal.positionLimit) :
    sequenceIndexed (.mapping entries) = arrange (sequenceIndexedEntries entries) := by
  rw [← length_sequenceIndexedEntries entries] at hlimit
  rw [sequenceIndexed, arrange, inIndexOrder?_eq_place hlimit]
  cases positions? (sequenceIndexedEntries entries) <;> rfl

/-- The pass over indices brings a value to its settled form.  No mapping with counted keys is
left at any depth, a second pass changes nothing, and the leaves are the same, each as often as
before.  A mapping with counted keys, in whatever order they come, becomes the sequence of what
the values under the indices become, and any other mapping keeps its keys and their order.  Doing
so in place writes every position exactly once. -/
theorem sequenceIndexed_settles {value : Value} (h : value.WellFormed) :
    (∀ entries, (sequenceIndexed value).Contains (.mapping entries) → ¬IsCounted entries) ∧
    sequenceIndexed (sequenceIndexed value) = sequenceIndexed value ∧
    (sequenceIndexed value).leafValues.Perm value.leafValues ∧
    ∀ entries, value = .mapping entries →
      (∀ length ≥ 1, CountsTo length entries →
        ∃ items, sequenceIndexed value = .sequence items ∧ items.length = length ∧
          ∀ i < length, ∃ item, Entries.get? entries (Nat.repr i) = some item ∧
            items[i]? = some (sequenceIndexed item)) ∧
      (¬IsCounted entries →
        sequenceIndexed value = .mapping (Entries.mapValues sequenceIndexed entries)) ∧
      (entries.length ≤ Decimal.positionLimit →
        sequenceIndexed value = arrange (sequenceIndexedEntries entries) ∧
          ∀ positions, positions? (sequenceIndexedEntries entries) = some positions →
            positions.Perm (List.range entries.length)) := by
  have hsettled : Settled (sequenceIndexed value) := settled_sequenceIndexed h
  refine ⟨hsettled, sequenceIndexed_of_settled hsettled, leafValues_sequenceIndexed_perm value, ?_⟩
  rintro entries rfl
  refine ⟨fun length => sequenceIndexed_of_countsTo h.1, sequenceIndexed_of_not_isCounted,
    fun hlimit => ⟨sequenceIndexed_eq_arrange hlimit, fun positions hpositions => ?_⟩⟩
  rw [← length_sequenceIndexedEntries entries] at hlimit ⊢
  exact ((positions?_eq_some_iff hlimit positions).1 hpositions).2.2

/-- A mapping with counted keys, not in order, around one with a leading zero in a key and one with
counted keys again. -/
def shuffledEntries : Entries Value :=
  [("2", .mapping [("0", .text "x")]), ("0", .mapping [("00", .null), ("1", .mapping [])]),
    ("1", .sequence [.mapping [("1", .bool true), ("0", .null)]])]

theorem sequenceIndexed_settles_shuffledEntries :
    (Value.mapping shuffledEntries).WellFormed ∧ CountsTo 3 shuffledEntries ∧
      (∃ items, sequenceIndexed (.mapping shuffledEntries) = .sequence items ∧
        items.length = 3 ∧ items[2]? = some (.sequence [.text "x"])) ∧
      (sequenceIndexed (.mapping shuffledEntries)).leafValues.Perm
        [.text "x", .null, .mapping [], .bool true, .null] ∧
      positions? (sequenceIndexedEntries shuffledEntries) = some [2, 0, 1] := by
  have hwellFormed : (Value.mapping shuffledEntries).WellFormed := by
    simp [shuffledEntries, Value.WellFormed, Value.entriesWellFormed, Value.itemsWellFormed,
      Entries.Unique, Entries.keys]
  have hcounts : CountsTo 3 shuffledEntries := countsTo_of_perm (by decide)
  obtain ⟨-, -, hleaves, hmapping⟩ := sequenceIndexed_settles hwellFormed
  obtain ⟨items, hitems, hlength, hat⟩ := (hmapping _ rfl).1 3 (by decide) hcounts
  obtain ⟨item, hget, hlast⟩ := hat 2 (by decide)
  obtain rfl : Value.mapping [("0", .text "x")] = item := Option.some.inj hget
  exact ⟨hwellFormed, hcounts, ⟨items, hitems, hlength, hlast⟩, hleaves, by rfl⟩

end Query

end DataExpr
