import DataExpr.Proofs.Query.Apart
import DataExpr.Proofs.Query.Paths

/-!
# Queries in another order

The parts of a query may come in any order, if none of them is in the way of another:
what is read is the same mapping (`deepEqual_decode_of_perm`).

Parts whose paths are apart are filed one after the other with no collision
(`decodeParts_of_fileAll`), and filing them in another order makes the same mapping.  The pass
over indices then looks at what is under each key only, and turns the same values into the
same values (`same_sequenceIndexed`).
-/

namespace DataExpr.Query

open Value (Same)

/-! ## Sequences -/

theorem same_inIndexOrder? {entries others : Entries Value}
    (h : Same (.mapping entries) (.mapping others)) :
    Option.Rel (List.Forall₂ Same) (inIndexOrder? entries) (inIndexOrder? others) := by
  have hlength : entries.length = others.length :=
    beq_iff_eq.1 (Bool.and_eq_true_iff.1 h.equal).1
  have hempty : entries.isEmpty = others.isEmpty := by
    rw [Bool.eq_iff_iff, List.isEmpty_iff_length_eq_zero, List.isEmpty_iff_length_eq_zero, hlength]
  obtain ⟨-, -, hget⟩ := Value.same_mapping_iff.1 h
  rw [inIndexOrder?, inIndexOrder?, hempty, hlength]
  split
  · exact .none
  · exact optionRel_mapM fun i => hget (Nat.repr i)

theorem forall₂_same_map {items others : List Value} {f : Value → Value}
    (h : List.Forall₂ Same items others)
    (hf : ∀ item ∈ items, ∀ other, Same item other → Same (f item) (f other)) :
    List.Forall₂ Same (items.map f) (others.map f) := by
  induction h with
  | nil => exact .nil
  | cons hhead _ ih =>
    rw [List.forall_mem_cons] at hf
    exact .cons (hf.1 _ hhead) (ih hf.2)

theorem same_sequenceIndexedEntries {entries others : Entries Value}
    (h : Same (.mapping entries) (.mapping others))
    (hvalues : ∀ item ∈ Entries.values entries, ∀ other, Same item other →
      Same (sequenceIndexed item) (sequenceIndexed other)) :
    Same (.mapping (sequenceIndexedEntries entries))
      (.mapping (sequenceIndexedEntries others)) := by
  obtain ⟨hentries, hothers, hget⟩ := Value.same_mapping_iff.1 h
  rw [Entries.Unique, ← keys_sequenceIndexedEntries] at hentries hothers
  refine Value.same_mapping_iff.2 ⟨hentries, hothers, fun key => ?_⟩
  rw [sequenceIndexedEntries_eq, sequenceIndexedEntries_eq, Entries.get?_mapValues,
    Entries.get?_mapValues]
  apply optionRel_map (hget key)
  intro item hitem other hsame
  exact hvalues item (Entries.mem_values_of_get? hitem) other hsame

/-- The pass over indices turns the same values into the same values. -/
theorem same_sequenceIndexed {a b : Value} (h : Same a b) :
    Same (sequenceIndexed a) (sequenceIndexed b) := by
  induction a using Value.induction_members generalizing b with
  | step a ih =>
    have hkind := Value.kind_eq_of_deepEqual h.equal
    cases a <;> cases b <;> simp only [Value.kind, reduceCtorEq] at hkind
    case sequence.sequence items others =>
      rw [sequenceIndexed, sequenceIndexed, sequenceIndexedItems_eq, sequenceIndexedItems_eq]
      apply Value.same_sequence_iff.2
      exact forall₂_same_map (Value.same_sequence_iff.1 h) fun item hitem other => ih item hitem
    case mapping.mapping entries others =>
      have hentries := same_sequenceIndexedEntries h fun item hitem other => ih item hitem
      have horder := same_inIndexOrder? hentries
      rw [sequenceIndexed, sequenceIndexed]
      generalize inIndexOrder? (sequenceIndexedEntries entries) = items,
        inIndexOrder? (sequenceIndexedEntries others) = items' at horder
      cases horder with
      | none => exact hentries
      | some hitems => exact Value.same_sequence_iff.2 hitems
    all_goals simpa only [sequenceIndexed] using h

/-! ## Values -/

theorem ne_nan_of_readNumber? {text : String} {n : Float}
    (h : TypedText.readNumber? text = some n) : n ≠ Float.nan := by
  have hfinite : n.isFinite := by
    unfold TypedText.readNumber? at h
    dsimp only at h
    split at h
    · exact (Option.filter_eq_some_iff.1 h).2
    · cases h
  intro hnan
  exact absurd (hnan ▸ hfinite) (by decide)

theorem deepEqual_toValue_infer (config : QueryConfig) (text : String) :
    (TypedText.infer config text).toValue.deepEqual (TypedText.infer config text).toValue := by
  unfold TypedText.infer
  split
  · simp [TypedText.toValue, Value.deepEqual]
  · split
    · rename_i n _ hread
      simp [TypedText.toValue, Value.deepEqual, ne_nan_of_readNumber? hread]
    · simp [TypedText.toValue, Value.deepEqual]
    · split <;> simp [TypedText.toValue, Value.deepEqual]

/-- A value that is read is the same as itself, because no number that is read is a `NaN`. -/
theorem same_partValue (config : QueryConfig) (part : List Char) :
    Same (partValue config part) (partValue config part) :=
  ⟨wellFormed_toValue _, wellFormed_toValue _, deepEqual_toValue_infer _ _⟩

/-! ## Another order -/

/-- Parts of a query that have a key, and of which none is in the way of another. -/
structure Unconflicting (config : QueryConfig) (parts : List String) : Prop where
  /-- Parts end at separators. -/
  not_mem_separator : ∀ part ∈ parts, '&' ∉ part.toList
  /-- A question mark would be left out if its part came first. -/
  head?_ne : ∀ part ∈ parts, part.toList.head? ≠ some '?'
  key_ne_empty : ∀ part ∈ parts, partKey part.toList ≠ ""
  named : ∀ part ∈ parts, "" ∉ partPath config part.toList
  /-- No two parts have the same path. -/
  nodup : (parts.map fun part => partPath config part.toList).Nodup
  /-- No path starts with another. -/
  prefixFree : ∀ part ∈ parts, ∀ other ∈ parts,
    partPath config part.toList <+: partPath config other.toList →
      partPath config part.toList = partPath config other.toList

namespace Unconflicting

variable {config : QueryConfig} {parts others : List String}

theorem perm (h : Unconflicting config parts) (hperm : parts.Perm others) :
    Unconflicting config others where
  not_mem_separator part hpart := h.not_mem_separator part (hperm.mem_iff.2 hpart)
  head?_ne part hpart := h.head?_ne part (hperm.mem_iff.2 hpart)
  key_ne_empty part hpart := h.key_ne_empty part (hperm.mem_iff.2 hpart)
  named part hpart := h.named part (hperm.mem_iff.2 hpart)
  nodup := (hperm.map _).nodup_iff.1 h.nodup
  prefixFree part hpart other hother :=
    h.prefixFree part (hperm.mem_iff.2 hpart) other (hperm.mem_iff.2 hother)

theorem apart (h : Unconflicting config parts) :
    Apart (parts.map fun part => partLeaf config part.toList) := by
  constructor
  · rw [List.pairwise_map]
    refine (List.pairwise_map.1 h.nodup).imp_of_mem fun {part other} hpart hother hne => ?_
    exact ⟨fun hprefix => hne (h.prefixFree part hpart other hother hprefix),
      fun hprefix => hne (h.prefixFree other hother part hpart hprefix).symm⟩
  · rw [List.forall_mem_map]
    exact h.named

/-- The parts of a query are filed as if they were all there is. -/
theorem value_decode_intercalate (h : Unconflicting config parts) {entries : Entries Value}
    (hfile : fileAll (parts.map fun part => partLeaf config part.toList) = some entries) :
    (decode config ("&".intercalate parts)).value =
      if config.nestedKeys then sequenceIndexedEntries entries else entries := by
  have hparts : decodeParts config (parts.map String.toList) = entries := by
    apply decodeParts_of_fileAll (List.forall_mem_map.2 h.key_ne_empty)
    rwa [List.map_map]
  rw [value_decode, decodeParts_splitParts config h.not_mem_separator h.head?_ne, hparts]

end Unconflicting

/-- Parts that do not conflict may come in any order: what is read is deeply equal. -/
theorem deepEqual_decode_of_perm (config : QueryConfig) {parts others : List String}
    (h : Unconflicting config parts) (hperm : parts.Perm others) :
    (Value.mapping (decode config ("&".intercalate parts)).value).deepEqual
      (.mapping (decode config ("&".intercalate others)).value) := by
  let leaves := parts.map fun part => partLeaf config part.toList
  have hgoOn : ∀ leaf ∈ leaves, leaf.1 ≠ [] :=
    List.forall_mem_map.2 fun part _ => pathOf_ne_nil config _
  have hvalues : ∀ leaf ∈ leaves, Same leaf.2 leaf.2 :=
    List.forall_mem_map.2 fun part _ => same_partValue config _
  have hdepth : ∀ leaf ∈ leaves, leaf.1.length ≤ (leaves.map fun leaf => leaf.1.length).sum :=
    fun leaf hleaf => List.le_sum_of_mem (List.mem_map_of_mem hleaf)
  obtain ⟨entries, entries', hentries, hentries', hsame⟩ :=
    same_fileAll_of_perm _ h.apart hgoOn hdepth (hperm.map _) hvalues
  rw [h.value_decode_intercalate hentries, (h.perm hperm).value_decode_intercalate hentries']
  split
  · exact (same_sequenceIndexedEntries hsame fun _ _ _ => same_sequenceIndexed).equal
  · exact hsame.equal

/-- The items of a sequence, last one first, with other parts between them. -/
def spreadParts : List String :=
  ["a[1]=x", "b[d][e]=2", "a[0]=y", "b[c]=true"]

/-- The same parts with those of one mapping together. -/
def gatheredParts : List String :=
  ["b[c]=true", "b[d][e]=2", "a[0]=y", "a[1]=x"]

theorem deepEqual_decode_of_perm_spreadParts :
    Unconflicting {} spreadParts ∧ spreadParts.Perm gatheredParts ∧
      (Value.mapping (decode {} ("&".intercalate spreadParts)).value).deepEqual
        (.mapping (decode {} ("&".intercalate gatheredParts)).value) := by
  have h : Unconflicting {} spreadParts := by
    constructor <;> decide +kernel
  have hperm : spreadParts.Perm gatheredParts := by decide
  exact ⟨h, hperm, deepEqual_decode_of_perm {} h hperm⟩

end DataExpr.Query
