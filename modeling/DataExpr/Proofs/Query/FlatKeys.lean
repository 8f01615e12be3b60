import DataExpr.Proofs.Query.BracketLimit
import DataExpr.Proofs.Query.Grouping
import DataExpr.Proofs.Value.Equality

/-!
# Brackets in the keys of flat mappings

A key is encoded as a whole when it is written, so that no character of it is taken for a separator
of the query.  But its brackets are looked for when it has been decoded, and those that were escaped
count like all others.  So a flat mapping is read back just if every key is kept whole
(`KeptWhole`): it has no path, or the path runs into one of the scalars that came before
(`deepEqual_decode_encode_iff`).

Parts are filed one after the other.  As long as keys are kept whole the scalars are filed as they
come (`fileValue_of_keptWhole`), and the first key that is not leaves a container
(`holdsContainer_of_not_keptWhole`), which nothing that is filed later takes away
(`HoldsContainer.fileValue`).
-/

namespace DataExpr.Query

/-! ## Containers among entries -/

/-- The value is a sequence or a mapping. -/
def IsContainer (value : Value) : Prop :=
  value.kind = .array ∨ value.kind = .object

/-- There is a container under some key. -/
def HoldsContainer (entries : Entries Value) : Prop :=
  ∃ name found, Entries.get? entries name = some found ∧ IsContainer found

section

variable {entries : Entries Value} {key : String} {value : Value}

theorem not_isContainer_of_isScalar (h : value.IsScalar) : ¬IsContainer value := by
  rintro (harray | hobject)
  · exact h.2.1 harray
  · exact h.2.2 hobject

/-- What is appended, or filed where something is, becomes the item of a sequence. -/
theorem isContainer_joined {asList : Bool} {found? : Option Value}
    (h : asList = true ∨ found?.isSome) (value : Value) :
    IsContainer (joined asList value found?) := by
  rcases found? with _ | found
  · obtain rfl : asList = true := by simpa using h
    exact .inl rfl
  · cases found <;> exact .inl rfl

theorem HoldsContainer.alter (h : HoldsContainer entries) {f : Option Value → Value}
    (hf : ∀ found, Entries.get? entries key = some found → IsContainer found →
      IsContainer (f (some found))) : HoldsContainer (Entries.alter f entries key) := by
  obtain ⟨name, found, hget, hcontainer⟩ := h
  by_cases hname : name = key
  · subst hname
    refine ⟨name, f (some found), ?_, hf found hget hcontainer⟩
    rw [Entries.get?_alter_self, hget]
  · exact ⟨name, found, by rw [Entries.get?_alter_of_ne _ _ hname, hget], hcontainer⟩

theorem HoldsContainer.collect (h : HoldsContainer entries) (asList : Bool) (key : String)
    (value : Value) : HoldsContainer (collect asList entries key value) := by
  rw [collect_eq]
  exact h.alter fun _ _ _ => isContainer_joined (.inr rfl) value

theorem HoldsContainer.of_insertPath? (h : HoldsContainer entries) {path : List String}
    {result : Entries Value} (hinsert : insertPath? value path entries = some result) :
    HoldsContainer result := by
  cases path with
  | nil => cases hinsert
  | cons key path =>
    rcases insertPath?_cases hinsert with ⟨asList, rfl⟩ | ⟨-, inner, further, -, -, rfl⟩
    · exact h.collect asList key value
    · exact h.alter fun _ _ _ => .inr rfl

theorem HoldsContainer.fileValue (h : HoldsContainer entries) (config : QueryConfig) (key : String)
    (value : Value) : HoldsContainer (fileValue config entries key value).value := by
  rw [value_fileValue]
  cases hinsert : insertPath? value (pathOf config key) entries with
  | none => exact h.collect false key value
  | some result => exact h.of_insertPath? hinsert

end

/-! ## One more key -/

/-- Behind earlier keys the key is taken as it is.  If it has a path, then the path goes on behind
one of these keys, with something else than an empty segment. -/
def KeptWhole (earlier : List String) (key : String) : Prop :=
  ∀ path ∈ keyPath? 16 key,
    path.segments.tail ≠ [""] ∧ ∃ base ∈ earlier, path.segments.head? = some base

section

variable {entries : Entries Value} {key : String} {value : Value}

theorem fileValue_of_keptWhole (hscalar : ∀ item ∈ Entries.values entries, item.IsScalar)
    (hnew : key ∉ Entries.keys entries) (h : KeptWhole (Entries.keys entries) key) :
    (fileValue {} entries key value).value = entries ++ [(key, value)] := by
  have hcollect : collect false entries key value = entries ++ [(key, value)] :=
    Entries.alter_of_new _ hnew
  rw [value_fileValue, pathOf, if_pos rfl]
  cases hpath : keyPath? ({} : QueryConfig).maxDepth key with
  | none => exact hcollect
  | some path =>
    obtain ⟨base, name, names, hsegments⟩ := exists_segments_of_keyPath? hpath
    obtain ⟨hlast, first, hmem, hfirst⟩ := h path hpath
    rw [hsegments] at hlast hfirst
    obtain rfl : base = first := Option.some.inj hfirst
    obtain ⟨found, hget⟩ := Option.isSome_iff_exists.1 (Entries.get?_isSome_iff.2 hmem)
    have hfound : ∀ inner, found ≠ .mapping inner := by
      rintro inner rfl
      exact (hscalar _ (Entries.mem_values_of_get? hget)).2.2 rfl
    dsimp only
    rw [hsegments, insertPath?_eq_none (List.cons_ne_nil _ _) hlast hget hfound]
    exact hcollect

/-- The path either appends to what is under its base, or makes a mapping there. -/
theorem holdsContainer_of_not_keptWhole (h : ¬KeptWhole (Entries.keys entries) key)
    (value : Value) : HoldsContainer (fileValue {} entries key value).value := by
  rw [value_fileValue, pathOf, if_pos rfl]
  cases hpath : keyPath? ({} : QueryConfig).maxDepth key with
  | none => exact absurd (fun path hsome => by rw [hpath] at hsome; cases hsome) h
  | some path =>
    obtain ⟨base, name, names, hsegments⟩ := exists_segments_of_keyPath? hpath
    dsimp only
    rw [hsegments]
    by_cases hlast : name :: names = [""]
    · rw [hlast, insertPath?, if_neg (List.cons_ne_nil _ _), if_pos rfl]
      exact ⟨base, _, Entries.get?_alter_self _ _ _, isContainer_joined (.inl rfl) value⟩
    · have hbase : Entries.get? entries base = none := by
        rw [Entries.get?_eq_none_iff]
        intro hmem
        refine h fun other hother => ?_
        obtain rfl : path = other := Option.some.inj (hpath.symm.trans hother)
        rw [hsegments]
        exact ⟨hlast, base, hmem, rfl⟩
      obtain ⟨inner, hinner⟩ := exists_insertPath?_nothing value (List.cons_ne_nil _ _) hlast
      rw [(LeadsInto.new hbase).insertPath?_eq (List.cons_ne_nil _ _) hlast, hinner]
      exact ⟨base, _, Entries.get?_insert_self _ _ _, .inr rfl⟩

end

/-! ## Flat mappings -/

/-- A mapping of scalars under nonempty keys, each of which is what its text is taken for. -/
structure FlatEntries (entries : Entries Value) : Prop where
  unique : Entries.Unique entries
  key_ne_empty : ∀ key ∈ Entries.keys entries, key ≠ ""
  isScalar : ∀ item ∈ Entries.values entries, item.IsScalar
  typed : ∀ item ∈ Entries.values entries, (typedValue item.display).deepEqual item

/-- Every key is kept whole behind those before it. -/
def AllKeptWhole (keys : List String) : Prop :=
  ∀ before key after, keys = before ++ key :: after → KeptWhole before key

/-- The entries with what the texts of their values are taken for. -/
def retyped (entries : Entries Value) : Entries Value :=
  Entries.mapValues (fun item => typedValue item.display) entries

/-- The part that is written for an entry with a scalar. -/
def entryPart (entry : String × Value) : List Char :=
  (partOf [entry.1] entry.2.display).toList

theorem allKeptWhole_nil : AllKeptWhole [] := by
  intro before key after hsplit
  exact absurd hsplit.symm (List.append_ne_nil_of_right_ne_nil _ (List.cons_ne_nil _ _))

theorem allKeptWhole_concat (keys : List String) (key : String) :
    AllKeptWhole (keys ++ [key]) ↔ AllKeptWhole keys ∧ KeptWhole keys key := by
  constructor
  · intro h
    refine ⟨fun before other after hkeys => ?_, h keys key [] rfl⟩
    exact h before other (after ++ [key]) (by rw [hkeys, List.append_assoc]; rfl)
  · rintro ⟨hkeys, hkey⟩ before other after hsplit
    rcases List.eq_nil_or_concat after with rfl | ⟨after, last, rfl⟩
    · obtain ⟨rfl, heq⟩ := List.append_inj' hsplit rfl
      obtain rfl : key = other := (List.cons.inj heq).1
      exact hkey
    · rw [List.concat_eq_append, ← List.cons_append, ← List.append_assoc] at hsplit
      exact hkeys before other after (List.append_inj' hsplit rfl).1

theorem leafPaths_of_isScalar {value : Value} (h : value.IsScalar) :
    value.leafPaths = [([], value)] := by
  cases value with
  | null => exact absurd rfl h.1
  | sequence => exact absurd rfl h.2.1
  | mapping => exact absurd rfl h.2.2
  | _ => rfl

theorem entryLeafPaths_of_isScalar {entries : Entries Value}
    (h : ∀ item ∈ Entries.values entries, item.IsScalar) :
    Value.entryLeafPaths entries = entries.map fun entry => ([entry.1], entry.2) := by
  induction entries with
  | nil => rfl
  | cons entry entries ih =>
    obtain ⟨key, item⟩ := entry
    rw [Entries.values, List.map_cons, List.forall_mem_cons] at h
    rw [Value.entryLeafPaths, leafPaths_of_isScalar h.1, ih h.2]
    rfl

/-- A flat mapping is written as one part for each entry. -/
theorem decodeParts_encode {entries : Entries Value}
    (h : ∀ item ∈ Entries.values entries, item.IsScalar) :
    decodeParts {} (splitParts (encode (.mapping entries) none)) =
      decodeParts {} (entries.map entryPart) := by
  rw [splitParts_encode, entryLeafPaths_of_isScalar h, List.map_map]
  split
  · rename_i hnil
    rw [List.map_eq_nil_iff.1 hnil]
    rfl
  · rfl

theorem keys_retyped (entries : Entries Value) :
    Entries.keys (retyped entries) = Entries.keys entries :=
  Entries.keys_mapValues _ _

theorem isScalar_retyped (entries : Entries Value) :
    ∀ item ∈ Entries.values (retyped entries), item.IsScalar := by
  rw [retyped, Entries.values_mapValues, List.forall_mem_map]
  exact fun item _ => isScalar_toValue _

/-- As long as keys are kept whole, the entries are filed as they come, and then there is a
container. -/
theorem decodeParts_entryParts {entries : Entries Value} (hunique : Entries.Unique entries)
    (hkeys : ∀ key ∈ Entries.keys entries, key ≠ "") :
    (AllKeptWhole (Entries.keys entries) →
        decodeParts {} (entries.map entryPart) = retyped entries) ∧
      (¬AllKeptWhole (Entries.keys entries) →
        HoldsContainer (decodeParts {} (entries.map entryPart))) := by
  induction entries using List.reverseRecOn with
  | nil => exact ⟨fun _ => rfl, fun h => absurd allKeptWhole_nil h⟩
  | append_singleton entries entry ih =>
    obtain ⟨key, item⟩ := entry
    have hconcat : Entries.keys (entries ++ [(key, item)]) = Entries.keys entries ++ [key] := by
      simp [Entries.keys]
    rw [hconcat, List.forall_mem_append, List.forall_mem_singleton] at hkeys
    rw [Entries.Unique, hconcat, List.nodup_append] at hunique
    have hnew : key ∉ Entries.keys (retyped entries) := by
      rw [keys_retyped]
      exact fun hmem => hunique.2.2 key hmem key List.mem_cons_self rfl
    obtain ⟨hwhole, hbroken⟩ := ih hunique.1 hkeys.1
    rw [hconcat, allKeptWhole_concat, List.map_append, List.map_singleton, decodeParts_concat,
      entryPart, value_addPart_partOf {} hkeys.2, ← typedValue]
    by_cases hall : AllKeptWhole (Entries.keys entries)
    · rw [hwhole hall]
      refine ⟨fun h => ?_, fun h => ?_⟩
      · have hkey : KeptWhole (Entries.keys (retyped entries)) key := by
          rw [keys_retyped]
          exact h.2
        rw [fileValue_of_keptWhole (isScalar_retyped entries) hnew hkey]
        simp [retyped, Entries.mapValues]
      · apply holdsContainer_of_not_keptWhole
        rw [keys_retyped]
        exact fun hkey => h ⟨hall, hkey⟩
    · refine ⟨fun h => absurd h.1 hall, fun _ => ?_⟩
      exact (hbroken hall).fileValue {} key _

/-! ## The pass over indices -/

theorem sequenceIndexedEntries_retyped (entries : Entries Value) :
    sequenceIndexedEntries (retyped entries) = retyped entries := by
  rw [sequenceIndexedEntries_eq, retyped, Entries.mapValues, Entries.mapValues, List.map_map]
  refine List.map_congr_left fun entry _ => congrArg (Prod.mk entry.1) ?_
  exact sequenceIndexed_of_isScalar (isScalar_toValue _)

/-- A container stays one. -/
theorem isContainer_sequenceIndexed {value : Value} (h : IsContainer value) :
    IsContainer (sequenceIndexed value) := by
  cases value with
  | sequence items => exact h
  | mapping entries =>
    rw [sequenceIndexed]
    split
    · exact .inl rfl
    · exact .inr rfl
  | _ => rcases h with h | h <;> cases h

theorem HoldsContainer.sequenceIndexedEntries {entries : Entries Value}
    (h : HoldsContainer entries) : HoldsContainer (sequenceIndexedEntries entries) := by
  obtain ⟨name, found, hget, hcontainer⟩ := h
  refine ⟨name, sequenceIndexed found, ?_, isContainer_sequenceIndexed hcontainer⟩
  rw [sequenceIndexedEntries_eq, Entries.get?_mapValues, hget]
  rfl

/-! ## Reading flat mappings back -/

/-- Entries with a container are not equal to entries without one. -/
theorem HoldsContainer.not_deepEqual {entries others : Entries Value} (h : HoldsContainer entries)
    (hscalar : ∀ item ∈ Entries.values others, item.IsScalar) :
    ¬(Value.mapping entries).deepEqual (.mapping others) := by
  obtain ⟨name, found, hget, hcontainer⟩ := h
  intro hequal
  obtain ⟨-, hwithin⟩ := Bool.and_eq_true_iff.1 hequal
  obtain ⟨item, hitem, hsame⟩ :=
    (Value.entriesWithin_iff _ _).1 hwithin _ (Entries.mem_of_get? hget)
  refine not_isContainer_of_isScalar (hscalar item (Entries.mem_values_of_get? hitem)) ?_
  rw [IsContainer, ← Value.kind_eq_of_deepEqual hsame]
  exact hcontainer

theorem FlatEntries.deepEqual_retyped {entries : Entries Value} (h : FlatEntries entries) :
    (Value.mapping (retyped entries)).deepEqual (.mapping entries) := by
  have hunique : Entries.Unique (retyped entries) := by
    rw [Entries.Unique, keys_retyped]
    exact h.unique
  rw [Value.deepEqual_mapping_iff hunique h.unique]
  intro key
  rw [retyped, Entries.get?_mapValues]
  cases hget : Entries.get? entries key with
  | none => exact .none
  | some item => exact .some (h.typed item (Entries.mem_values_of_get? hget))

/-- A flat mapping that is written as a query is read as an equal one just if each of its keys is
kept whole behind those before it, whatever else the keys contain.  Then it is read with the
same keys in the same order. -/
theorem deepEqual_decode_encode_iff {entries : Entries Value} (h : FlatEntries entries) :
    ((Value.mapping (decode {} (encode (.mapping entries) none)).value).deepEqual
        (.mapping entries) ↔ AllKeptWhole (Entries.keys entries)) ∧
      (AllKeptWhole (Entries.keys entries) →
        (decode {} (encode (.mapping entries) none)).value = retyped entries) := by
  obtain ⟨hwhole, hbroken⟩ := decodeParts_entryParts h.unique h.key_ne_empty
  have hdecode : (decode {} (encode (.mapping entries) none)).value =
      sequenceIndexedEntries (decodeParts {} (entries.map entryPart)) := by
    rw [value_decode, if_pos rfl, decodeParts_encode h.isScalar]
  have hread (hall : AllKeptWhole (Entries.keys entries)) :
      (decode {} (encode (.mapping entries) none)).value = retyped entries := by
    rw [hdecode, hwhole hall, sequenceIndexedEntries_retyped]
  refine ⟨⟨fun hequal => ?_, fun hall => ?_⟩, hread⟩
  · by_contra hall
    rw [hdecode] at hequal
    exact (hbroken hall).sequenceIndexedEntries.not_deepEqual h.isScalar hequal
  · rw [hread hall]
    exact h.deepEqual_retyped

/-- Separators of queries, brackets that lead nowhere, and one that runs into a text. -/
def awkwardKeys : Entries Value :=
  [("a]=&%?\u00e9", .text "x"), ("b", .text "y"), ("b[c]", .text "z"), ("[d]", .text "w"),
    ("e[f", .text "v")]

theorem deepEqual_decode_encode_iff_awkwardKeys :
    FlatEntries awkwardKeys ∧ AllKeptWhole (Entries.keys awkwardKeys) ∧
      (Value.mapping (decode {} (encode (.mapping awkwardKeys) none)).value).deepEqual
        (.mapping awkwardKeys) := by
  have hflat : FlatEntries awkwardKeys := by
    refine ⟨by unfold Entries.Unique; decide, by decide, ?_, by decide +kernel⟩
    simp [awkwardKeys, Entries.values, Value.IsScalar, Value.kind]
  have hwhole :
      AllKeptWhole ([] ++ ["a]=&%?\u00e9"] ++ ["b"] ++ ["b[c]"] ++ ["[d]"] ++ ["e[f"]) := by
    simp only [allKeptWhole_concat, allKeptWhole_nil, true_and]
    unfold KeptWhole
    decide +kernel
  exact ⟨hflat, hwhole, (deepEqual_decode_encode_iff hflat).1.2 hwhole⟩

/-- A text under a key with brackets. -/
def bracketedKey : Entries Value :=
  [("a[b]", .text "x")]

/-- The brackets are escaped, but they are read all the same. -/
theorem not_deepEqual_decode_encode_bracketedKey :
    FlatEntries bracketedKey ∧
      ¬(Value.mapping (decode {} (encode (.mapping bracketedKey) none)).value).deepEqual
        (.mapping bracketedKey) := by
  refine ⟨⟨by unfold Entries.Unique; decide, by decide, ?_, by decide +kernel⟩, by decide +kernel⟩
  simp [bracketedKey, Entries.values, Value.IsScalar, Value.kind]

end DataExpr.Query
