import DataExpr.Proofs.Query.BracketLimit
import DataExpr.Proofs.Query.Insertion
import DataExpr.Proofs.Value.Nesting

/-!
# How deep a query can nest

However many brackets a query has, its containers are nested no deeper than the limit on brackets
allows, and for each limit there is a query that nests them as deep (`nesting_decode_le`).

A path has no more segments than two and the limit, so that filing along it goes through no more
mappings.  A value that is filed under a key in use makes a sequence of what is there, but never
puts a sequence into another (`Layered`).  So there are at most two containers for every
segment of a path, a mapping and a sequence around it, whatever parts came before.

The bound is reached from inside: a query may first make all mappings that a path leads through, and
then put each of them into a sequence, from the innermost to the outermost (`deepKeys`).  In the
other order it could not, as no path leads through a sequence.
-/

namespace DataExpr.Query

/-- At most so many mappings are inside one another, and no sequence is an item of another. -/
inductive Layered : Nat → Value → Prop where
  | leaf {levels : Nat} {value : Value} (h : value.nesting = 0) : Layered levels value
  | mapping {levels : Nat} {entries : Entries Value}
      (h : ∀ item ∈ Entries.values entries, Layered levels item) :
      Layered (levels + 1) (.mapping entries)
  | sequence {levels : Nat} {items : List Value} (h : ∀ item ∈ items, Layered levels item)
      (hkind : ∀ item ∈ items, item.kind ≠ .array) : Layered levels (.sequence items)

/-- There may be one more sequence than two containers for each mapping, on the outside. -/
theorem Layered.nesting_le {levels : Nat} {value : Value} (h : Layered levels value) :
    value.nesting ≤ 2 * levels + 1 ∧ (value.kind ≠ .array → value.nesting ≤ 2 * levels) := by
  induction h with
  | leaf h =>
    rw [h]
    exact ⟨Nat.zero_le _, fun _ => Nat.zero_le _⟩
  | @mapping levels entries _ ih =>
    have hvalues : Value.itemsNesting (Entries.values entries) ≤ 2 * levels + 1 :=
      Value.itemsNesting_le fun item hitem => (ih item hitem).1
    rw [Value.nesting, Value.entriesNesting_eq]
    omega
  | @sequence levels items _ hkind ih =>
    have hitems : Value.itemsNesting items ≤ 2 * levels :=
      Value.itemsNesting_le fun item hitem => (ih item hitem).2 (hkind item hitem)
    refine ⟨?_, fun hne => absurd rfl hne⟩
    rw [Value.nesting]
    omega

/-! ## Filing -/

section

variable {levels : Nat} {entries : Entries Value} {value : Value}

theorem layered_mapping_iff :
    Layered (levels + 1) (.mapping entries) ↔
      ∀ item ∈ Entries.values entries, Layered levels item := by
  constructor
  · intro h
    cases h with
    | leaf h => simp [Value.nesting] at h
    | mapping h => exact h
  · exact .mapping

theorem layered_sequence_iff {items : List Value} :
    Layered levels (.sequence items) ↔
      (∀ item ∈ items, Layered levels item) ∧ ∀ item ∈ items, item.kind ≠ .array := by
  constructor
  · intro h
    cases h with
    | leaf h => simp [Value.nesting] at h
    | sequence h hkind => exact ⟨h, hkind⟩
  · exact fun h => .sequence h.1 h.2

theorem layered_nothing (h : 0 < levels) : Layered levels (.mapping []) := by
  obtain ⟨levels, rfl⟩ := Nat.exists_eq_add_one.2 h
  exact .mapping nofun

/-- Only a sequence that is there already grows, and only by a value that is none. -/
theorem layered_joined (hvalue : value.nesting = 0) (asList : Bool) {found? : Option Value}
    (h : ∀ found ∈ found?, Layered levels found) : Layered levels (joined asList value found?) := by
  have hkind : value.kind ≠ .array := by
    intro harray
    cases value <;> simp [Value.kind, Value.nesting] at harray hvalue
  have hsingle : Layered levels (.sequence [value]) :=
    .sequence (by simpa using Layered.leaf hvalue) (by simpa using hkind)
  rcases found? with _ | found
  · cases asList
    · exact .leaf hvalue
    · exact hsingle
  have hfound := h found rfl
  by_cases hsequence : found.kind = .array
  · cases found with
    | sequence items =>
      obtain ⟨hitems, hkinds⟩ := layered_sequence_iff.1 hfound
      refine .sequence ?_ ?_
      · exact List.forall_mem_append.2 ⟨hitems, List.forall_mem_singleton.2 (.leaf hvalue)⟩
      · exact List.forall_mem_append.2 ⟨hkinds, List.forall_mem_singleton.2 hkind⟩
    | _ => cases hsequence
  · rw [joined_of_kind_ne hsequence]
    refine .sequence ?_ ?_
    · exact List.forall_mem_cons.2 ⟨hfound, List.forall_mem_singleton.2 (.leaf hvalue)⟩
    · exact List.forall_mem_cons.2 ⟨hsequence, List.forall_mem_singleton.2 hkind⟩

theorem layered_collect (hvalue : value.nesting = 0) (asList : Bool) (key : String)
    (h : Layered (levels + 1) (.mapping entries)) :
    Layered (levels + 1) (.mapping (collect asList entries key value)) := by
  rw [layered_mapping_iff] at h ⊢
  rw [collect_eq]
  refine Entries.forall_mem_values_alter h (layered_joined hvalue asList fun found hfound => ?_)
  exact h found (Entries.mem_values_of_get? hfound)

theorem layered_of_insertPath? (hvalue : value.nesting = 0) {path : List String}
    (hpath : path.length ≤ levels) (h : Layered levels (.mapping entries))
    {result : Entries Value} (hinsert : insertPath? value path entries = some result) :
    Layered levels (.mapping result) := by
  induction path generalizing levels entries result with
  | nil => cases hinsert
  | cons key path ih =>
    obtain ⟨levels, rfl⟩ := Nat.exists_eq_add_one.2 (Nat.zero_lt_of_lt hpath)
    have hrest : path.length ≤ levels := Nat.le_of_succ_le_succ hpath
    rcases insertPath?_cases hinsert with
      ⟨asList, rfl⟩ | ⟨hpath, inner, further, hinner, hfurther, rfl⟩
    · exact layered_collect hvalue asList key h
    · have hlayered : Layered levels (.mapping inner) := by
        cases hinner with
        | new hget => exact layered_nothing (Nat.lt_of_lt_of_le (List.length_pos_iff.2 hpath) hrest)
        | mapping hget => exact layered_mapping_iff.1 h _ (Entries.mem_values_of_get? hget)
      rw [layered_mapping_iff] at h ⊢
      exact Entries.forall_mem_values_alter h (ih hrest hlayered hfurther)

end

/-! ## Reading -/

theorem length_pathOf_le (config : QueryConfig) (key : String) :
    (pathOf config key).length ≤ config.maxDepth + 2 := by
  unfold pathOf
  split
  · rename_i path hpath
    split at hpath
    · obtain ⟨base, groups, rest, -, hgroups, -, rfl⟩ := exists_bracketed_of_keyPath? hpath
      have hrest : (restSegments rest).length ≤ 1 := by
        rw [restSegments]
        split <;> simp
      simp only [List.length_append, List.length_cons]
      omega
    · cases hpath
  · simp

theorem nesting_toValue (typed : TypedText) : typed.toValue.nesting = 0 := by
  cases typed <;> rfl

theorem nesting_partValue (config : QueryConfig) (part : List Char) :
    (partValue config part).nesting = 0 :=
  nesting_toValue _

/-- One more part leaves the layers as they are, wherever its path leads. -/
theorem layered_addPart (config : QueryConfig) (part : List Char) {entries : Entries Value}
    (h : Layered (config.maxDepth + 2) (.mapping entries)) :
    Layered (config.maxDepth + 2) (.mapping (addPart config entries part).value) := by
  rw [value_addPart]
  split
  · exact h
  have hvalue := nesting_partValue config part
  rw [value_fileValue]
  cases hinsert : insertPath? (partValue config part) (pathOf config (partKey part)) entries with
  | none => exact layered_collect hvalue false _ h
  | some result => exact layered_of_insertPath? hvalue (length_pathOf_le config _) h hinsert

theorem layered_decodeParts (config : QueryConfig) (parts : List (List Char)) :
    Layered (config.maxDepth + 2) (.mapping (decodeParts config parts)) := by
  induction parts using List.reverseRecOn with
  | nil => exact layered_nothing (Nat.succ_pos _)
  | append_singleton parts part ih =>
    rw [decodeParts_concat]
    exact layered_addPart config part ih

/-! ## The pass over indices -/

theorem nesting_sequenceIndexedEntries {entries : Entries Value}
    (h : ∀ item ∈ Entries.values entries, (sequenceIndexed item).nesting = item.nesting) :
    (Value.mapping (sequenceIndexedEntries entries)).nesting = (Value.mapping entries).nesting := by
  rw [Value.nesting, Value.nesting, Value.entriesNesting_eq, Value.entriesNesting_eq,
    sequenceIndexedEntries_eq, Entries.values_mapValues, Value.itemsNesting_map h]

/-- A mapping that becomes a sequence has its values as items. -/
theorem nesting_sequenceIndexed (value : Value) :
    (sequenceIndexed value).nesting = value.nesting := by
  induction value using Value.induction_members with
  | step value ih =>
    cases value with
    | sequence items =>
      have hitems : Value.itemsNesting (items.map sequenceIndexed) = Value.itemsNesting items :=
        Value.itemsNesting_map ih
      rw [sequenceIndexed, sequenceIndexedItems_eq, Value.nesting, Value.nesting, hitems]
    | mapping entries =>
      have hentries := nesting_sequenceIndexedEntries ih
      rw [sequenceIndexed]
      split
      · rename_i items hitems
        rw [← hentries, Value.nesting, Value.nesting, Value.entriesNesting_eq,
          Value.itemsNesting_perm (perm_values_of_inIndexOrder? hitems)]
      · exact hentries
    | _ => rfl

/-! ## A query that nests as deep as possible -/

/-- Entries inside so many mappings, each under the name `a`. -/
def inMappings : Nat → Entries Value → Entries Value
  | 0, entries => entries
  | count + 1, entries => [("a", .mapping (inMappings count entries))]

/-- Mappings and sequences in turn, around two values. -/
def alternating (value : Value) : Nat → Entries Value
  | 0 => [("[", .sequence [value, value])]
  | count + 1 => [("a", .sequence [.mapping (alternating value count), value])]

/-- A key with so many groups. -/
def deepKey (count : Nat) : String :=
  keyOf ("a" :: List.replicate count "a")

/-- Keys of which the first two go on behind all groups that are read.  The others lead, one after
the other, to the mappings on the way to there, from inside. -/
def deepKeys (maxDepth : Nat) : List String :=
  [deepKey maxDepth ++ "[", deepKey maxDepth ++ "["] ++
    (List.range (maxDepth + 1)).reverse.map deepKey

/-- A query with these keys. -/
def deepQuery (maxDepth : Nat) : String :=
  "&".intercalate ((deepKeys maxDepth).map fun key => partOf [key] "")

section

variable {value : Value}

theorem nesting_alternating (hvalue : value.nesting = 0) (count : Nat) :
    (Value.mapping (alternating value count)).nesting = 2 * (count + 1) := by
  induction count with
  | zero => simp [alternating, Value.nesting, Value.entriesNesting, Value.itemsNesting, hvalue]
  | succ count ih =>
    simp [alternating, Value.nesting, Value.entriesNesting, Value.itemsNesting, hvalue] at ih ⊢
    omega

theorem inMappings_succ (count : Nat) (entries : Entries Value) :
    inMappings (count + 1) entries = inMappings count [("a", .mapping entries)] := by
  induction count with
  | zero => rfl
  | succ count ih => rw [inMappings, ih, inMappings]

theorem deepPath_ne {name : String} (hname : name ≠ "") (count : Nat) :
    List.replicate count "a" ++ [name] ≠ [] ∧ List.replicate count "a" ++ [name] ≠ [""] := by
  cases count <;> simp [List.replicate_succ, hname]

/-- A path through the mappings ends inside them. -/
theorem insertPath?_inMappings {name : String} (hname : name ≠ "") (value : Value) (count : Nat)
    (entries : Entries Value) :
    insertPath? value (List.replicate count "a" ++ [name]) (inMappings count entries) =
      some (inMappings count (collect false entries name value)) := by
  induction count with
  | zero => rfl
  | succ count ih =>
    obtain ⟨hpath, hlast⟩ := deepPath_ne hname count
    have hinner : LeadsInto (inMappings (count + 1) entries) "a" (inMappings count entries) :=
      .mapping rfl
    rw [List.replicate_succ, List.cons_append, hinner.insertPath?_eq hpath hlast, ih]
    rfl

/-- It makes them if there are none. -/
theorem insertPath?_nothing {name : String} (hname : name ≠ "") (value : Value) (count : Nat) :
    insertPath? value (List.replicate count "a" ++ [name]) [] =
      some (inMappings count [(name, value)]) := by
  induction count with
  | zero => rfl
  | succ count ih =>
    obtain ⟨hpath, hlast⟩ := deepPath_ne hname count
    have hinner : LeadsInto [] "a" [] := .new rfl
    rw [List.replicate_succ, List.cons_append, hinner.insertPath?_eq hpath hlast, ih]
    rfl

end

section

variable {config : QueryConfig}

theorem bracketed_deepKey (count : Nat) :
    Bracketed (deepKey count ++ "[") "a" (List.replicate count "a") "[" where
  spelled := rfl
  base_ne_empty := by decide
  not_mem_open := by decide
  not_mem_close group hgroup := by
    rw [List.eq_of_mem_replicate hgroup]
    decide
  opened _ := ⟨"", rfl⟩

theorem pathOf_deepKey_open (hnested : config.nestedKeys = true) :
    pathOf config (deepKey config.maxDepth ++ "[") =
      List.replicate (config.maxDepth + 1) "a" ++ ["["] := by
  have hread := keyPath?_length (bracketed_deepKey config.maxDepth)
  rw [List.length_replicate] at hread
  rw [pathOf, if_pos hnested, hread]
  rfl

theorem pathOf_deepKey (hnested : config.nestedKeys = true) {count : Nat}
    (hcount : count ≤ config.maxDepth) :
    pathOf config (deepKey count) = List.replicate count "a" ++ ["a"] := by
  have hread : keyPath? config.maxDepth (deepKey count) =
      if List.replicate count "a" = [] then none
      else some ⟨"a" :: List.replicate count "a", false⟩ := by
    refine keyPath?_keyOf (by decide) (by decide) (bracketed_deepKey count).not_mem_close ?_
    rwa [List.length_replicate]
  rw [pathOf, if_pos hnested, hread, ← List.replicate_succ']
  cases count <;> rfl

/-- Each key puts the mapping it leads to into a sequence. -/
theorem foldl_deepKeys (hnested : config.nestedKeys = true) (value : Value) {count : Nat}
    (hcount : count ≤ config.maxDepth + 1) (layers : Nat) :
    ((List.range count).reverse.map deepKey).foldl
        (fun entries key => (fileValue config entries key value).value)
        (inMappings count (alternating value layers)) =
      alternating value (layers + count) := by
  induction count generalizing layers with
  | zero => rfl
  | succ count ih =>
    have hstep : (fileValue config (inMappings (count + 1) (alternating value layers))
        (deepKey count) value).value = inMappings count (alternating value (layers + 1)) := by
      rw [value_fileValue, pathOf_deepKey hnested (Nat.le_of_succ_le_succ hcount),
        inMappings_succ, insertPath?_inMappings (by decide)]
      rfl
    rw [List.range_succ, List.reverse_append, List.reverse_singleton, List.singleton_append,
      List.map_cons, List.foldl_cons, hstep, ih (Nat.le_of_succ_le hcount)]
    rw [Nat.add_assoc, Nat.add_comm 1]

theorem deepKeys_ne_empty (maxDepth : Nat) : ∀ key ∈ deepKeys maxDepth, key ≠ "" := by
  have hdeep (count : Nat) : deepKey count ≠ "" := by
    rw [deepKey, keyOf, Ne, ← String.toList_eq_nil_iff]
    simp
  have hopen : deepKey maxDepth ++ "[" ≠ "" := by
    rw [Ne, ← String.toList_eq_nil_iff]
    simp
  rw [deepKeys, List.forall_mem_append, List.forall_mem_map]
  exact ⟨by simp [hopen], fun count _ => hdeep count⟩

/-- The first two keys make the innermost sequence, and the others the layers around it. -/
theorem decodeParts_deepQuery (hnested : config.nestedKeys = true) :
    decodeParts config (splitParts (deepQuery config.maxDepth)) =
      alternating (TypedText.infer config "").toValue (config.maxDepth + 1) := by
  rw [deepQuery, decodeParts_intercalate_partOf config (deepKeys_ne_empty config.maxDepth),
    deepKeys, List.foldl_append]
  generalize hvalue : (TypedText.infer config "").toValue = value
  have hkind : value.kind ≠ .array := by
    rw [← hvalue]
    cases TypedText.infer config "" <;> nofun
  have hjoined : collect false [("[", value)] "[" value = alternating value 0 := by
    rw [collect_eq, Entries.alter, if_pos rfl, joined_of_kind_ne hkind]
    rfl
  have hfirst : (fileValue config [] (deepKey config.maxDepth ++ "[") value).value =
      inMappings (config.maxDepth + 1) [("[", value)] := by
    rw [value_fileValue, pathOf_deepKey_open hnested, insertPath?_nothing (by decide)]
    rfl
  have hsecond : (fileValue config (inMappings (config.maxDepth + 1) [("[", value)])
      (deepKey config.maxDepth ++ "[") value).value =
        inMappings (config.maxDepth + 1) (alternating value 0) := by
    rw [value_fileValue, pathOf_deepKey_open hnested, insertPath?_inMappings (by decide), hjoined]
    rfl
  rw [List.foldl_cons, List.foldl_cons, List.foldl_nil, hfirst, hsecond,
    foldl_deepKeys hnested value (Nat.le_refl _), Nat.zero_add]

end

/-- However a query is made up, there are at most two containers in what is read for each segment
that a path may have: the base of its key, the brackets up to the limit, and a rest.  There are
queries with as many, unless the settings leave brackets alone. -/
theorem nesting_decode_le (config : QueryConfig) :
    (∀ query, (Value.mapping (decode config query).value).nesting ≤ 2 * (config.maxDepth + 2)) ∧
      (config.nestedKeys = true → ∃ query,
        (Value.mapping (decode config query).value).nesting = 2 * (config.maxDepth + 2)) := by
  have hpass (query : String) : (Value.mapping (decode config query).value).nesting =
      (Value.mapping (decodeParts config (splitParts query))).nesting := by
    rw [value_decode]
    split
    · exact nesting_sequenceIndexedEntries fun item _ => nesting_sequenceIndexed item
    · rfl
  refine ⟨fun query => ?_, fun hnested => ⟨deepQuery config.maxDepth, ?_⟩⟩
  · rw [hpass]
    exact (layered_decodeParts config (splitParts query)).nesting_le.2 nofun
  · rw [hpass, decodeParts_deepQuery hnested]
    exact nesting_alternating (nesting_toValue _) (config.maxDepth + 1)

theorem nesting_decode_le_default :
    ({} : QueryConfig).nestedKeys = true ∧
      ∃ query, (Value.mapping (decode {} query).value).nesting = 36 :=
  ⟨rfl, (nesting_decode_le {}).2 rfl⟩

end DataExpr.Query
