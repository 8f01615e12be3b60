import DataExpr.Proofs.Query.NormalForm
import DataExpr.Proofs.Query.Paths

/-!
# Reading back what was written

A mapping that is written as a query is read as its normal form (`decode_encode`), if
no name in it is empty or has a bracket and no scalar is too deep.

Its scalars are filed one after the other along their paths (`fileLeaf`).  Filing all
scalars under one key makes a mapping under that key out of what filing them from
nothing makes (`foldlM_under_of_new`), because the paths under a key come in one run.
From that the induction on values follows the data, and what has been filed in the
end is the mapping rebuilt, with mappings for sequences (`foldlM_entryLeafPaths`).
The pass over indices does the rest.
-/

namespace DataExpr

namespace Value

mutual

/-- The property holds of all keys of mappings in the value. -/
def KeysSatisfy (p : String → Prop) : Value → Prop
  | .sequence items => itemsKeysSatisfy p items
  | .mapping entries => entriesKeysSatisfy p entries
  | _ => True

/-- It holds of all keys in the items. -/
def itemsKeysSatisfy (p : String → Prop) : List Value → Prop
  | [] => True
  | item :: items => item.KeysSatisfy p ∧ itemsKeysSatisfy p items

/-- It holds of the keys of the entries and all keys in their values. -/
def entriesKeysSatisfy (p : String → Prop) : List (String × Value) → Prop
  | [] => True
  | (key, item) :: entries => p key ∧ item.KeysSatisfy p ∧ entriesKeysSatisfy p entries

end

end Value

namespace Query

open Value (under itemLeafPaths entryLeafPaths rebuildItems rebuildEntries)

/-! ## Names -/

/-- A name that a key can have in it. -/
structure PlainName (name : String) : Prop where
  ne_empty : name ≠ ""
  not_mem_open : '[' ∉ name.toList
  not_mem_close : ']' ∉ name.toList

theorem plainName_repr (n : Nat) : PlainName (Nat.repr n) := by
  have hdigit : ∀ c ∈ (Nat.repr n).toList, c.isDigit = true := by
    intro c hc
    rw [Nat.toList_repr] at hc
    exact Nat.isDigit_of_mem_toDigits (by decide) (by decide) hc
  refine ⟨?_, fun h => absurd (hdigit _ h) (by decide), fun h => absurd (hdigit _ h) (by decide)⟩
  rw [Ne, ← String.toList_eq_nil_iff, Nat.toList_repr]
  exact Nat.toDigits_ne_nil

/-- All names on a path are plain. -/
def PlainPath (path : List String) : Prop :=
  path ≠ [] ∧ ∀ name ∈ path, PlainName name

theorem plainPath_under {key : String} (hkey : PlainName key) {leaf : List String × Value}
    (h : leaf.1 = [] ∨ PlainPath leaf.1) : PlainPath (under key leaf).1 := by
  refine ⟨List.cons_ne_nil _ _, ?_⟩
  rw [under, List.forall_mem_cons]
  refine ⟨hkey, ?_⟩
  rcases h with h | h
  · simp [h]
  · exact h.2

mutual

/-- Keys and positions are all that is on a path. -/
theorem plainPath_leafPaths {value : Value} (h : value.KeysSatisfy PlainName) :
    ∀ leaf ∈ value.leafPaths, leaf.1 = [] ∨ PlainPath leaf.1 := by
  match value with
  | .null => simp [Value.leafPaths]
  | .sequence items => exact fun leaf hleaf => .inr (plainPath_itemLeafPaths 0 h leaf hleaf)
  | .mapping entries => exact fun leaf hleaf => .inr (plainPath_entryLeafPaths h leaf hleaf)
  | .bool _ | .number _ | .text _ | .date _ | .pattern _ => simp [Value.leafPaths]

theorem plainPath_itemLeafPaths (position : Nat) {items : List Value}
    (h : Value.itemsKeysSatisfy PlainName items) :
    ∀ leaf ∈ itemLeafPaths position items, PlainPath leaf.1 := by
  match items with
  | [] => simp [itemLeafPaths]
  | item :: items =>
    rw [itemLeafPaths, List.forall_mem_append, List.forall_mem_map]
    exact ⟨fun leaf hleaf =>
        plainPath_under (plainName_repr position) (plainPath_leafPaths h.1 leaf hleaf),
      plainPath_itemLeafPaths (position + 1) h.2⟩

theorem plainPath_entryLeafPaths {entries : List (String × Value)}
    (h : Value.entriesKeysSatisfy PlainName entries) :
    ∀ leaf ∈ entryLeafPaths entries, PlainPath leaf.1 := by
  match entries with
  | [] => simp [entryLeafPaths]
  | (key, item) :: entries =>
    rw [entryLeafPaths, List.forall_mem_append, List.forall_mem_map]
    exact ⟨fun leaf hleaf => plainPath_under h.1 (plainPath_leafPaths h.2.1 leaf hleaf),
      plainPath_entryLeafPaths h.2.2⟩

end

/-! ## Filing along paths -/

/-- Files a scalar along its path. -/
def fileLeaf (entries : Entries Value) (leaf : List String × Value) : Option (Entries Value) :=
  insertPath? (typedValue leaf.2.display) leaf.1 entries

/-- A longer path, behind whose first key no other starts, opens a mapping there. -/
theorem fileLeaf_under_of_new {entries : Entries Value} {key : String}
    (h : key ∉ Entries.keys entries) {leaf : List String × Value} (hpath : PlainPath leaf.1) :
    fileLeaf entries (under key leaf) =
      (fileLeaf [] leaf).map fun inner => entries ++ [(key, .mapping inner)] := by
  have hne : leaf.1 ≠ [""] := fun heq =>
    (hpath.2 "" (heq ▸ List.mem_singleton_self "")).ne_empty rfl
  rw [fileLeaf, under, insertPath?, if_neg hpath.1, if_neg hne, Entries.get?_eq_none_iff.2 h]
  simp only [Entries.insert, Entries.alter_of_new _ h]
  rfl

/-- Another goes on in that mapping. -/
theorem fileLeaf_under_concat {entries inner : Entries Value} {key : String}
    (h : key ∉ Entries.keys entries) {leaf : List String × Value} (hpath : PlainPath leaf.1) :
    fileLeaf (entries ++ [(key, .mapping inner)]) (under key leaf) =
      (fileLeaf inner leaf).map fun inner => entries ++ [(key, .mapping inner)] := by
  have hne : leaf.1 ≠ [""] := fun heq =>
    (hpath.2 "" (heq ▸ List.mem_singleton_self "")).ne_empty rfl
  rw [fileLeaf, under, insertPath?, if_neg hpath.1, if_neg hne, Entries.get?_concat h]
  simp only [Entries.insert, Entries.alter_concat _ h]
  rfl

theorem foldlM_under_concat {entries : Entries Value} {key : String}
    (h : key ∉ Entries.keys entries) {leaves : List (List String × Value)}
    (hpaths : ∀ leaf ∈ leaves, PlainPath leaf.1) (inner : Entries Value) :
    (leaves.map (under key)).foldlM fileLeaf (entries ++ [(key, .mapping inner)]) =
      (leaves.foldlM fileLeaf inner).map fun inner => entries ++ [(key, .mapping inner)] := by
  induction leaves generalizing inner with
  | nil => rfl
  | cons leaf leaves ih =>
    rw [List.forall_mem_cons] at hpaths
    rw [List.map_cons, List.foldlM_cons, List.foldlM_cons, fileLeaf_under_concat h hpaths.1]
    cases fileLeaf inner leaf with
    | none => rfl
    | some inner => exact ih hpaths.2 inner

/-- A run of paths with the same first key fills one mapping. -/
theorem foldlM_under_of_new {entries : Entries Value} {key : String}
    (h : key ∉ Entries.keys entries) {leaves : List (List String × Value)} (hne : leaves ≠ [])
    (hpaths : ∀ leaf ∈ leaves, PlainPath leaf.1) :
    (leaves.map (under key)).foldlM fileLeaf entries =
      (leaves.foldlM fileLeaf []).map fun inner => entries ++ [(key, .mapping inner)] := by
  cases leaves with
  | nil => exact absurd rfl hne
  | cons leaf leaves =>
    rw [List.forall_mem_cons] at hpaths
    rw [List.map_cons, List.foldlM_cons, List.foldlM_cons, fileLeaf_under_of_new h hpaths.1]
    cases fileLeaf [] leaf with
    | none => rfl
    | some inner => exact foldlM_under_concat h hpaths.2 inner

/-! ## Filing a whole value -/

mutual

/-- A value has paths exactly if it holds a scalar. -/
theorem holdsScalar_iff (value : Value) : value.holdsScalar ↔ value.leafPaths ≠ [] := by
  match value with
  | .null => simp [Value.holdsScalar, Value.leafPaths]
  | .sequence items => exact itemsHoldScalar_iff 0 items
  | .mapping entries => exact entriesHoldScalar_iff entries
  | .bool _ | .number _ | .text _ | .date _ | .pattern _ =>
    simp [Value.holdsScalar, Value.leafPaths]

theorem itemsHoldScalar_iff (position : Nat) (items : List Value) :
    Value.itemsHoldScalar items ↔ itemLeafPaths position items ≠ [] := by
  match items with
  | [] => simp [Value.itemsHoldScalar, itemLeafPaths]
  | item :: items =>
    simp only [Value.itemsHoldScalar, Bool.or_eq_true, holdsScalar_iff item,
      itemsHoldScalar_iff (position + 1) items, itemLeafPaths, ne_eq, List.append_eq_nil_iff,
      List.map_eq_nil_iff, not_and_or]

theorem entriesHoldScalar_iff (entries : List (String × Value)) :
    Value.entriesHoldScalar entries ↔ entryLeafPaths entries ≠ [] := by
  match entries with
  | [] => simp [Value.entriesHoldScalar, entryLeafPaths]
  | (key, item) :: entries =>
    simp only [Value.entriesHoldScalar, Bool.or_eq_true, holdsScalar_iff item,
      entriesHoldScalar_iff entries, entryLeafPaths, ne_eq, List.append_eq_nil_iff,
      List.map_eq_nil_iff, not_and_or]

end

/-- What rebuilding a value adds under a key. -/
def rebuiltUnder (key : String) (value : Value) : Entries Value :=
  if value.holdsScalar then [(key, value.rebuild .mapping)] else []

/-- No other key is added. -/
theorem mem_keys_append_rebuiltUnder {entries : Entries Value} {key other : String} {value : Value}
    (h : other ∈ Entries.keys (entries ++ rebuiltUnder key value)) :
    other ∈ Entries.keys entries ∨ other = key := by
  rw [rebuiltUnder] at h
  split at h
  · simpa [Entries.keys] using h
  · exact .inl (by simpa using h)

theorem rebuildItems_cons (position : Nat) (item : Value) (items : List Value) :
    rebuildItems .mapping position (item :: items) =
      rebuiltUnder (Nat.repr position) item ++ rebuildItems .mapping (position + 1) items := by
  rw [rebuildItems, rebuiltUnder]
  split <;> rfl

theorem rebuildEntries_cons (key : String) (item : Value) (entries : List (String × Value)) :
    rebuildEntries .mapping ((key, item) :: entries) =
      rebuiltUnder key item ++ rebuildEntries .mapping entries := by
  rw [rebuildEntries, rebuiltUnder]
  split <;> rfl

/-- A container is filed under a new key, if its scalars by themselves are filed. -/
theorem foldlM_under_container {entries : Entries Value} {key : String}
    (h : key ∉ Entries.keys entries) {value : Value} {inner : Entries Value}
    (hpaths : ∀ leaf ∈ value.leafPaths, PlainPath leaf.1)
    (hinner : value.leafPaths.foldlM fileLeaf [] = some inner)
    (hvalue : value.rebuild .mapping = .mapping inner) :
    (value.leafPaths.map (under key)).foldlM fileLeaf entries =
      some (entries ++ rebuiltUnder key value) := by
  rw [rebuiltUnder]
  split
  · rename_i hscalar
    rw [foldlM_under_of_new h ((holdsScalar_iff value).1 hscalar) hpaths, hinner, hvalue]
    rfl
  · rename_i hscalar
    have hnil : value.leafPaths = [] := by
      rwa [holdsScalar_iff, not_not] at hscalar
    rw [hnil, List.append_nil]
    rfl

mutual

/-- Filing the scalars of a value under a new key adds the value rebuilt. -/
theorem foldlM_under_leafPaths {value : Value} (hwellFormed : value.WellFormed)
    (hkeys : value.KeysSatisfy PlainName) {entries : Entries Value} {key : String}
    (h : key ∉ Entries.keys entries) :
    (value.leafPaths.map (under key)).foldlM fileLeaf entries =
      some (entries ++ rebuiltUnder key value) := by
  match value with
  | .null => simp [Value.leafPaths, rebuiltUnder, Value.holdsScalar]
  | .sequence items =>
    refine foldlM_under_container h (plainPath_itemLeafPaths 0 hkeys) ?_ rfl
    exact foldlM_itemLeafPaths hwellFormed hkeys fun _ _ => List.not_mem_nil
  | .mapping inner =>
    refine foldlM_under_container h (plainPath_entryLeafPaths hkeys) ?_ rfl
    exact foldlM_entryLeafPaths hwellFormed.1 hwellFormed.2 hkeys fun _ _ => List.not_mem_nil
  | .bool _ | .number _ | .text _ | .date _ | .pattern _ =>
    simp [Value.leafPaths, under, fileLeaf, insertPath?, collect, Entries.alter_of_new _ h,
      rebuiltUnder, Value.holdsScalar, Value.rebuild]

/-- Filing the scalars of items adds the items rebuilt, if their positions are new. -/
theorem foldlM_itemLeafPaths {position : Nat} {items : List Value}
    (hwellFormed : Value.itemsWellFormed items) (hkeys : Value.itemsKeysSatisfy PlainName items)
    {entries : Entries Value} (h : ∀ i ≥ position, Nat.repr i ∉ Entries.keys entries) :
    (itemLeafPaths position items).foldlM fileLeaf entries =
      some (entries ++ rebuildItems .mapping position items) := by
  match items with
  | [] => simp [itemLeafPaths, rebuildItems]
  | item :: items =>
    have hitem := foldlM_under_leafPaths hwellFormed.1 hkeys.1 (h position (Nat.le_refl _))
    have hrest : ∀ i ≥ position + 1,
        Nat.repr i ∉ Entries.keys (entries ++ rebuiltUnder (Nat.repr position) item) := by
      intro i hi hmem
      rcases mem_keys_append_rebuiltUnder hmem with hmem | heq
      · exact h i (Nat.le_of_succ_le hi) hmem
      · have hposition : i = position := repr_injective heq
        omega
    have hitems := foldlM_itemLeafPaths hwellFormed.2 hkeys.2 hrest
    rw [itemLeafPaths, List.foldlM_append, hitem, Option.bind_eq_bind, Option.bind_some, hitems,
      rebuildItems_cons, List.append_assoc]

/-- Filing the scalars of entries adds the entries rebuilt, if their keys are new. -/
theorem foldlM_entryLeafPaths {added : List (String × Value)} (hunique : Entries.Unique added)
    (hwellFormed : Value.entriesWellFormed added) (hkeys : Value.entriesKeysSatisfy PlainName added)
    {entries : Entries Value} (h : ∀ key ∈ Entries.keys added, key ∉ Entries.keys entries) :
    (entryLeafPaths added).foldlM fileLeaf entries =
      some (entries ++ rebuildEntries .mapping added) := by
  match added with
  | [] => simp [entryLeafPaths, rebuildEntries]
  | (key, item) :: added =>
    obtain ⟨hkey, hunique⟩ := List.nodup_cons.1 hunique
    have hitem := foldlM_under_leafPaths hwellFormed.1 hkeys.2.1 (h key List.mem_cons_self)
    have hrest : ∀ name ∈ Entries.keys added,
        name ∉ Entries.keys (entries ++ rebuiltUnder key item) := by
      intro name hname hmem
      rcases mem_keys_append_rebuiltUnder hmem with hmem | rfl
      · exact h name (List.mem_cons_of_mem _ hname) hmem
      · exact hkey hname
    have hadded := foldlM_entryLeafPaths hunique hwellFormed.2 hkeys.2.2 hrest
    rw [entryLeafPaths, List.foldlM_append, hitem, Option.bind_eq_bind, Option.bind_some, hadded,
      rebuildEntries_cons, List.append_assoc]

end

/-! ## Filing parts -/

theorem keyOf_ne_empty {path : List String} (h : PlainPath path) : keyOf path ≠ "" := by
  obtain ⟨hpath, hnames⟩ := h
  cases path with
  | nil => exact absurd rfl hpath
  | cons base names =>
    rw [Ne, ← String.toList_eq_nil_iff, keyOf, String.toList_append, List.append_eq_nil_iff,
      String.toList_eq_nil_iff]
    exact fun heq => (hnames base List.mem_cons_self).ne_empty heq.1

/-- The part of a scalar files its value along its path, if that can be read. -/
theorem partLeaf_partOfLeaf {leaf : List String × Value} (hpath : PlainPath leaf.1)
    (hdepth : leaf.1.tail.length ≤ 16) :
    partLeaf {} (partOfLeaf leaf).toList = (leaf.1, typedValue leaf.2.display) := by
  obtain ⟨_ | ⟨base, names⟩, value⟩ := leaf
  · exact absurd rfl hpath.1
  have hnames := List.forall_mem_cons.1 hpath.2
  have hread := keyPath?_keyOf hnames.1.ne_empty hnames.1.not_mem_open
    (fun name hname => (hnames.2 name hname).not_mem_close) hdepth
  rw [partLeaf, partPath, partOfLeaf, partKey_partOf, partValue_partOf, ← typedValue, pathOf,
    if_pos rfl, hread]
  cases names with
  | nil => simp [keyOf, brackets]
  | cons name names => rfl

theorem decodeParts_map_partOfLeaf {leaves : List (List String × Value)}
    (hpaths : ∀ leaf ∈ leaves, PlainPath leaf.1)
    (hdepth : ∀ leaf ∈ leaves, leaf.1.tail.length ≤ 16) {result : Entries Value}
    (hfile : leaves.foldlM fileLeaf [] = some result) :
    decodeParts {} (leaves.map fun leaf => (partOfLeaf leaf).toList) = result := by
  apply decodeParts_of_fileAll
  · rw [List.forall_mem_map]
    intro leaf hleaf
    rw [partOfLeaf, partKey_partOf]
    exact keyOf_ne_empty (hpaths leaf hleaf)
  · have hleaves : (leaves.map fun leaf => partLeaf {} (partOfLeaf leaf).toList) =
        leaves.map fun leaf => (leaf.1, typedValue leaf.2.display) :=
      List.map_congr_left fun leaf hleaf =>
        partLeaf_partOfLeaf (hpaths leaf hleaf) (hdepth leaf hleaf)
    rw [List.map_map, Function.comp_def, hleaves, fileAll, List.foldlM_map]
    exact hfile

/-! ## The round trip -/

/-- The mappings that are written and read without loss of structure: names are not
empty and have no brackets, and a scalar is at most 16 names below its outermost one. -/
structure Writable (entries : Entries Value) : Prop where
  wellFormed : (Value.mapping entries).WellFormed
  keys : Value.entriesKeysSatisfy PlainName entries
  depth : ∀ leaf ∈ entryLeafPaths entries, leaf.1.tail.length ≤ 16

/-- A written mapping is read as its normal form, and so a stable one as itself. -/
theorem decode_encode {entries : Entries Value} (h : Writable entries) :
    (decode {} (encode (.mapping entries) none)).value = Value.normalEntries entries ∧
      (Value.entriesStable entries →
        (decode {} (encode (.mapping entries) none)).value = entries) := by
  suffices hdecode :
      (decode {} (encode (.mapping entries) none)).value = Value.normalEntries entries from
    ⟨hdecode, fun hstable => hdecode.trans (normalEntries_of_stable hstable)⟩
  have hfile : (entryLeafPaths entries).foldlM fileLeaf [] =
      some ([] ++ rebuildEntries .mapping entries) :=
    foldlM_entryLeafPaths h.wellFormed.1 h.wellFormed.2 h.keys fun _ _ => List.not_mem_nil
  have hparts : decodeParts {} (splitParts (encode (.mapping entries) none)) =
      rebuildEntries .mapping entries := by
    rw [splitParts_encode]
    split
    · rename_i hnil
      rw [hnil] at hfile
      exact Option.some.inj hfile
    · exact decodeParts_map_partOfLeaf (plainPath_entryLeafPaths h.keys) h.depth hfile
  rw [value_decode, if_pos rfl, hparts, sequenceIndexedEntries_rebuildEntries]
  rfl

/-- A mapping with a null, an empty container, a sequence with a hole, numbered keys out
of order, and the separators of queries in its texts. -/
def mixedEntries : Entries Value :=
  [("a&b", .sequence [.text "x=1", .null, .mapping [("1", .text "y"), ("0", .text "z?")]]),
    ("c", .null), ("d", .mapping [])]

/-- The hole makes the outer sequence a mapping, and the numbered keys a sequence. -/
theorem decode_encode_mixedEntries :
    Writable mixedEntries ∧
      (decode {} (encode (.mapping mixedEntries) none)).value =
        [("a&b", .mapping [("0", .text "x=1"), ("2", .sequence [.text "z?", .text "y"])])] := by
  have hplain : ∀ name ∈ ["a&b", "1", "0", "c", "d"], PlainName name := by
    intro name hname
    have hall : ∀ name ∈ ["a&b", "1", "0", "c", "d"],
        name ≠ "" ∧ '[' ∉ name.toList ∧ ']' ∉ name.toList := by
      decide
    obtain ⟨hempty, hopen, hclose⟩ := hall name hname
    exact ⟨hempty, hopen, hclose⟩
  have hwritable : Writable mixedEntries := by
    refine ⟨?_, ?_, ?_⟩
    · simp [mixedEntries, Value.WellFormed, Value.entriesWellFormed, Value.itemsWellFormed,
        Entries.Unique, Entries.keys]
    · simp [mixedEntries, Value.KeysSatisfy, Value.entriesKeysSatisfy, Value.itemsKeysSatisfy,
        hplain]
    · simp [mixedEntries, entryLeafPaths, itemLeafPaths, Value.leafPaths, under]
  exact ⟨hwritable, (decode_encode hwritable).1⟩

end Query

end DataExpr
