import DataExpr.Proofs.Query.Conservation
import DataExpr.Proofs.Text.Percent
import DataExpr.Proofs.Text.Split
import DataExpr.Query.Encoding

/-!
# Queries as lists of paths

A query that is written from a value has a part for every scalar in the value, and
the part's key is the scalar's path.

* `Value.leafPaths` are the paths of all scalars, in the order of the value.
* `keyOf` is the key of a path, such as `outer[inner][0]`, and `partOf` the part for a
  path and a text.  `parts_eq` and `splitAll_encode` say that queries are written from,
  and split into, just these parts.
* `partKey_partOf` and `partValue_partOf` read a part back, and `keyPath?_keyOf` gives
  the path of a key, if no name on it has a bracket.
* `partPath` is the path along which a part files its value.  Parts that are all filed leave
  what filing their values leaves (`decodeParts_of_fileAll`).
-/

namespace DataExpr

namespace Value

/-- A path inside what is under a key, from outside. -/
def under (key : String) (leaf : List String × Value) : List String × Value :=
  (key :: leaf.1, leaf.2)

mutual

/-- The scalars in a value with the keys and positions that lead to them.  Null is no
scalar. -/
def leafPaths : Value → List (List String × Value)
  | .null => []
  | .sequence items => itemLeafPaths 0 items
  | .mapping entries => entryLeafPaths entries
  | scalar => [([], scalar)]

/-- The scalars in items, the first of which is at a position. -/
def itemLeafPaths (position : Nat) : List Value → List (List String × Value)
  | [] => []
  | item :: items =>
      (leafPaths item).map (under (Nat.repr position)) ++ itemLeafPaths (position + 1) items

/-- The scalars in entries. -/
def entryLeafPaths : List (String × Value) → List (List String × Value)
  | [] => []
  | (key, item) :: entries =>
      (leafPaths item).map (under key) ++ entryLeafPaths entries

end

/-- The scalars inside a container.  Nothing is inside other values. -/
def leavesInside : Value → List (List String × Value)
  | .sequence items => itemLeafPaths 0 items
  | .mapping entries => entryLeafPaths entries
  | _ => []

end Value

namespace Query

/-! ## Keys and parts -/

/-- Names in brackets. -/
def brackets : List String → String
  | [] => ""
  | name :: names => "[" ++ name ++ "]" ++ brackets names

/-- The key of a path. -/
def keyOf : List String → String
  | [] => ""
  | base :: names => base ++ brackets names

/-- The part of a query for a path and a text. -/
def partOf (path : List String) (text : String) : String :=
  keyOf (path.map Text.Percent.encode) ++ "=" ++ Text.Percent.encode text

/-- The part for a scalar. -/
def partOfLeaf (leaf : List String × Value) : String :=
  partOf leaf.1 leaf.2.display

theorem brackets_append (names others : List String) :
    brackets (names ++ others) = brackets names ++ brackets others := by
  induction names with
  | nil => simp [brackets]
  | cons name names ih => simp only [List.cons_append, brackets, ih, String.append_assoc]

theorem keyOf_concat {path : List String} (h : path ≠ []) (name : String) :
    keyOf (path ++ [name]) = keyOf path ++ "[" ++ name ++ "]" := by
  cases path with
  | nil => exact absurd rfl h
  | cons base names => simp [keyOf, brackets_append, brackets, String.append_assoc]

/-! ## Writing -/

/-- The outer key that writing has inside the container at a path. -/
def outerOf (path : List String) : Option String :=
  if path = [] then none else some (keyOf (path.map Text.Percent.encode))

theorem keyWithin_outerOf (path : List String) (name : String) :
    keyWithin (outerOf path) name = keyOf ((path ++ [name]).map Text.Percent.encode) := by
  by_cases h : path = []
  · simp [h, outerOf, keyWithin, keyOf, brackets]
  · rw [outerOf, if_neg h, keyWithin, List.map_append, List.map_cons, List.map_nil,
      keyOf_concat (by simpa using h)]

/-- A path in a container, from further out. -/
def within (path : List String) (leaf : List String × Value) : List String × Value :=
  (path ++ leaf.1, leaf.2)

mutual

/-- A value at a path is written as the parts of its scalars. -/
theorem partsAt_eq {path : List String} (h : path ≠ []) (value : Value) :
    partsAt (keyOf (path.map Text.Percent.encode)) value =
      value.leafPaths.map fun leaf => partOfLeaf (within path leaf) := by
  match value with
  | .null => rfl
  | .sequence items =>
    have hitems := itemParts_eq path 0 items
    rw [outerOf, if_neg h] at hitems
    rw [partsAt, Value.leafPaths, hitems]
  | .mapping entries =>
    have hentries := entryParts_eq path entries
    rw [outerOf, if_neg h] at hentries
    rw [partsAt, Value.leafPaths, hentries]
  | .bool _ | .number _ | .text _ | .date _ | .pattern _ =>
    simp [partsAt, Value.leafPaths, partOfLeaf, partOf, within, Value.display]

theorem itemParts_eq (path : List String) (position : Nat) (items : List Value) :
    itemParts (outerOf path) position items =
      (Value.itemLeafPaths position items).map fun leaf => partOfLeaf (within path leaf) := by
  match items with
  | [] => rfl
  | item :: items =>
    rw [itemParts, keyWithin_outerOf, partsAt_eq (by simp),
      itemParts_eq path (position + 1) items, Value.itemLeafPaths, List.map_append, List.map_map]
    simp [Function.comp_def, within, Value.under]

theorem entryParts_eq (path : List String) (entries : List (String × Value)) :
    entryParts (outerOf path) entries =
      (Value.entryLeafPaths entries).map fun leaf => partOfLeaf (within path leaf) := by
  match entries with
  | [] => rfl
  | (key, item) :: entries =>
    rw [entryParts, keyWithin_outerOf, partsAt_eq (by simp),
      entryParts_eq path entries, Value.entryLeafPaths, List.map_append, List.map_map]
    simp [Function.comp_def, within, Value.under]

end

/-- A container is written as the parts of the scalars inside it. -/
theorem parts_eq (value : Value) :
    parts none value = value.leavesInside.map partOfLeaf := by
  cases value with
  | sequence items => exact itemParts_eq [] 0 items
  | mapping entries => exact entryParts_eq [] entries
  | _ => rfl

/-! ## Splitting -/

section

variable {c : Char}

theorem not_mem_brackets {names : List String} (hopen : c ≠ '[') (hclose : c ≠ ']')
    (h : ∀ name ∈ names, c ∉ name.toList) : c ∉ (brackets names).toList := by
  induction names with
  | nil => simp [brackets]
  | cons name names ih =>
    rw [List.forall_mem_cons] at h
    simp [brackets, hopen, hclose, h.1, ih h.2]

/-- The key of an encoded path has only the characters of encoded texts and brackets. -/
theorem not_mem_keyOf (hwritten : Text.Percent.isWritten c = false) (hopen : c ≠ '[')
    (hclose : c ≠ ']') (path : List String) :
    c ∉ (keyOf (path.map Text.Percent.encode)).toList := by
  cases path with
  | nil => simp [keyOf]
  | cons base names =>
    rw [List.map_cons, keyOf, String.toList_append, List.mem_append, not_or]
    refine ⟨Text.Percent.not_mem_encode hwritten, not_mem_brackets hopen hclose ?_⟩
    intro name hname
    obtain ⟨plain, -, rfl⟩ := List.mem_map.1 hname
    exact Text.Percent.not_mem_encode hwritten

theorem not_mem_partOf (hwritten : Text.Percent.isWritten c = false) (hopen : c ≠ '[')
    (hclose : c ≠ ']') (heq : c ≠ '=') (path : List String) (text : String) :
    c ∉ (partOf path text).toList := by
  simp [partOf, not_mem_keyOf hwritten hopen hclose, heq, Text.Percent.not_mem_encode hwritten]

end

theorem cutAt_partOf (path : List String) (text : String) :
    Text.cutAt '=' (partOf path text).toList =
      ((keyOf (path.map Text.Percent.encode)).toList, (Text.Percent.encode text).toList) := by
  have hkey : '=' ∉ (keyOf (path.map Text.Percent.encode)).toList :=
    not_mem_keyOf (by decide) (by decide) (by decide) path
  rw [partOf, String.toList_append, String.toList_append, List.append_assoc]
  exact Text.cutAt_append hkey _

/-- A query that does not start with a question mark is split at its separators only. -/
theorem splitParts_of_head?_ne {query : String} (h : query.toList.head? ≠ some '?') :
    splitParts query = Text.splitAll '&' query.toList := by
  rw [splitParts]
  split
  · rename_i heq
    rw [heq] at h
    exact absurd rfl h
  · rfl

/-- The pieces of a query that is written from a value. -/
def pieces (value : Value) : List (List Char) :=
  value.leavesInside.map fun leaf => (partOfLeaf leaf).toList

theorem toList_encode (value : Value) :
    (encode value none).toList = ['&'].intercalate (pieces value) := by
  rw [encode, parts_eq, String.toList_intercalate, List.map_map]
  rfl

theorem not_mem_of_mem_pieces {value : Value} {c : Char}
    (hwritten : Text.Percent.isWritten c = false) (hopen : c ≠ '[') (hclose : c ≠ ']')
    (heq : c ≠ '=') : ∀ piece ∈ pieces value, c ∉ piece := by
  intro piece hpiece
  obtain ⟨leaf, -, rfl⟩ := List.mem_map.1 hpiece
  exact not_mem_partOf hwritten hopen hclose heq _ _

/-- A written query is split into the parts of the scalars. -/
theorem splitAll_encode (value : Value) :
    Text.splitAll '&' (encode value none).toList =
      if value.leavesInside = [] then [[]] else pieces value := by
  have hamp : ∀ piece ∈ pieces value, '&' ∉ piece :=
    not_mem_of_mem_pieces (by decide) (by decide) (by decide) (by decide)
  rw [toList_encode, Text.splitAll_intercalate hamp]
  simp only [pieces, List.map_eq_nil_iff]

theorem question_not_mem_encode (value : Value) : '?' ∉ (encode value none).toList := by
  have hmark : ∀ piece ∈ pieces value, '?' ∉ piece :=
    not_mem_of_mem_pieces (by decide) (by decide) (by decide) (by decide)
  rw [toList_encode]
  exact Text.not_mem_intercalate (by decide) hmark

/-- A written query has no question mark, which would be left out at its start. -/
theorem splitParts_encode (entries : Entries Value) :
    splitParts (encode (.mapping entries) none) =
      if Value.entryLeafPaths entries = [] then [[]]
      else (Value.entryLeafPaths entries).map fun leaf => (partOfLeaf leaf).toList := by
  rw [splitParts_of_head?_ne, splitAll_encode]
  · rfl
  · exact fun h => question_not_mem_encode _ (List.mem_of_head? h)

/-! ## Reading -/

theorem value_unescape {raw : List Char} {text : String}
    (h : Text.Percent.decode? (String.ofList raw) = some text) : (unescape raw).value = text := by
  simp [unescape, h]

theorem writes_brackets (names : List String) :
    Text.Percent.Writes (brackets (names.map Text.Percent.encode)) (brackets names) := by
  induction names with
  | nil => exact fun _ => rfl
  | cons name names ih =>
    have hopen : Text.Percent.Writes "[" "[" :=
      Text.Percent.writes_ascii (c := '[') (by decide) (by decide)
    have hclose : Text.Percent.Writes "]" "]" :=
      Text.Percent.writes_ascii (c := ']') (by decide) (by decide)
    exact ((hopen.append (Text.Percent.writes_encode name)).append hclose).append ih

theorem writes_keyOf (path : List String) :
    Text.Percent.Writes (keyOf (path.map Text.Percent.encode)) (keyOf path) := by
  cases path with
  | nil => exact fun _ => rfl
  | cons base names =>
    exact (Text.Percent.writes_encode base).append (writes_brackets names)

theorem partKey_partOf (path : List String) (text : String) :
    partKey (partOf path text).toList = keyOf path := by
  rw [partKey, cutAt_partOf]
  apply value_unescape
  rw [String.ofList_toList]
  exact (writes_keyOf path).decode?_eq

theorem partValue_partOf (config : QueryConfig) (path : List String) (text : String) :
    partValue config (partOf path text).toList = (TypedText.infer config text).toValue := by
  have htext : (unescape (Text.Percent.encode text).toList).value = text := by
    apply value_unescape
    rw [String.ofList_toList, Text.Percent.decode?_encode]
  rw [partValue, cutAt_partOf, htext]

/-- The part for a single key files its value there. -/
theorem value_addPart_partOf (config : QueryConfig) {key : String} (hkey : key ≠ "") (text : String)
    (entries : Entries Value) :
    (addPart config entries (partOf [key] text).toList).value =
      (fileValue config entries key (TypedText.infer config text).toValue).value := by
  have hpart : partKey (partOf [key] text).toList = key := by
    rw [partKey_partOf]
    simp [keyOf, brackets]
  rw [value_addPart, hpart, if_neg hkey, partValue_partOf]

/-- A query that is joined from parts is read part by part. -/
theorem decodeParts_splitParts (config : QueryConfig) {parts : List String}
    (hseparator : ∀ part ∈ parts, '&' ∉ part.toList)
    (hmark : ∀ part ∈ parts, part.toList.head? ≠ some '?') :
    decodeParts config (splitParts ("&".intercalate parts)) =
      decodeParts config (parts.map String.toList) := by
  have hchars : ("&".intercalate parts).toList = ['&'].intercalate (parts.map String.toList) :=
    String.toList_intercalate
  have hhead : ("&".intercalate parts).toList.head? ≠ some '?' := by
    rw [hchars]
    exact Text.head?_intercalate_ne (by decide) (List.forall_mem_map.2 hmark)
  rw [splitParts_of_head?_ne hhead, hchars,
    Text.splitAll_intercalate (List.forall_mem_map.2 hseparator)]
  split
  · rename_i hnil
    rw [hnil]
    rfl
  · rfl

/-- A query of single keys is read key by key. -/
theorem decodeParts_intercalate_partOf (config : QueryConfig) {keys : List String}
    (hkeys : ∀ key ∈ keys, key ≠ "") (text : String) :
    decodeParts config (splitParts ("&".intercalate (keys.map fun key => partOf [key] text))) =
      keys.foldl (fun entries key =>
        (fileValue config entries key (TypedText.infer config text).toValue).value) [] := by
  have hseparator : ∀ part ∈ keys.map fun key => partOf [key] text, '&' ∉ part.toList :=
    List.forall_mem_map.2 fun key _ =>
      not_mem_partOf (by decide) (by decide) (by decide) (by decide) [key] text
  have hmark : ∀ part ∈ keys.map fun key => partOf [key] text, part.toList.head? ≠ some '?' :=
    List.forall_mem_map.2 fun key _ hhead =>
      not_mem_partOf (by decide) (by decide) (by decide) (by decide) [key] text
        (List.mem_of_head? hhead)
  rw [decodeParts_splitParts config hseparator hmark, List.map_map, decodeParts, List.foldl_map]
  exact List.foldl_ext _ _ _ fun entries key hkey =>
    value_addPart_partOf config (hkeys key hkey) text entries

/-! ## Paths of keys -/

theorem bracketsFrom_skip (left : Nat) (taken cs : List Char) :
    bracketsFrom left taken.length (taken ++ cs) = bracketsFrom left 0 cs := by
  induction taken with
  | nil => rfl
  | cons c taken ih =>
    rw [List.length_cons, List.cons_append, bracketsFrom]
    exact ih

/-- A path behind other segments. -/
def KeyPath.behind (segments : List String) (path : KeyPath) : KeyPath :=
  { path with segments := segments ++ path.segments }

/-- A name in brackets is one segment. -/
theorem bracketsFrom_group (left : Nat) {name : String} (h : ']' ∉ name.toList)
    (rest : List Char) :
    bracketsFrom (left + 1) 0 ('[' :: (name.toList ++ ']' :: rest)) =
      (bracketsFrom left 0 rest).map (.cons name) := by
  have hinner : (name.toList ++ ']' :: rest).takeWhile (· ≠ ']') = name.toList := by
    rw [Text.takeWhile_ne_append h]
    simp
  have hskip : bracketsFrom left (name.toList.length + 1) (name.toList ++ ']' :: rest) =
      bracketsFrom left 0 rest := by
    have hrest := bracketsFrom_skip left (name.toList ++ [']']) rest
    rwa [List.length_append, List.length_singleton, List.append_assoc,
      List.singleton_append] at hrest
  rw [bracketsFrom, hinner]
  simp [hskip]

/-- Names without closing brackets are read from brackets, and what is behind them then. -/
theorem bracketsFrom_append {names : List String} (h : ∀ name ∈ names, ']' ∉ name.toList)
    (left : Nat) (rest : List Char) :
    bracketsFrom (names.length + left) 0 ((brackets names).toList ++ rest) =
      (bracketsFrom left 0 rest).map (.behind names) := by
  induction names with
  | nil =>
    rw [List.length_nil, Nat.zero_add]
    exact (congrFun Option.map_id _).symm
  | cons name names ih =>
    rw [List.forall_mem_cons] at h
    have hchars : (brackets (name :: names)).toList ++ rest =
        '[' :: (name.toList ++ ']' :: ((brackets names).toList ++ rest)) := by
      simp [brackets]
    rw [hchars, List.length_cons, Nat.add_right_comm, bracketsFrom_group _ h.1, ih h.2,
      Option.map_map]
    rfl

theorem bracketsFrom_nil (left : Nat) : bracketsFrom left 0 [] = some ⟨[], false⟩ := by
  cases left <;> rfl

/-- All of them are read, if they are not too many. -/
theorem bracketsFrom_brackets {names : List String} (h : ∀ name ∈ names, ']' ∉ name.toList)
    {left : Nat} (hleft : names.length ≤ left) :
    bracketsFrom left 0 (brackets names).toList = some ⟨names, false⟩ := by
  have hread := bracketsFrom_append h (left - names.length) []
  rw [List.append_nil, Nat.add_sub_cancel' hleft, bracketsFrom_nil] at hread
  simpa [KeyPath.behind] using hread

/-- A key without an opening bracket has no path. -/
theorem keyPath?_of_not_mem {key : String} (h : '[' ∉ key.toList) (maxDepth : Nat) :
    keyPath? maxDepth key = none := by
  have hrest : key.toList.dropWhile (· ≠ '[') = [] := by
    simpa using Text.dropWhile_ne_append h []
  rw [keyPath?, hrest]
  exact if_pos (.inr rfl)

/-- A nonempty base ends at the first opening bracket. -/
theorem keyPath?_of_base {key base : String} {rest : List Char}
    (hkey : key.toList = base.toList ++ '[' :: rest) (hbase : base ≠ "")
    (hopen : '[' ∉ base.toList) (maxDepth : Nat) :
    keyPath? maxDepth key = (bracketsFrom maxDepth 0 ('[' :: rest)).map (.cons base) := by
  have hbase' : base.toList ≠ [] := by simpa using hbase
  rw [keyPath?, hkey, Text.takeWhile_ne_append hopen, Text.dropWhile_ne_append hopen]
  simp [hbase']

/-- The path of a key is read back, if it has not too many names and no brackets in
them.  A single name has no brackets to read. -/
theorem keyPath?_keyOf {base : String} {names : List String} (hbase : base ≠ "")
    (hopen : '[' ∉ base.toList) (hclose : ∀ name ∈ names, ']' ∉ name.toList) {maxDepth : Nat}
    (hdepth : names.length ≤ maxDepth) :
    keyPath? maxDepth (keyOf (base :: names)) =
      if names = [] then none else some ⟨base :: names, false⟩ := by
  cases names with
  | nil =>
    have hkey : keyOf [base] = base := by simp [keyOf, brackets]
    rw [hkey, if_pos rfl]
    exact keyPath?_of_not_mem hopen maxDepth
  | cons name names =>
    have hread := bracketsFrom_brackets hclose hdepth
    have hchars : (brackets (name :: names)).toList =
        '[' :: (name.toList ++ ']' :: (brackets names).toList) := by
      simp [brackets]
    have hkey : (keyOf (base :: name :: names)).toList =
        base.toList ++ '[' :: (name.toList ++ ']' :: (brackets names).toList) := by
      rw [keyOf, String.toList_append, hchars]
    rw [keyPath?_of_base hkey hbase hopen, ← hchars, hread, if_neg (List.cons_ne_nil _ _)]
    rfl

/-! ## Filing parts -/

/-- The path along which a key files its value. -/
def pathOf (config : QueryConfig) (key : String) : List String :=
  match if config.nestedKeys then keyPath? config.maxDepth key else none with
  | some path => path.segments
  | none => [key]

/-- The path along which a part files its value. -/
def partPath (config : QueryConfig) (part : List Char) : List String :=
  pathOf config (partKey part)

/-- A part's value at the end of its path. -/
def partLeaf (config : QueryConfig) (part : List Char) : List String × Value :=
  (partPath config part, partValue config part)

theorem pathOf_ne_nil (config : QueryConfig) (key : String) : pathOf config key ≠ [] := by
  unfold pathOf
  split
  · rename_i path hpath
    split at hpath
    · unfold keyPath? at hpath
      dsimp only at hpath
      split at hpath
      · cases hpath
      · obtain ⟨rest, -, rfl⟩ := Option.map_eq_some_iff.1 hpath
        exact List.cons_ne_nil _ _
    · cases hpath
  · exact List.cons_ne_nil _ _

/-- A value is filed along its path, or under its whole key if the path leads nowhere. -/
theorem value_fileValue (config : QueryConfig) (entries : Entries Value) (key : String)
    (value : Value) :
    (fileValue config entries key value).value =
      (insertPath? value (pathOf config key) entries).getD (collect false entries key value) := by
  rw [fileValue, Logged.value_bind, value_readKey, pathOf]
  generalize (if config.nestedKeys then keyPath? config.maxDepth key else none) = path?
  cases path? with
  | none =>
    rw [insertPath?, if_pos rfl]
    rfl
  | some path =>
    dsimp only
    cases insertPath? value path.segments entries <;> rfl

/-- Parts whose values can be filed along their paths leave just these behind. -/
theorem decodeParts_of_fileAll {config : QueryConfig} {parts : List (List Char)}
    (hkeys : ∀ part ∈ parts, partKey part ≠ "") {entries : Entries Value}
    (h : fileAll (parts.map (partLeaf config)) = some entries) :
    decodeParts config parts = entries := by
  induction parts using List.reverseRecOn generalizing entries with
  | nil => exact Option.some.inj h
  | append_singleton parts part ih =>
    rw [List.forall_mem_append, List.forall_mem_singleton] at hkeys
    rw [List.map_append, List.map_singleton, fileAll_concat, Option.bind_eq_some_iff] at h
    obtain ⟨before, hbefore, hinsert⟩ := h
    rw [decodeParts_concat, ih hkeys.1 hbefore, value_addPart, if_neg hkeys.2, value_fileValue]
    exact congrArg (Option.getD · _) hinsert

end Query

end DataExpr
