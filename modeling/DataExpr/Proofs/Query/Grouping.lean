import DataExpr.Proofs.Query.Insertion
import DataExpr.Proofs.Query.Reading

/-!
# Flat queries are grouped by key

A query without brackets in its keys, or read with settings that leave brackets alone, is read as
its fields grouped by key (`decode_eq_grouped`): every key is bound where it first comes, to its
value if it comes once, and to the sequence of all its values if it comes more often.

Filing one field after the other does just that to what is there already: a group of one value is
the value, and a longer one a sequence that takes in the next value (`joined_bundle`).  No value of
a field is a sequence itself, so it is always clear which of the two a group is.
-/

namespace DataExpr

namespace Entries

variable {α : Type}

/-- Entries that have under each key what a function gives for it. -/
def tabulate (keys : List String) (f : String → α) : Entries α :=
  keys.map fun key => (key, f key)

theorem keys_tabulate (keys : List String) (f : String → α) :
    Entries.keys (tabulate keys f) = keys := by
  simp [Entries.keys, tabulate, Function.comp_def]

theorem get?_tabulate (keys : List String) (f : String → α) (key : String) :
    get? (tabulate keys f) key = if key ∈ keys then some (f key) else none := by
  induction keys with
  | nil => rfl
  | cons name names ih =>
    rw [tabulate, List.map_cons, get?_cons, ← tabulate, ih]
    by_cases hname : name = key
    · simp [hname]
    · simp [hname, Ne.symm hname]

theorem mapValues_tabulate {β : Type} (g : α → β) (keys : List String) (f : String → α) :
    mapValues g (tabulate keys f) = tabulate keys fun key => g (f key) := by
  simp [mapValues, tabulate, Function.comp_def]

end Entries

namespace Query

/-! ## Groups -/

/-- The keys and values of the parts of a query that have a key. -/
def fields (config : QueryConfig) (query : String) : List (String × Value) :=
  ((splitParts query).filter fun part => partKey part ≠ "").map fun part =>
    (partKey part, partValue config part)

/-- The values of the fields with a key, in their order. -/
def valuesUnder (key : String) (fields : List (String × Value)) : List Value :=
  (fields.filter fun field => field.1 = key).map Prod.snd

/-- What values under one key are together: one value is itself, and more are a sequence. -/
def bundle : List Value → Value
  | [value] => value
  | values => .sequence values

/-- Fields grouped by their keys, in the order in which the keys first come. -/
def grouped (fields : List (String × Value)) : Entries Value :=
  Entries.tabulate (fields.map Prod.fst).eraseDups fun key => bundle (valuesUnder key fields)

theorem eraseDups_concat (keys : List String) (key : String) :
    (keys ++ [key]).eraseDups =
      if key ∈ keys then keys.eraseDups else keys.eraseDups ++ [key] := by
  have hsingle : [key].eraseDups = [key] := by simp [List.eraseDups_cons]
  rw [List.eraseDups_append]
  split
  · rename_i hmem
    simp [List.removeAll, hmem]
  · rename_i hmem
    simp [List.removeAll, hmem, hsingle]

theorem nodup_eraseDups (keys : List String) : keys.eraseDups.Nodup := by
  induction keys using List.reverseRecOn with
  | nil => exact List.nodup_nil
  | append_singleton keys key ih =>
    rw [eraseDups_concat]
    split
    · exact ih
    · rename_i hmem
      have hnew : key ∉ keys.eraseDups := fun h => hmem (List.mem_eraseDups.1 h)
      rw [← List.concat_eq_append]
      exact ih.concat hnew

/-! ## Look-up in groups -/

section

variable {fields : List (String × Value)} {key : String} {value : Value}

theorem keys_grouped (fields : List (String × Value)) :
    Entries.keys (grouped fields) = (fields.map Prod.fst).eraseDups :=
  Entries.keys_tabulate _ _

theorem unique_grouped (fields : List (String × Value)) : Entries.Unique (grouped fields) := by
  rw [Entries.Unique, keys_grouped]
  exact nodup_eraseDups _

theorem get?_grouped (fields : List (String × Value)) (key : String) :
    Entries.get? (grouped fields) key =
      if key ∈ fields.map Prod.fst then some (bundle (valuesUnder key fields)) else none := by
  rw [grouped, Entries.get?_tabulate]
  simp only [List.mem_eraseDups]

theorem valuesUnder_concat_self (fields : List (String × Value)) (key : String) (value : Value) :
    valuesUnder key (fields ++ [(key, value)]) = valuesUnder key fields ++ [value] := by
  simp [valuesUnder]

theorem valuesUnder_concat_of_ne {name : String} (hne : key ≠ name)
    (fields : List (String × Value)) (value : Value) :
    valuesUnder name (fields ++ [(key, value)]) = valuesUnder name fields := by
  simp [valuesUnder, hne]

theorem valuesUnder_eq_nil_iff : valuesUnder key fields = [] ↔ key ∉ fields.map Prod.fst := by
  rw [valuesUnder, List.map_eq_nil_iff, List.filter_eq_nil_iff, List.mem_map]
  simp only [decide_eq_true_eq, not_exists, not_and]

theorem forall_valuesUnder {p : Value → Prop} (h : ∀ field ∈ fields, p field.2) :
    ∀ item ∈ valuesUnder key fields, p item := by
  intro item hitem
  obtain ⟨field, hfield, rfl⟩ := List.mem_map.1 hitem
  exact h field (List.mem_of_mem_filter hfield)

/-! ## One more field -/

/-- A group takes in one more value. -/
theorem joined_bundle {values : List Value} (hne : values ≠ [])
    (h : ∀ item ∈ values, item.kind ≠ .array) (value : Value) :
    joined false value (some (bundle values)) = bundle (values ++ [value]) := by
  match values with
  | [] => exact absurd rfl hne
  | [first] => exact joined_of_kind_ne (h first List.mem_cons_self) false value
  | _ :: _ :: _ => rfl

theorem grouped_concat (h : ∀ field ∈ fields, field.2.kind ≠ .array) (key : String)
    (value : Value) :
    grouped (fields ++ [(key, value)]) = collect false (grouped fields) key value := by
  rw [collect_eq]
  refine Entries.ext (unique_grouped _) ?_ fun name => ?_
  · rw [Entries.keys_alter, keys_grouped, keys_grouped, List.map_append]
    simp only [List.map_cons, List.map_nil, eraseDups_concat, List.mem_eraseDups]
  · by_cases hname : name = key
    · subst hname
      have hmem : name ∈ (fields ++ [(name, value)]).map Prod.fst := by simp
      rw [Entries.get?_alter_self, get?_grouped, get?_grouped, valuesUnder_concat_self,
        if_pos hmem]
      split
      · rename_i hold
        have hne : valuesUnder name fields ≠ [] := fun hnil => valuesUnder_eq_nil_iff.1 hnil hold
        rw [joined_bundle hne (forall_valuesUnder h)]
      · rename_i hnew
        rw [valuesUnder_eq_nil_iff.2 hnew]
        rfl
    · rw [Entries.get?_alter_of_ne _ _ hname, get?_grouped, get?_grouped,
        valuesUnder_concat_of_ne (Ne.symm hname)]
      have hmem : name ∈ (fields ++ [(key, value)]).map Prod.fst ↔ name ∈ fields.map Prod.fst := by
        rw [List.map_append, List.mem_append, List.map_singleton, List.mem_singleton]
        exact or_iff_left hname
      exact if_congr hmem rfl rfl

/-! ## The pass over indices -/

theorem sequenceIndexed_of_isScalar (h : value.IsScalar) : sequenceIndexed value = value := by
  cases value with
  | sequence => exact absurd rfl h.2.1
  | mapping => exact absurd rfl h.2.2
  | _ => rfl

theorem sequenceIndexed_bundle {values : List Value} (h : ∀ item ∈ values, item.IsScalar) :
    sequenceIndexed (bundle values) = bundle values := by
  have hitems : sequenceIndexedItems values = values := by
    rw [sequenceIndexedItems_eq]
    have hsame := List.map_congr_left fun item hitem => sequenceIndexed_of_isScalar (h item hitem)
    exact hsame.trans (List.map_id' values)
  match values with
  | [] => rfl
  | [value] => exact sequenceIndexed_of_isScalar (h value List.mem_cons_self)
  | _ :: _ :: _ => exact congrArg Value.sequence hitems

/-- No group is a mapping, or has one in it. -/
theorem sequenceIndexedEntries_grouped (h : ∀ field ∈ fields, field.2.IsScalar) :
    sequenceIndexedEntries (grouped fields) = grouped fields := by
  rw [sequenceIndexedEntries_eq, grouped, Entries.mapValues_tabulate]
  congr 1
  funext key
  exact sequenceIndexed_bundle (forall_valuesUnder h)

end

/-! ## Queries -/

/-- A key with no brackets to read has no path. -/
theorem pathOf_of_flat {config : QueryConfig} {key : String}
    (h : config.nestedKeys = false ∨ '[' ∉ key.toList) : pathOf config key = [key] := by
  rw [pathOf]
  rcases h with h | h
  · rw [h]
    rfl
  · rw [keyPath?_of_not_mem h, ite_self]

theorem value_fileValue_of_flat {config : QueryConfig} {key : String}
    (h : config.nestedKeys = false ∨ '[' ∉ key.toList) (entries : Entries Value) (value : Value) :
    (fileValue config entries key value).value = collect false entries key value := by
  rw [value_fileValue, pathOf_of_flat h, insertPath?, if_pos rfl]
  rfl

theorem isScalar_toValue (typed : TypedText) : typed.toValue.IsScalar := by
  cases typed <;> exact ⟨nofun, nofun, nofun⟩

theorem isScalar_partValue (config : QueryConfig) (part : List Char) :
    (partValue config part).IsScalar :=
  isScalar_toValue _

theorem decodeParts_eq_grouped {config : QueryConfig} {parts : List (List Char)}
    (h : ∀ part ∈ parts, config.nestedKeys = false ∨ '[' ∉ (partKey part).toList) :
    decodeParts config parts =
      grouped ((parts.filter fun part => partKey part ≠ "").map fun part =>
        (partKey part, partValue config part)) := by
  induction parts using List.reverseRecOn with
  | nil => rfl
  | append_singleton parts part ih =>
    rw [List.forall_mem_append, List.forall_mem_singleton] at h
    rw [decodeParts_concat, value_addPart, ih h.1, List.filter_append, List.map_append]
    split
    · rename_i hkey
      simp [hkey]
    · rename_i hkey
      have hlast : ([part].filter fun part => partKey part ≠ "") = [part] := by simp [hkey]
      rw [value_fileValue_of_flat h.2, hlast, List.map_singleton, grouped_concat]
      exact List.forall_mem_map.2 fun part _ => (isScalar_partValue config part).2.1

/-- A part without an equals sign is a key with nothing behind it, and otherwise the first one
separates the key from the value. -/
theorem partKey_partValue_cases (config : QueryConfig) :
    (∀ part, '=' ∉ part →
        partKey part = (unescape part).value ∧
          partValue config part = (TypedText.infer config "").toValue) ∧
      ∀ key value, '=' ∉ key →
        partKey (key ++ '=' :: value) = (unescape key).value ∧
          partValue config (key ++ '=' :: value) =
            (TypedText.infer config (unescape value).value).toValue := by
  refine ⟨fun part hpart => ?_, fun key value hkey => ?_⟩
  · have hempty : (unescape []).value = "" := value_unescape (Text.Percent.decode?_encode "")
    rw [partKey, partValue, Text.cutAt_of_not_mem hpart, hempty]
    exact ⟨rfl, rfl⟩
  · rw [partKey, partValue, Text.cutAt_append hkey]
    exact ⟨rfl, rfl⟩

/-- A query whose keys have no brackets, or that is read with settings that leave brackets alone, is
read as its fields grouped by key: each key where it first comes, with its value, or with the
sequence of its values if it comes more than once.  A part without an equals sign has the empty
text as its value, and only the first one separates. -/
theorem decode_eq_grouped (config : QueryConfig) (query : String)
    (h : config.nestedKeys = false ∨ ∀ part ∈ splitParts query, '[' ∉ (partKey part).toList) :
    (decode config query).value = grouped (fields config query) ∧
      (∀ part, '=' ∉ part →
        partKey part = (unescape part).value ∧
          partValue config part = (TypedText.infer config "").toValue) ∧
      ∀ key value, '=' ∉ key →
        partKey (key ++ '=' :: value) = (unescape key).value ∧
          partValue config (key ++ '=' :: value) =
            (TypedText.infer config (unescape value).value).toValue := by
  have hparts : decodeParts config (splitParts query) = grouped (fields config query) := by
    apply decodeParts_eq_grouped
    exact fun part hpart => h.imp_right fun hkeys => hkeys part hpart
  have hscalar : ∀ field ∈ fields config query, field.2.IsScalar :=
    List.forall_mem_map.2 fun part _ => isScalar_partValue config part
  refine ⟨?_, partKey_partValue_cases config⟩
  rw [value_decode, hparts, sequenceIndexedEntries_grouped hscalar, ite_self]

/-- A key that comes three times, an empty part, one without a key, one without a value, a value
with an equals sign in it, and an escape that is cut off. -/
def repeatedKeys : String :=
  "?id=x&&other&id=y=z&=w&id=%5"

theorem fields_repeatedKeys :
    fields {} repeatedKeys =
      [("id", typedValue "x"), ("other", typedValue ""), ("id", typedValue "y=z"),
        ("id", typedValue "%5")] := by
  have htexts : ((splitParts repeatedKeys).filter fun part => partKey part ≠ "").map
      (fun part => (partKey part, (unescape (Text.cutAt '=' part).2).value)) =
        [("id", "x"), ("other", ""), ("id", "y=z"), ("id", "%5")] := by
    decide +kernel
  have hfields := congrArg (List.map fun field => (field.1, typedValue field.2)) htexts
  rw [List.map_map] at hfields
  exact hfields

theorem decode_eq_grouped_repeatedKeys :
    (({} : QueryConfig).nestedKeys = false ∨
        ∀ part ∈ splitParts repeatedKeys, '[' ∉ (partKey part).toList) ∧
      (decode {} repeatedKeys).value =
        [("id", .sequence [typedValue "x", typedValue "y=z", typedValue "%5"]),
          ("other", typedValue "")] := by
  have h : ({} : QueryConfig).nestedKeys = false ∨
      ∀ part ∈ splitParts repeatedKeys, '[' ∉ (partKey part).toList :=
    .inr (by decide +kernel)
  refine ⟨h, (decode_eq_grouped {} repeatedKeys h).1.trans ?_⟩
  rw [fields_repeatedKeys]
  rfl

end Query

end DataExpr
