import DataExpr.Path
import DataExpr.Proofs.Value.Equivalence
import DataExpr.Proofs.Value.MergeGrouping

/-!
# What a merge is made of

Mappings are merged key by key, and so along every path of keys on which both hold mappings
(`merge_mappings`): what is under one key never gets to another.

From the first sequence on, nothing is lost (`merge_append_sequence`).  A sequence counts as true
and takes in whatever comes, so the fold only appends behind it (`foldl_mergeInto_sequence`), and
what came before it is in front, unless it counts as false (`mergeInto_sequence_right`).
-/

namespace DataExpr.Value

/-! ## Key by key -/

/-- The merge of two values, one of which or both may be missing.  One alone is copied. -/
def mergePresent : Option Value → Option Value → Option Value
  | some first, some second => some (merge [first, second])
  | some first, none => some first.copy
  | none, some second => some second.copy
  | none, none => none

theorem mergePresent_eq (first second : Option Value) :
    mergePresent first second = Option.merge mergeInto first second := by
  cases first <;> cases second <;> simp only [mergePresent, copy_eq] <;> rfl

/-- Until it ends, a path of keys leads from the value to mappings only. -/
def MappingsAlong (path : List String) (value : Value) : Prop :=
  ∀ front, front <+: path → front ≠ path →
    ∃ entries, Path.resolve value front = some (.mapping entries)

theorem resolve_mapping_cons (entries : Entries Value) (key : String) (path : List String) :
    Path.resolve (.mapping entries) (key :: path) =
      (Entries.get? entries key).bind (Path.resolve · path) :=
  rfl

theorem mappingsAlong_singleton (key : String) (entries : Entries Value) :
    MappingsAlong [key] (.mapping entries) := by
  intro front hfront hne
  rcases List.prefix_cons_iff.1 hfront with rfl | ⟨rest, rfl, hrest⟩
  · exact ⟨entries, rfl⟩
  · obtain rfl : rest = [] := List.prefix_nil.1 hrest
    exact absurd rfl hne

/-- A path that goes on behind its first key goes on in the mapping under it. -/
theorem mappingsAlong_cons_iff {key : String} {path : List String} (hpath : path ≠ [])
    (entries : Entries Value) :
    MappingsAlong (key :: path) (.mapping entries) ↔
      ∃ inner, Entries.get? entries key = some (.mapping inner) ∧
        MappingsAlong path (.mapping inner) := by
  constructor
  · intro h
    have hfirst : [key] <+: key :: path := List.cons_prefix_cons.2 ⟨rfl, List.nil_prefix⟩
    obtain ⟨inner, hinner⟩ := h [key] hfirst fun heq => hpath (List.cons.inj heq).2.symm
    rw [resolve_mapping_cons] at hinner
    obtain ⟨found, hget, hfound⟩ := Option.bind_eq_some_iff.1 hinner
    obtain rfl : found = .mapping inner := Option.some.inj hfound
    refine ⟨inner, hget, fun front hfront hne => ?_⟩
    obtain ⟨level, hlevel⟩ := h (key :: front) (List.cons_prefix_cons.2 ⟨rfl, hfront⟩)
      fun heq => hne (List.cons.inj heq).2
    rw [resolve_mapping_cons, hget, Option.bind_some] at hlevel
    exact ⟨level, hlevel⟩
  · rintro ⟨inner, hget, h⟩ front hfront hne
    rcases List.prefix_cons_iff.1 hfront with rfl | ⟨rest, rfl, hrest⟩
    · exact ⟨entries, rfl⟩
    · rw [resolve_mapping_cons, hget, Option.bind_some]
      exact h rest hrest fun heq => hne (congrArg (key :: ·) heq)

/-- As long as both hold mappings along a path, their merge has at its end what merging the two
ends gives. -/
theorem resolve_mergeEntries {first second : Entries Value}
    (hsecond : (mapping second).WellFormed) {path : List String}
    (hfirstAlong : MappingsAlong path (.mapping first))
    (hsecondAlong : MappingsAlong path (.mapping second)) :
    Path.resolve (.mapping (mergeEntries first second)) path =
      Option.merge mergeInto (Path.resolve (.mapping first) path)
        (Path.resolve (.mapping second) path) := by
  induction path generalizing first second with
  | nil => exact congrArg some (mergeInto_mapping first second).symm
  | cons key path ih =>
    simp only [resolve_mapping_cons]
    rw [get?_mergeEntries hsecond.1]
    by_cases hpath : path = []
    · subst hpath
      cases Entries.get? first key <;> cases Entries.get? second key <;> rfl
    · obtain ⟨inner, hinner, hinnerAlong⟩ := (mappingsAlong_cons_iff hpath first).1 hfirstAlong
      obtain ⟨other, hother, hotherAlong⟩ := (mappingsAlong_cons_iff hpath second).1 hsecondAlong
      rw [hinner, hother, Option.merge_some_some, mergeInto_mapping]
      exact ih (hsecond.get? hother) hinnerAlong hotherAlong

/-- Mappings are merged key by key.  The keys are those of the first and then the new ones of the
second, each in their order, and under each key is the merge of the values there, or a copy of the
only one.  So a path along which both hold mappings leads to the merge of what it leads to in
each. -/
theorem merge_mappings {first second : Entries Value} (h : (mapping second).WellFormed) :
    (∃ entries, merge [.mapping first, .mapping second] = .mapping entries ∧
      Entries.keys entries =
        Entries.keys first ++ (Entries.keys second).filter (· ∉ Entries.keys first) ∧
      ∀ key, Entries.get? entries key =
        mergePresent (Entries.get? first key) (Entries.get? second key)) ∧
    ∀ path, MappingsAlong path (.mapping first) → MappingsAlong path (.mapping second) →
      Path.resolve (merge [.mapping first, .mapping second]) path =
        mergePresent (Path.resolve (.mapping first) path)
          (Path.resolve (.mapping second) path) := by
  have hmerge : merge [.mapping first, .mapping second] = .mapping (mergeEntries first second) :=
    mergeInto_mapping first second
  refine ⟨⟨_, hmerge, keys_mergeEntries h.1 first, fun key => ?_⟩, fun path hfirst hsecond => ?_⟩
  · rw [mergePresent_eq, get?_mergeEntries h.1]
  · rw [hmerge, mergePresent_eq, resolve_mergeEntries h hfirst hsecond]

/-- Entries with a mapping, in it a scalar and a sequence. -/
def serverEntries : Entries Value :=
  [("name", .text "a"), ("log", .mapping [("file", .text "x"), ("tags", .sequence [.null])])]

/-- Entries with a mapping under the same key, and a new key. -/
def localEntries : Entries Value :=
  [("port", .null), ("log", .mapping [("level", .bool true), ("file", .text "y")])]

theorem merge_mappings_serverEntries :
    (mapping localEntries).WellFormed ∧ MappingsAlong ["log", "file"] (.mapping serverEntries) ∧
      MappingsAlong ["log", "file"] (.mapping localEntries) ∧
      (∃ entries, merge [.mapping serverEntries, .mapping localEntries] = .mapping entries ∧
        Entries.keys entries = ["name", "log", "port"]) ∧
      Path.resolve (merge [.mapping serverEntries, .mapping localEntries]) ["log", "file"] =
        some (.text "y") := by
  have hwellFormed : (mapping localEntries).WellFormed := by
    simp [localEntries, WellFormed, entriesWellFormed, Entries.Unique, Entries.keys]
  have hserver : MappingsAlong ["log", "file"] (.mapping serverEntries) :=
    (mappingsAlong_cons_iff (by decide) _).2 ⟨_, rfl, mappingsAlong_singleton _ _⟩
  have hlocal : MappingsAlong ["log", "file"] (.mapping localEntries) :=
    (mappingsAlong_cons_iff (by decide) _).2 ⟨_, rfl, mappingsAlong_singleton _ _⟩
  obtain ⟨⟨entries, hmerge, hkeys, -⟩, hpaths⟩ := @merge_mappings serverEntries _ hwellFormed
  refine ⟨hwellFormed, hserver, hlocal, ⟨entries, hmerge, ?_⟩, ?_⟩
  · rw [hkeys]
    decide
  · rw [hpaths _ hserver hlocal]
    rfl

/-! ## From a sequence on -/

/-- A sequence takes in what is merged into it. -/
theorem mergeInto_sequence_left (items : List Value) (value : Value) :
    mergeInto (.sequence items) value = .sequence (items ++ value.spread) := by
  rw [mergeInto_eq]
  simp [blend, isTruthy, kind, spread]

/-- What counts as true is put in front of a sequence. -/
theorem mergeInto_sequence_right (acc : Value) (items : List Value) :
    mergeInto acc (.sequence items) =
      .sequence ((if acc.isTruthy then acc.spread else []) ++ items) := by
  rw [mergeInto_eq]
  cases htruthy : acc.isTruthy with
  | true => simp [blend, kind, spread]
  | false => simp [blend]

theorem foldl_mergeInto_sequence (items after : List Value) :
    after.foldl mergeInto (.sequence items) = .sequence (items ++ after.flatMap spread) := by
  induction after generalizing items with
  | nil => simp
  | cons value after ih =>
    rw [List.foldl_cons, mergeInto_sequence_left, ih, List.append_assoc, List.flatMap_cons]

theorem merge_append {before : List Value} (h : before ≠ []) (after : List Value) :
    merge (before ++ after) = after.foldl mergeInto (merge before) := by
  cases before with
  | nil => exact absurd rfl h
  | cons first before => exact List.foldl_append

/-- Once a sequence enters a merge, everything from there on is kept in order: its items, and then
the items of each later sequence and each other value as one item.  What was merged before it
comes in front in the same way, unless it counts as false. -/
theorem merge_append_sequence (before items after : List Value) :
    merge (before ++ [.sequence items] ++ after) =
      .sequence ((if before = [] ∨ (merge before).isTruthy = false then []
        else (merge before).spread) ++ items ++ after.flatMap spread) := by
  have hfront : merge (before ++ [.sequence items]) =
      .sequence ((if before = [] ∨ (merge before).isTruthy = false then []
        else (merge before).spread) ++ items) := by
    by_cases hbefore : before = []
    · simp [hbefore, merge]
    · rw [merge_append hbefore, List.foldl_cons, List.foldl_nil, mergeInto_sequence_right]
      cases htruthy : (merge before).isTruthy <;> simp [hbefore]
  rw [merge_append (List.append_ne_nil_of_right_ne_nil _ (List.cons_ne_nil _ _)), hfront,
    foldl_mergeInto_sequence]

end DataExpr.Value
