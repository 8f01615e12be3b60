import DataExpr.Proofs.Query.Conservation

/-!
# Types do not steer reading

Reading a query with types is reading it without and then taking each text for what it
is (`decode_eq_mapTexts`): the structure comes from the keys alone.

Collisions, repetitions and sequences are found by looking at values that are filed
already, but all that is looked for is whether a value is a sequence or a mapping.  No text
is taken for either.  So each step of reading commutes with changing the texts
(`collect_mapTexts`, `insertPath?_mapTexts`, `addPart_mapTexts`), the last pass
over indices included (`sequenceIndexed_mapTexts`), and the same events are noted.
-/

namespace DataExpr

namespace Value

mutual

/-- The value with `f` of each text in place of the text, at all depths. -/
def mapTexts (f : String → Value) : Value → Value
  | .text s => f s
  | .sequence items => .sequence (mapTextsItems f items)
  | .mapping entries => .mapping (mapTextsEntries f entries)
  | value => value

/-- The same in every item. -/
def mapTextsItems (f : String → Value) : List Value → List Value
  | [] => []
  | item :: items => item.mapTexts f :: mapTextsItems f items

/-- The same in the value of every entry. -/
def mapTextsEntries (f : String → Value) : List (String × Value) → List (String × Value)
  | [] => []
  | (key, item) :: entries => (key, item.mapTexts f) :: mapTextsEntries f entries

end

theorem mapTextsItems_eq (f : String → Value) (items : List Value) :
    mapTextsItems f items = items.map (mapTexts f) := by
  induction items with
  | nil => rfl
  | cons item items ih => rw [mapTextsItems, ih, List.map_cons]

theorem mapTextsEntries_eq (f : String → Value) (entries : Entries Value) :
    mapTextsEntries f entries = Entries.mapValues (mapTexts f) entries := by
  induction entries with
  | nil => rfl
  | cons entry entries ih =>
    obtain ⟨key, item⟩ := entry
    rw [mapTextsEntries, ih]
    rfl

end Value

namespace Query

open Value (mapTexts mapTextsItems mapTextsEntries mapTextsItems_eq mapTextsEntries_eq)

/-- Texts are taken for no containers. -/
def KeepsScalars (f : String → Value) : Prop :=
  ∀ text, (f text).kind ≠ .array ∧ (f text).kind ≠ .object

theorem keepsScalars_infer (config : QueryConfig) :
    KeepsScalars fun text => (TypedText.infer config text).toValue := by
  intro text
  dsimp only
  cases TypedText.infer config text <;> exact ⟨nofun, nofun⟩

section

variable {f : String → Value}

/-! ## Filing -/

theorem collect_mapTexts (hf : KeepsScalars f) (asList : Bool) (entries : Entries Value)
    (key : String) (value : Value) :
    collect asList (mapTextsEntries f entries) key (value.mapTexts f) =
      mapTextsEntries f (collect asList entries key value) := by
  rw [mapTextsEntries_eq, mapTextsEntries_eq, collect, collect]
  apply Entries.alter_mapValues
  cases Entries.get? entries key with
  | none => cases asList <;> rfl
  | some first =>
    cases first with
    | text s =>
      obtain ⟨hsequence, -⟩ := hf s
      show _ = Value.sequence [f s, value.mapTexts f]
      rw [Option.map_some, mapTexts]
      cases hs : f s with
      | sequence items => exact absurd (congrArg Value.kind hs) hsequence
      | _ => rfl
    | sequence items =>
      simp [mapTexts, mapTextsItems_eq]
    | _ => rfl

theorem insertPath?_mapTexts (hf : KeepsScalars f) (value : Value) (path : List String)
    (entries : Entries Value) :
    insertPath? (value.mapTexts f) path (mapTextsEntries f entries) =
      (insertPath? value path entries).map (mapTextsEntries f) := by
  induction path generalizing entries with
  | nil => rfl
  | cons key path ih =>
    have hinsert : ∀ inner, Entries.insert (mapTextsEntries f entries) key
        (.mapping (mapTextsEntries f inner)) =
          mapTextsEntries f (Entries.insert entries key (.mapping inner)) := by
      intro inner
      rw [mapTextsEntries_eq f entries, mapTextsEntries_eq f (Entries.insert _ _ _)]
      exact Entries.alter_mapValues rfl
    have hget : Entries.get? (mapTextsEntries f entries) key =
        (Entries.get? entries key).map (mapTexts f) := by
      rw [mapTextsEntries_eq, Entries.get?_mapValues]
    rw [insertPath?, insertPath?]
    split
    · rw [collect_mapTexts hf]
      rfl
    split
    · rw [collect_mapTexts hf]
      rfl
    rw [hget]
    cases Entries.get? entries key with
    | none =>
      have hnew := ih []
      rw [mapTextsEntries] at hnew
      simp [hnew, Function.comp_def, hinsert]
    | some first =>
      cases first with
      | text s =>
        obtain ⟨-, hmapping⟩ := hf s
        rw [Option.map_some, mapTexts]
        cases hs : f s with
        | mapping inner => exact absurd (congrArg Value.kind hs) hmapping
        | _ => rfl
      | mapping inner => simp [mapTexts, ih inner, Function.comp_def, hinsert]
      | _ => rfl

/-! ## Sequences -/

mutual

theorem sequenceIndexed_mapTexts (hf : KeepsScalars f) (value : Value) :
    sequenceIndexed (value.mapTexts f) = (sequenceIndexed value).mapTexts f := by
  match value with
  | .text s =>
    obtain ⟨hsequence, hmapping⟩ := hf s
    show sequenceIndexed (f s) = f s
    cases hs : f s with
    | sequence items => exact absurd (congrArg Value.kind hs) hsequence
    | mapping entries => exact absurd (congrArg Value.kind hs) hmapping
    | _ => rfl
  | .sequence items =>
    exact congrArg Value.sequence (sequenceIndexedItems_mapTexts hf items)
  | .mapping entries =>
    rw [mapTexts, sequenceIndexed, sequenceIndexed, sequenceIndexedEntries_mapTexts hf entries,
      mapTextsEntries_eq, inIndexOrder?_mapValues]
    cases inIndexOrder? (sequenceIndexedEntries entries) with
    | none => exact congrArg Value.mapping (mapTextsEntries_eq f _).symm
    | some items => exact congrArg Value.sequence (mapTextsItems_eq f items).symm
  | .null | .bool _ | .number _ | .date _ | .pattern _ => rfl

theorem sequenceIndexedItems_mapTexts (hf : KeepsScalars f) (items : List Value) :
    sequenceIndexedItems (mapTextsItems f items) =
      mapTextsItems f (sequenceIndexedItems items) := by
  match items with
  | [] => rfl
  | item :: items =>
    rw [mapTextsItems, sequenceIndexedItems, sequenceIndexed_mapTexts hf item,
      sequenceIndexedItems_mapTexts hf items]
    rfl

theorem sequenceIndexedEntries_mapTexts (hf : KeepsScalars f)
    (entries : List (String × Value)) :
    sequenceIndexedEntries (mapTextsEntries f entries) =
      mapTextsEntries f (sequenceIndexedEntries entries) := by
  match entries with
  | [] => rfl
  | (key, item) :: entries =>
    rw [mapTextsEntries, sequenceIndexedEntries, sequenceIndexed_mapTexts hf item,
      sequenceIndexedEntries_mapTexts hf entries]
    rfl

end

end

/-! ## Parts -/

theorem fileValue_mapTexts {f : String → Value} (hf : KeepsScalars f) (config : QueryConfig)
    (entries : Entries Value) (key : String) (value : Value) :
    fileValue config (mapTextsEntries f entries) key (value.mapTexts f) =
      mapTextsEntries f <$> fileValue config entries key value := by
  rw [fileValue, fileValue, map_bind]
  congr 1
  funext path?
  cases path? with
  | none => rw [collect_mapTexts hf, map_pure]
  | some path =>
    simp only [insertPath?_mapTexts hf]
    cases insertPath? value path.segments entries with
    | some inserted => rw [Option.map_some, map_pure]
    | none => rw [Option.map_none, map_bind, collect_mapTexts hf, map_pure]

theorem addPart_mapTexts (config : QueryConfig) (entries : Entries Value) (part : List Char) :
    addPart config (mapTextsEntries (fun text => (TypedText.infer config text).toValue) entries)
        part =
      mapTextsEntries (fun text => (TypedText.infer config text).toValue) <$>
        addPart { config with inferTypes := false } entries part := by
  rcases hcut : Text.cutAt '=' part with ⟨rawKey, rawValue⟩
  simp only [addPart, hcut, map_bind]
  refine bind_congr fun key => ?_
  split
  · split
    · rw [map_pure]
    · rw [map_bind, map_pure]
  · rw [map_bind]
    refine bind_congr fun value => ?_
    exact fileValue_mapTexts (keepsScalars_infer config) config entries key (.text value)

theorem foldlM_addPart_mapTexts (config : QueryConfig) (entries : Entries Value)
    (parts : List (List Char)) :
    parts.foldlM (addPart config)
        (mapTextsEntries (fun text => (TypedText.infer config text).toValue) entries) =
      mapTextsEntries (fun text => (TypedText.infer config text).toValue) <$>
        parts.foldlM (addPart { config with inferTypes := false }) entries := by
  induction parts generalizing entries with
  | nil => rw [List.foldlM_nil, List.foldlM_nil, map_pure]
  | cons part parts ih =>
    rw [List.foldlM_cons, List.foldlM_cons, addPart_mapTexts, map_bind, bind_map_left]
    exact bind_congr fun entries => ih entries

/-- Reading with types is reading every value as a text and then taking each text for
what it is.  Keys, their order, nesting, sequences and the events are the same. -/
theorem decode_eq_mapTexts (config : QueryConfig) (query : String) :
    decode config query =
      mapTextsEntries (fun text => (TypedText.infer config text).toValue) <$>
        decode { config with inferTypes := false } query := by
  have hparts := foldlM_addPart_mapTexts config [] (splitParts query)
  rw [mapTextsEntries] at hparts
  rw [decode, decode, hparts, bind_map_left, map_bind]
  refine bind_congr fun entries => ?_
  rw [map_pure]
  split
  · rw [sequenceIndexedEntries_mapTexts (keepsScalars_infer config)]
  · rfl

/-- A collision, a repetition and a sequence, whatever the types. -/
example :
    (decode {} "a=1&a[b]=true&c[1]=x&c[0]=y&c[0]=2").value matches
      [("a", .number _), ("a[b]", .bool true),
        ("c", .sequence [.sequence [.text "y", .number _], .text "x"])] := by
  decide +kernel

end Query

end DataExpr
