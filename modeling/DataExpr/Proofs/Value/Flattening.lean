import DataExpr.Proofs.Text.Join
import DataExpr.Proofs.Value.Members
import DataExpr.Value.Display
import DataExpr.Value.Merge

/-!
# Flattening yields the leaves in order

A place in a value is a list of positions, one for each sequence on the way (`itemAt?`).  The
leaves of a value are what stands at its places and is no sequence, in the order of their
places: `LeavesInOrder` says that without following the recursion of `flatten`.  A mapping is a
leaf, whatever is in it.

`placedLeaves` lists the leaves with their places.  It goes through a value in the same way as
`leaves`, so that one is the other without the places (`map_snd_placedLeaves`).  The text of a
value stays the same if every sequence inside contributes something to it
(`intercalate_leaves`).
-/

namespace DataExpr.Value

/-! ## Places -/

/-- What stands at a place in a value: positions lead from a sequence into its items. -/
def itemAt? : Value → List Nat → Option Value
  | value, [] => some value
  | .sequence items, position :: place => (items[position]?).bind (itemAt? · place)
  | _, _ :: _ => none

@[simp] theorem itemAt?_nil (value : Value) : value.itemAt? [] = some value := by
  cases value <;> rfl

@[simp] theorem itemAt?_sequence_cons (items : List Value) (position : Nat) (place : List Nat) :
    itemAt? (.sequence items) (position :: place) = (items[position]?).bind (itemAt? · place) := rfl

/-- Places lead into sequences only. -/
theorem itemAt?_cons_of_ne {value : Value} (h : value.kind ≠ .array) (position : Nat)
    (place : List Nat) : value.itemAt? (position :: place) = none := by
  cases value with
  | sequence items => exact absurd rfl h
  | _ => rfl

/-- The leaves are what stands at the places of a value and is no sequence, each once for its
place and in the order of the places, from left to right. -/
def LeavesInOrder (value : Value) (leaves : List Value) : Prop :=
  ∃ placed : List (List Nat × Value), placed.Pairwise (·.1 < ·.1) ∧
    (∀ place leaf, (place, leaf) ∈ placed ↔
      value.itemAt? place = some leaf ∧ leaf.kind ≠ .array) ∧
    leaves = placed.map Prod.snd

/-- No sequence inside the value is empty. -/
def NoEmptyInside (value : Value) : Prop :=
  ∀ place ≠ [], value.itemAt? place ≠ some (.sequence [])

/-- What holds of values that are no sequences, and of a sequence when it holds of its items,
holds of every value. -/
@[elab_as_elim]
theorem induction_items {motive : Value → Prop} (value : Value)
    (leaf : ∀ value, value.kind ≠ .array → motive value)
    (sequence : ∀ items, (∀ item ∈ items, motive item) → motive (.sequence items)) :
    motive value := by
  induction value using induction_members with
  | step value ih =>
    cases value with
    | sequence items => exact sequence items ih
    | _ => exact leaf _ nofun

/-! ## Leaves -/

theorem leaves_sequence (items : List Value) :
    (sequence items).leaves = items.flatMap leaves := by
  rw [leaves]
  induction items with
  | nil => rfl
  | cons item items ih => rw [itemLeaves, ih, List.flatMap_cons]

theorem leaves_of_ne {value : Value} (h : value.kind ≠ .array) : value.leaves = [value] := by
  cases value with
  | sequence items => exact absurd rfl h
  | _ => rfl

theorem flatten_sequence (items : List Value) :
    flatten (.sequence items) = .sequence (items.flatMap leaves) :=
  congrArg sequence (leaves_sequence items)

/-- No leaf is a sequence. -/
theorem kind_ne_of_mem_leaves (value : Value) : ∀ leaf ∈ value.leaves, leaf.kind ≠ .array := by
  induction value using induction_items with
  | leaf value hkind =>
    rw [leaves_of_ne hkind, List.forall_mem_singleton]
    exact hkind
  | sequence items ih =>
    intro leaf hleaf
    rw [leaves_sequence, List.mem_flatMap] at hleaf
    obtain ⟨item, hitem, hleaf⟩ := hleaf
    exact ih item hitem leaf hleaf

/-- Items that are no sequences are their own leaves. -/
theorem flatMap_leaves_of_ne {items : List Value} (h : ∀ item ∈ items, item.kind ≠ .array) :
    items.flatMap leaves = items := by
  have hitems : items.flatMap leaves = items.flatMap ([·]) :=
    List.flatMap_congr fun item hitem => leaves_of_ne (h item hitem)
  rw [hitems, List.flatMap_singleton']

/-- A flat value stays as it is. -/
theorem flatten_flatten (value : Value) : value.flatten.flatten = value.flatten := by
  cases value with
  | sequence items =>
    have hleaves : ∀ leaf ∈ items.flatMap leaves, leaf.kind ≠ .array := by
      rw [← leaves_sequence]
      exact kind_ne_of_mem_leaves _
    rw [flatten_sequence, flatten_sequence, flatMap_leaves_of_ne hleaves]
  | _ => rfl

/-! ## Leaves with their places -/

mutual

/-- The leaves of a value with their places. -/
def placedLeaves : Value → List (List Nat × Value)
  | .sequence items => placedItemLeaves 0 items
  | value => [([], value)]

/-- The leaves of items that start at a position, with their places. -/
def placedItemLeaves (position : Nat) : List Value → List (List Nat × Value)
  | [] => []
  | item :: items =>
      item.placedLeaves.map (fun (place, leaf) => (position :: place, leaf)) ++
        placedItemLeaves (position + 1) items

end

theorem placedLeaves_sequence (items : List Value) :
    (sequence items).placedLeaves = items.zipIdx.flatMap fun (item, position) =>
      item.placedLeaves.map fun (place, leaf) => (position :: place, leaf) := by
  have hitems (start : Nat) : placedItemLeaves start items =
      (items.zipIdx start).flatMap fun (item, position) =>
        item.placedLeaves.map fun (place, leaf) => (position :: place, leaf) := by
    induction items generalizing start with
    | nil => rfl
    | cons item items ih => rw [placedItemLeaves, ih, List.zipIdx_cons, List.flatMap_cons]
  rw [placedLeaves, hitems]

theorem placedLeaves_of_ne {value : Value} (h : value.kind ≠ .array) :
    value.placedLeaves = [([], value)] := by
  cases value with
  | sequence items => exact absurd rfl h
  | _ => rfl

theorem mem_placedLeaves_iff (value : Value) (place : List Nat) (leaf : Value) :
    (place, leaf) ∈ value.placedLeaves ↔
      value.itemAt? place = some leaf ∧ leaf.kind ≠ .array := by
  induction value using induction_items generalizing place with
  | leaf value hkind =>
    rw [placedLeaves_of_ne hkind, List.mem_singleton, Prod.mk.injEq]
    cases place with
    | nil =>
      rw [itemAt?_nil, Option.some.injEq]
      constructor
      · rintro ⟨-, rfl⟩
        exact ⟨rfl, hkind⟩
      · rintro ⟨rfl, -⟩
        exact ⟨rfl, rfl⟩
    | cons position rest => simp [itemAt?_cons_of_ne hkind]
  | sequence items ih =>
    rw [placedLeaves_sequence, List.mem_flatMap]
    constructor
    · rintro ⟨⟨item, position⟩, hitem, hplaced⟩
      have hitem : items[position]? = some item := List.mem_zipIdx_iff_getElem?.1 hitem
      obtain ⟨⟨rest, inner⟩, hrest, heq⟩ := List.mem_map.1 hplaced
      cases heq
      rw [itemAt?_sequence_cons, hitem, Option.bind_some]
      exact (ih item (List.mem_of_getElem? hitem) rest).1 hrest
    · rintro ⟨hleaf, hne⟩
      cases place with
      | nil =>
        cases hleaf
        exact absurd rfl hne
      | cons position rest =>
        obtain ⟨item, hitem, hrest⟩ := Option.bind_eq_some_iff.1 hleaf
        have hplaced := (ih item (List.mem_of_getElem? hitem) rest).2 ⟨hrest, hne⟩
        exact ⟨(item, position), List.mem_zipIdx_iff_getElem?.2 hitem,
          List.mem_map.2 ⟨_, hplaced, rfl⟩⟩

/-- Leaves of earlier items come first, and leaves of one item in the order they have there. -/
theorem pairwise_placedLeaves (value : Value) : value.placedLeaves.Pairwise (·.1 < ·.1) := by
  induction value using induction_items with
  | leaf value hkind =>
    rw [placedLeaves_of_ne hkind]
    exact List.pairwise_singleton _ _
  | sequence items ih =>
    have hpositions : items.zipIdx.Pairwise (·.2 < ·.2) := by
      rw [← List.pairwise_map, List.zipIdx_map_snd]
      exact List.pairwise_lt_range' 1
    rw [placedLeaves_sequence, List.pairwise_flatMap]
    constructor
    · rintro ⟨item, position⟩ hitem
      have hmem : item ∈ items := List.mem_of_getElem? (List.mem_zipIdx_iff_getElem?.1 hitem)
      refine (ih item hmem).map _ fun _ _ hlt => ?_
      exact List.cons_lt_cons_iff.2 (.inr ⟨rfl, hlt⟩)
    · refine hpositions.imp fun hlt first hfirst second hsecond => ?_
      obtain ⟨_, -, rfl⟩ := List.mem_map.1 hfirst
      obtain ⟨_, -, rfl⟩ := List.mem_map.1 hsecond
      exact List.cons_lt_cons_iff.2 (.inl hlt)

/-- Without their places, these are the leaves. -/
theorem map_snd_placedLeaves (value : Value) : value.placedLeaves.map Prod.snd = value.leaves := by
  induction value using induction_items with
  | leaf value hkind =>
    rw [placedLeaves_of_ne hkind, leaves_of_ne hkind]
    rfl
  | sequence items ih =>
    have hitems : items.flatMap leaves = items.zipIdx.flatMap fun entry => entry.1.leaves := by
      rw [← List.flatMap_map Prod.fst leaves, List.zipIdx_map_fst]
    rw [placedLeaves_sequence, leaves_sequence, List.map_flatMap, hitems]
    refine List.flatMap_congr fun entry hentry => ?_
    have hmem : entry.1 ∈ items := List.mem_of_getElem? (List.mem_zipIdx_iff_getElem?.1 hentry)
    rw [← ih entry.1 hmem, List.map_map]
    rfl

theorem leavesInOrder_leaves (value : Value) : value.LeavesInOrder value.leaves :=
  ⟨value.placedLeaves, pairwise_placedLeaves value, mem_placedLeaves_iff value,
    (map_snd_placedLeaves value).symm⟩

/-- What stands at a place and is no sequence is a leaf. -/
theorem mem_leaves_of_itemAt? {value leaf : Value} {place : List Nat}
    (h : value.itemAt? place = some leaf) (hkind : leaf.kind ≠ .array) : leaf ∈ value.leaves := by
  rw [← map_snd_placedLeaves]
  exact List.mem_map_of_mem ((mem_placedLeaves_iff value place leaf).2 ⟨h, hkind⟩)

/-! ## The text of a flat value -/

/-- The text that an item contributes to the text of its sequence. -/
def itemText : Value → String
  | .null => ""
  | item => item.display

theorem displayItems_eq (items : List Value) : displayItems items = items.map itemText := by
  induction items with
  | nil => rfl
  | cons item items ih => cases item <;> exact congrArg (_ :: ·) ih

theorem display_sequence (items : List Value) :
    (sequence items).display = ",".intercalate (items.map itemText) := by
  rw [display, displayItems_eq]

theorem noEmptyInside_of_ne {value : Value} (h : value.kind ≠ .array) : value.NoEmptyInside := by
  intro place hplace
  obtain ⟨position, rest, rfl⟩ := List.exists_cons_of_ne_nil hplace
  rw [itemAt?_cons_of_ne h]
  nofun

/-- No sequence inside a sequence is empty if none of its items is or has one inside. -/
theorem noEmptyInside_sequence_iff {items : List Value} :
    (sequence items).NoEmptyInside ↔ ∀ item ∈ items, item.NoEmptyInside ∧ item ≠ .sequence [] := by
  constructor
  · intro h item hitem
    obtain ⟨position, hposition⟩ := List.getElem?_of_mem hitem
    have hinside (place : List Nat) : item.itemAt? place ≠ some (.sequence []) := by
      have hplace := h (position :: place) (List.cons_ne_nil _ _)
      rwa [itemAt?_sequence_cons, hposition, Option.bind_some] at hplace
    exact ⟨fun place _ => hinside place, fun heq => hinside [] (by rw [itemAt?_nil, heq])⟩
  · intro h place hplace hempty
    obtain ⟨position, rest, rfl⟩ := List.exists_cons_of_ne_nil hplace
    obtain ⟨item, hitem, hrest⟩ := Option.bind_eq_some_iff.1 hempty
    obtain ⟨hinside, hne⟩ := h item (List.mem_of_getElem? hitem)
    by_cases hhere : rest = []
    · rw [hhere, itemAt?_nil] at hrest
      exact hne (Option.some.inj hrest)
    · exact hinside rest hhere hrest

/-- The leaves of items contribute what the items do, if each has any. -/
theorem intercalate_flatMap_leaves {items : List Value}
    (h : ∀ item ∈ items, item.leaves ≠ [] ∧
      ",".intercalate (item.leaves.map itemText) = item.itemText) :
    ",".intercalate ((items.flatMap leaves).map itemText) =
      ",".intercalate (items.map itemText) := by
  have hgroups : ∀ group ∈ items.map (fun item => item.leaves.map itemText), group ≠ [] := by
    rw [List.forall_mem_map]
    intro item hitem
    simpa using (h item hitem).1
  have htexts : (items.map fun item => item.leaves.map itemText).map ",".intercalate =
      items.map itemText := by
    rw [List.map_map]
    exact List.map_congr_left fun item hitem => (h item hitem).2
  rw [List.map_flatMap, List.flatMap_def, Text.intercalate_flatten_of_ne_nil hgroups, htexts]

/-- The leaves of a value contribute what it does, if there are any. -/
theorem intercalate_leaves {value : Value} (h : value.NoEmptyInside) (hne : value ≠ .sequence []) :
    value.leaves ≠ [] ∧ ",".intercalate (value.leaves.map itemText) = value.itemText := by
  induction value using induction_items with
  | leaf value hkind =>
    rw [leaves_of_ne hkind]
    exact ⟨List.cons_ne_nil _ _, String.intercalate_singleton⟩
  | sequence items ih =>
    rw [noEmptyInside_sequence_iff] at h
    have hitems := fun item hitem => ih item hitem (h item hitem).1 (h item hitem).2
    rw [leaves_sequence, intercalate_flatMap_leaves hitems, ← display_sequence]
    refine ⟨?_, rfl⟩
    intro hnone
    obtain ⟨item, items, rfl⟩ := List.exists_cons_of_ne_nil fun hnil => hne (congrArg sequence hnil)
    have hnoLeaf : item.leaves = [] := List.flatMap_eq_nil_iff.1 hnone item List.mem_cons_self
    exact (hitems item List.mem_cons_self).1 hnoLeaf

theorem display_flatten {value : Value} (h : value.NoEmptyInside) :
    value.flatten.display = value.display := by
  cases value with
  | sequence items =>
    rw [noEmptyInside_sequence_iff] at h
    have hitems := fun item hitem => intercalate_leaves (h item hitem).1 (h item hitem).2
    rw [flatten_sequence, display_sequence, display_sequence, intercalate_flatMap_leaves hitems]
  | _ => rfl

/-! ## Flat values -/

/-- A flat sequence has the leaves in order and no sequence; mappings inside are among them as
they are.  Sequences behind one another are flattened one by one, a flat value stays as it is,
and flattening keeps the text if no sequence inside is empty. -/
theorem flatten_laws (items more : List Value) (value : Value) :
    (∃ leaves others,
      flatten (.sequence items) = .sequence leaves ∧ flatten (.sequence more) = .sequence others ∧
      flatten (.sequence (items ++ more)) = .sequence (leaves ++ others) ∧
      LeavesInOrder (.sequence items) leaves ∧ (∀ leaf ∈ leaves, leaf.kind ≠ .array) ∧
      ∀ place entries, itemAt? (.sequence items) place = some (.mapping entries) →
        .mapping entries ∈ leaves) ∧
    value.flatten.flatten = value.flatten ∧
    (value.NoEmptyInside → value.flatten.display = value.display) := by
  have hleaves := leaves_sequence items
  refine ⟨⟨items.flatMap leaves, more.flatMap leaves, flatten_sequence items, flatten_sequence more,
    ?_, ?_, ?_, ?_⟩, flatten_flatten value, display_flatten⟩
  · rw [flatten_sequence, List.flatMap_append]
  · rw [← hleaves]
    exact leavesInOrder_leaves _
  · rw [← hleaves]
    exact kind_ne_of_mem_leaves _
  · intro place entries hplace
    rw [← hleaves]
    exact mem_leaves_of_itemAt? hplace nofun

/-- A null and a mapping in a sequence inside, and an empty sequence in the mapping. -/
def nullAndMapping : Value :=
  .sequence [.sequence [.null, .mapping [("list", .sequence [])]], .bool true]

theorem noEmptyInside_nullAndMapping : nullAndMapping.NoEmptyInside := by
  rw [nullAndMapping]
  simp only [noEmptyInside_sequence_iff, List.forall_mem_cons]
  exact ⟨⟨⟨⟨noEmptyInside_of_ne nofun, nofun⟩, ⟨noEmptyInside_of_ne nofun, nofun⟩, nofun⟩, nofun⟩,
    ⟨noEmptyInside_of_ne nofun, nofun⟩, nofun⟩

/-- The empty sequence is part of a mapping, so it is no leaf and takes nothing from the text. -/
theorem flatten_laws_nullAndMapping :
    nullAndMapping.NoEmptyInside ∧ nullAndMapping.flatten.display = nullAndMapping.display ∧
      nullAndMapping.itemAt? [0, 1] = some (.mapping [("list", .sequence [])]) ∧
      ∃ leaves, nullAndMapping.flatten = .sequence leaves ∧
        .mapping [("list", .sequence [])] ∈ leaves := by
  obtain ⟨⟨leaves, _, hleaves, _, _, _, _, hmapping⟩, _, hdisplay⟩ := flatten_laws
    [.sequence [.null, .mapping [("list", .sequence [])]], .bool true] [] nullAndMapping
  exact ⟨noEmptyInside_nullAndMapping, hdisplay noEmptyInside_nullAndMapping, rfl,
    leaves, hleaves, hmapping [0, 1] _ rfl⟩

end DataExpr.Value
