import DataExpr.Proofs.Query.Paths
import DataExpr.Proofs.Value.Members

/-!
# Written queries have one reading

What is written from a container can be read back part by part without knowing the
container (`readPart?`): at the separators of queries, and then at the raw brackets of
keys.  The parts are the scalars inside the container, in its order, each with its whole
path and its text (`read_encode`).  This holds for any keys and texts, because none of the
separators is left bare in an encoded piece.

`Value.LeadsTo` says of a value which paths lead where, and `mem_leavesInside_iff` that
`Value.leavesInside` are all paths to scalars.
-/

namespace DataExpr

namespace Value

/-! ## Paths inside a value -/

/-- The value is neither null nor a container. -/
def IsScalar (value : Value) : Prop :=
  value.kind ≠ .null ∧ value.kind ≠ .array ∧ value.kind ≠ .object

/-- Keys and positions lead from a value to another inside it. -/
inductive LeadsTo : Value → List String → Value → Prop
  | here (value : Value) : LeadsTo value [] value
  | item {items : List Value} {position : Nat} {item inner : Value} {path : List String}
      (hitem : items[position]? = some item) (h : LeadsTo item path inner) :
      LeadsTo (.sequence items) (Nat.repr position :: path) inner
  | entry {entries : Entries Value} {key : String} {item inner : Value} {path : List String}
      (hentry : (key, item) ∈ entries) (h : LeadsTo item path inner) :
      LeadsTo (.mapping entries) (key :: path) inner

theorem mem_itemLeafPaths_iff (position : Nat) (items : List Value) (path : List String)
    (leaf : Value) :
    (path, leaf) ∈ itemLeafPaths position items ↔
      ∃ i item rest, items[i]? = some item ∧ path = Nat.repr (position + i) :: rest ∧
        (rest, leaf) ∈ item.leafPaths := by
  induction items generalizing position with
  | nil => simp [itemLeafPaths]
  | cons item items ih =>
    rw [itemLeafPaths, List.mem_append, ih]
    constructor
    · rintro (h | ⟨i, other, rest, hother, rfl, hrest⟩)
      · obtain ⟨⟨rest, inner⟩, hrest, heq⟩ := List.mem_map.1 h
        cases heq
        exact ⟨0, item, rest, rfl, rfl, hrest⟩
      · refine ⟨i + 1, other, rest, hother, ?_, hrest⟩
        rw [show position + 1 + i = position + (i + 1) by omega]
    · rintro ⟨i, other, rest, hother, rfl, hrest⟩
      cases i with
      | zero =>
        obtain rfl : item = other := Option.some.inj hother
        exact .inl (List.mem_map.2 ⟨_, hrest, rfl⟩)
      | succ i =>
        refine .inr ⟨i, other, rest, hother, ?_, hrest⟩
        rw [show position + 1 + i = position + (i + 1) by omega]

theorem mem_entryLeafPaths_iff (entries : Entries Value) (path : List String) (leaf : Value) :
    (path, leaf) ∈ entryLeafPaths entries ↔
      ∃ key item rest, (key, item) ∈ entries ∧ path = key :: rest ∧
        (rest, leaf) ∈ item.leafPaths := by
  induction entries with
  | nil => simp [entryLeafPaths]
  | cons entry entries ih =>
    obtain ⟨name, value⟩ := entry
    rw [entryLeafPaths, List.mem_append, ih]
    constructor
    · rintro (h | ⟨key, item, rest, hitem, rfl, hrest⟩)
      · obtain ⟨⟨rest, inner⟩, hrest, heq⟩ := List.mem_map.1 h
        cases heq
        exact ⟨name, value, rest, List.mem_cons_self, rfl, hrest⟩
      · exact ⟨key, item, rest, List.mem_cons_of_mem _ hitem, rfl, hrest⟩
    · rintro ⟨key, item, rest, hitem, rfl, hrest⟩
      rcases List.mem_cons.1 hitem with heq | hitem
      · cases heq
        exact .inl (List.mem_map.2 ⟨_, hrest, rfl⟩)
      · exact .inr ⟨key, item, rest, hitem, rfl, hrest⟩

theorem leadsTo_iff_of_scalar {value : Value} (h : value.members = []) (path : List String)
    (inner : Value) : value.LeadsTo path inner ↔ path = [] ∧ inner = value := by
  constructor
  · intro hleads
    cases hleads with
    | here => exact ⟨rfl, rfl⟩
    | item hitem => simp [members] at h; simp [h] at hitem
    | entry hentry => simp [members, Entries.values] at h; simp [h] at hentry
  · rintro ⟨rfl, rfl⟩
    exact .here _

/-- The paths that are written are those that lead to scalars. -/
theorem mem_leafPaths_iff (value : Value) (path : List String) (leaf : Value) :
    (path, leaf) ∈ value.leafPaths ↔ value.LeadsTo path leaf ∧ leaf.IsScalar := by
  induction value using induction_members generalizing path with
  | step value ih =>
    cases value with
    | null =>
      rw [leadsTo_iff_of_scalar rfl]
      simp only [leafPaths, List.not_mem_nil, false_iff, not_and]
      rintro ⟨-, rfl⟩ hscalar
      exact hscalar.1 rfl
    | bool | number | text | date | pattern =>
      rw [leadsTo_iff_of_scalar rfl]
      simp only [leafPaths, List.mem_singleton, Prod.mk.injEq, iff_self_and]
      rintro ⟨-, rfl⟩
      simp [IsScalar, kind]
    | sequence items =>
      rw [leafPaths, mem_itemLeafPaths_iff]
      constructor
      · rintro ⟨i, item, rest, hitem, rfl, hrest⟩
        have hmem : item ∈ items := List.mem_of_getElem? hitem
        obtain ⟨hleads, hscalar⟩ := (ih item hmem rest).1 hrest
        rw [Nat.zero_add]
        exact ⟨.item hitem hleads, hscalar⟩
      · rintro ⟨hleads, hscalar⟩
        cases hleads with
        | here => simp [IsScalar, kind] at hscalar
        | @item _ i item _ rest hitem hleads =>
          have hmem : item ∈ items := List.mem_of_getElem? hitem
          exact ⟨i, item, rest, hitem, by rw [Nat.zero_add], (ih item hmem rest).2 ⟨hleads, hscalar⟩⟩
    | mapping entries =>
      rw [leafPaths, mem_entryLeafPaths_iff]
      constructor
      · rintro ⟨key, item, rest, hitem, rfl, hrest⟩
        have hmem : item ∈ Entries.values entries := List.mem_map_of_mem hitem
        obtain ⟨hleads, hscalar⟩ := (ih item hmem rest).1 hrest
        exact ⟨.entry hitem hleads, hscalar⟩
      · rintro ⟨hleads, hscalar⟩
        cases hleads with
        | here => simp [IsScalar, kind] at hscalar
        | @entry _ key item _ rest hitem hleads =>
          have hmem : item ∈ Entries.values entries := List.mem_map_of_mem hitem
          exact ⟨key, item, rest, hitem, rfl, (ih item hmem rest).2 ⟨hleads, hscalar⟩⟩

theorem mem_leavesInside_iff (value : Value) (path : List String) (leaf : Value) :
    (path, leaf) ∈ value.leavesInside ↔
      path ≠ [] ∧ value.LeadsTo path leaf ∧ leaf.IsScalar := by
  cases value with
  | sequence items =>
    have hiff := mem_leafPaths_iff (.sequence items) path leaf
    rw [leafPaths] at hiff
    rw [leavesInside, ← hiff, iff_and_self, mem_itemLeafPaths_iff]
    rintro ⟨i, item, rest, -, rfl, -⟩
    exact List.cons_ne_nil _ _
  | mapping entries =>
    have hiff := mem_leafPaths_iff (.mapping entries) path leaf
    rw [leafPaths] at hiff
    rw [leavesInside, ← hiff, iff_and_self, mem_entryLeafPaths_iff]
    rintro ⟨key, item, rest, -, rfl, -⟩
    exact List.cons_ne_nil _ _
  | _ =>
    rw [leadsTo_iff_of_scalar rfl]
    simp only [leavesInside, List.not_mem_nil, false_iff]
    rintro ⟨hne, ⟨heq, -⟩, -⟩
    exact hne heq

end Value

namespace Query

/-! ## Reading parts -/

/-- Reads a name with a closing bracket behind it. -/
def closedName? (cs : List Char) : Option (List Char) :=
  match Text.splitAll ']' cs with
  | [name, []] => some name
  | _ => none

/-- The pieces of a key, cut at its brackets as they stand.  A key is a base and names in
brackets behind it. -/
def keyPieces? (key : List Char) : Option (List (List Char)) :=
  match Text.splitAll '[' key with
  | base :: groups =>
      if ']' ∈ base then none else (groups.mapM closedName?).map (base :: ·)
  | [] => none

/-- Reads a part as a path and a text: cuts it at its first equals sign and the key at its
brackets, and only then reads the escapes of each piece by itself. -/
def readPart? (part : List Char) : Option (List String × String) :=
  if '=' ∈ part then do
    let (key, text) := Text.cutAt '=' part
    let pieces ← keyPieces? key
    let path ← pieces.mapM fun piece => Text.Percent.decode? (String.ofList piece)
    let text ← Text.Percent.decode? (String.ofList text)
    return (path, text)
  else none

/-- Reading one thing after another gives a list if each thing is read. -/
theorem mapM_map_eq_some {α β γ : Type} {f : β → Option γ} {g : α → β} {h : α → γ}
    {inputs : List α} (hread : ∀ a ∈ inputs, f (g a) = some (h a)) :
    (inputs.map g).mapM f = some (inputs.map h) := by
  rw [mapM_eq_some_iff, List.forall₂_map_left_iff, List.forall₂_map_right_iff, List.forall₂_same]
  exact hread

theorem closedName?_append {name : List Char} (h : ']' ∉ name) :
    closedName? (name ++ [']']) = some name := by
  have hsplit : Text.splitAll ']' (name ++ [']']) = [name, []] := Text.splitAll_append h []
  rw [closedName?, hsplit]

/-- Behind an opening bracket, what is left of a key is a key again. -/
theorem splitAll_keyOf {base : String} {names : List String}
    (h : ∀ name ∈ base :: names, '[' ∉ name.toList) :
    Text.splitAll '[' (keyOf (base :: names)).toList =
      base.toList :: names.map fun name => name.toList ++ [']'] := by
  induction names generalizing base with
  | nil =>
    rw [keyOf, brackets, String.append_empty]
    exact Text.splitAll_of_not_mem (h base List.mem_cons_self)
  | cons name names ih =>
    rw [List.forall_mem_cons] at h
    have hchars : (keyOf (base :: name :: names)).toList =
        base.toList ++ '[' :: (keyOf ((name ++ "]") :: names)).toList := by
      simp [keyOf, brackets]
    have hrest : ∀ other ∈ (name ++ "]") :: names, '[' ∉ other.toList := by
      rw [List.forall_mem_cons] at h ⊢
      exact ⟨by simpa using h.2.1, h.2.2⟩
    rw [hchars, Text.splitAll_append h.1, ih hrest]
    simp

theorem keyPieces?_keyOf {base : String} {names : List String}
    (hopen : ∀ name ∈ base :: names, '[' ∉ name.toList)
    (hclose : ∀ name ∈ base :: names, ']' ∉ name.toList) :
    keyPieces? (keyOf (base :: names)).toList = some ((base :: names).map String.toList) := by
  rw [List.forall_mem_cons] at hclose
  have hgroups : (names.map fun name => name.toList ++ [']']).mapM closedName? =
      some (names.map String.toList) :=
    mapM_map_eq_some fun name hname => closedName?_append (hclose.2 name hname)
  rw [keyPieces?, splitAll_keyOf hopen]
  simp [hclose.1, hgroups]

/-- A path that is not empty is read from its part, whatever its names and the text are. -/
theorem readPart?_partOf {path : List String} (h : path ≠ []) (text : String) :
    readPart? (partOf path text).toList = some (path, text) := by
  cases path with
  | nil => exact absurd rfl h
  | cons base names =>
    have hnot (c : Char) (hwritten : Text.Percent.isWritten c = false) :
        ∀ name ∈ (base :: names).map Text.Percent.encode, c ∉ name.toList := by
      intro name hname
      obtain ⟨plain, -, rfl⟩ := List.mem_map.1 hname
      exact Text.Percent.not_mem_encode hwritten
    have hpieces : keyPieces? (keyOf ((base :: names).map Text.Percent.encode)).toList =
        some (((base :: names).map Text.Percent.encode).map String.toList) :=
      keyPieces?_keyOf (hnot '[' (by decide)) (hnot ']' (by decide))
    have hpath : (((base :: names).map Text.Percent.encode).map String.toList).mapM
        (fun piece => Text.Percent.decode? (String.ofList piece)) = some (base :: names) := by
      rw [List.map_map, ← List.map_id (base :: names), List.map_map]
      refine mapM_map_eq_some fun name _ => ?_
      simp [Text.Percent.decode?_encode]
    have htext : Text.Percent.decode? (String.ofList (Text.Percent.encode text).toList) =
        some text := by
      rw [String.ofList_toList, Text.Percent.decode?_encode]
    have hmem : '=' ∈ (partOf (base :: names) text).toList := by simp [partOf]
    rw [readPart?, if_pos hmem, cutAt_partOf]
    dsimp only
    rw [hpieces, Option.bind_eq_bind, Option.bind_some, hpath, Option.bind_eq_bind,
      Option.bind_some, htext]
    rfl

/-- A written query has one reading.  The scalars inside a value are those to which a path
of keys and positions leads.  If there are none then nothing is written.  Otherwise the
query has one part for each, in their order, and each part is read as the path of its
scalar and the scalar's text, by cutting it where its separators stand. -/
theorem read_encode (value : Value) :
    (∀ path leaf, (path, leaf) ∈ value.leavesInside ↔
      path ≠ [] ∧ value.LeadsTo path leaf ∧ leaf.IsScalar) ∧
    if value.leavesInside = [] then encode value none = ""
    else (Text.splitAll '&' (encode value none).toList).mapM readPart? =
      some (value.leavesInside.map fun leaf => (leaf.1, leaf.2.display)) := by
  refine ⟨fun path leaf => Value.mem_leavesInside_iff value path leaf, ?_⟩
  split
  · rename_i hnone
    rw [encode, parts_eq, hnone]
    rfl
  · rename_i hsome
    rw [splitAll_encode, if_neg hsome]
    refine mapM_map_eq_some fun leaf hleaf => ?_
    exact readPart?_partOf ((Value.mem_leavesInside_iff value leaf.1 leaf.2).1 hleaf).1 _

end Query

end DataExpr
