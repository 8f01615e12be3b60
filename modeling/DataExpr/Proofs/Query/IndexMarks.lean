import DataExpr.Proofs.Decimal.Positions
import DataExpr.Proofs.Query.Indexed
import Mathlib.Data.Set.List

/-!
# Finding the order of indices with marks

`inIndexOrder?` looks up one index after the other.  The same order is found in place
(`inIndexOrder?_eq_place`): one pass over the keys gives up at a key that is no index, is past
the last one or was met before (`positions?`), and then every value is written to its position
in a sequence of nulls (`place`).

While the keys are read, exactly the indices that were met are marked (`Marked`).  At the end
they are different and as many as the entries, so that every position is written once and none
is left out (`positions?_eq_some_iff`).
-/

namespace DataExpr.Query

/-! ## One pass over the keys -/

/-- The positions that keys name.  There is a mark for every index, set once the index was
met, and no key may name an index without a mark or with its mark set. -/
def positionsFrom? (marks : List Bool) : List String → Option (List Nat)
  | [] => some []
  | key :: keys =>
      match Decimal.readIndex? key with
      | some i =>
          if marks[i]? = some false then
            (positionsFrom? (marks.set i true) keys).map (i :: ·)
          else none
      | none => none

/-- The positions of entries whose keys are the indices from zero on. -/
def positions? (entries : Entries Value) : Option (List Nat) :=
  if entries.isEmpty then none
  else positionsFrom? (List.replicate entries.length false) (Entries.keys entries)

/-- Exactly the indices that were met are marked. -/
structure Marked (length : Nat) (met : List Nat) (marks : List Bool) : Prop where
  length_eq : marks.length = length
  getElem?_eq : ∀ i < length, marks[i]? = some (decide (i ∈ met))

theorem marked_start (length : Nat) : Marked length [] (List.replicate length false) where
  length_eq := List.length_replicate
  getElem?_eq i hi := by simp [hi]

namespace Marked

variable {length : Nat} {met : List Nat} {marks : List Bool}

/-- A mark that is there and not set belongs to an index that was not met yet. -/
theorem unset_iff (h : Marked length met marks) (i : Nat) :
    marks[i]? = some false ↔ i < length ∧ i ∉ met := by
  by_cases hi : i < length
  · rw [h.getElem?_eq i hi]
    simp [hi]
  · have hnone : marks[i]? = none := by
      rw [List.getElem?_eq_none_iff, h.length_eq]
      exact Nat.le_of_not_lt hi
    simp [hnone, hi]

/-- One more index is met. -/
theorem set (h : Marked length met marks) (i : Nat) :
    Marked length (i :: met) (marks.set i true) where
  length_eq := by rw [List.length_set, h.length_eq]
  getElem?_eq j hj := by
    rw [List.getElem?_set, h.length_eq, h.getElem?_eq j hj]
    by_cases hij : i = j
    · simp [hij, hj]
    · simp [hij, Ne.symm hij]

/-- Keys are read if they are the decimal numbers of different indices, none of which was met
before. -/
theorem positionsFrom?_eq_some_iff (h : Marked length met marks)
    (hlimit : length ≤ Decimal.positionLimit) (keys : List String) (positions : List Nat) :
    positionsFrom? marks keys = some positions ↔
      keys = positions.map Nat.repr ∧ positions.Nodup ∧ ∀ i ∈ positions, i < length ∧ i ∉ met := by
  induction keys generalizing met marks positions with
  | nil =>
    rw [positionsFrom?, Option.some.injEq]
    constructor
    · rintro rfl
      simp
    · rintro ⟨hkeys, -⟩
      exact (List.map_eq_nil_iff.1 hkeys.symm).symm
  | cons key keys ih =>
    rw [positionsFrom?]
    constructor
    · intro hread
      split at hread
      · rename_i i hkey
        obtain ⟨rfl, -⟩ := Decimal.readIndex?_eq_some_iff.1 hkey
        split at hread
        · rename_i hunset
          obtain ⟨rest, hrest, rfl⟩ := Option.map_eq_some_iff.1 hread
          obtain ⟨rfl, hnodup, hbelow⟩ := (ih (h.set i) rest).1 hrest
          have hnotMem : i ∉ rest := fun hmem => (hbelow i hmem).2 List.mem_cons_self
          refine ⟨rfl, List.nodup_cons.2 ⟨hnotMem, hnodup⟩, List.forall_mem_cons.2 ⟨?_, ?_⟩⟩
          · exact (h.unset_iff i).1 hunset
          · exact fun j hj => (hbelow j hj).imp_right (mt (List.mem_cons_of_mem i))
        · cases hread
      · cases hread
    · rintro ⟨hkeys, hnodup, hbelow⟩
      cases positions with
      | nil => cases hkeys
      | cons i rest =>
        rw [List.map_cons, List.cons.injEq] at hkeys
        obtain ⟨rfl, hkeys⟩ := hkeys
        obtain ⟨hnotMem, hnodup⟩ := List.nodup_cons.1 hnodup
        obtain ⟨hi, hbelow⟩ := List.forall_mem_cons.1 hbelow
        have hkey : Decimal.readIndex? (Nat.repr i) = some i :=
          Decimal.readIndex?_eq_some_iff.2 ⟨rfl, Nat.lt_of_lt_of_le hi.1 hlimit⟩
        have hrest : positionsFrom? (marks.set i true) keys = some rest := by
          refine (ih (h.set i) rest).2 ⟨hkeys, hnodup, fun j hj => ⟨(hbelow j hj).1, ?_⟩⟩
          rw [List.mem_cons, not_or]
          exact ⟨fun hji => hnotMem (hji ▸ hj), (hbelow j hj).2⟩
        simp only [hkey, if_pos ((h.unset_iff i).2 hi), hrest, Option.map_some]

end Marked

/-- Different positions below a number, as many as that, are all positions below it. -/
theorem perm_range_of_nodup {positions : List Nat} {length : Nat} (hnodup : positions.Nodup)
    (hbelow : ∀ i ∈ positions, i < length) (hlength : positions.length = length) :
    positions.Perm (List.range length) := by
  have hsubset : positions ⊆ List.range length := fun i hi => List.mem_range.2 (hbelow i hi)
  refine (List.subperm_of_subset hnodup hsubset).perm_of_length_le ?_
  exact Nat.le_of_eq (List.length_range.trans hlength.symm)

/-- The positions of entries are all positions, each of them once. -/
theorem positions?_eq_some_iff {entries : Entries Value}
    (hlimit : entries.length ≤ Decimal.positionLimit) (positions : List Nat) :
    positions? entries = some positions ↔
      entries ≠ [] ∧ Entries.keys entries = positions.map Nat.repr ∧
        positions.Perm (List.range entries.length) := by
  have hread := (marked_start entries.length).positionsFrom?_eq_some_iff hlimit
    (Entries.keys entries) positions
  rw [positions?]
  by_cases hempty : entries = []
  · simp [hempty]
  rw [if_neg (by simpa using hempty), hread]
  constructor
  · rintro ⟨hkeys, hnodup, hbelow⟩
    have hlength : positions.length = entries.length := by
      simpa [Entries.keys] using (congrArg List.length hkeys).symm
    exact ⟨hempty, hkeys, perm_range_of_nodup hnodup (fun i hi => (hbelow i hi).1) hlength⟩
  · rintro ⟨-, hkeys, hperm⟩
    refine ⟨hkeys, hperm.nodup_iff.2 List.nodup_range, fun i hi => ⟨?_, List.not_mem_nil⟩⟩
    exact List.mem_range.1 (hperm.mem_iff.1 hi)

/-! ## Writing to positions -/

/-- Writes values to positions of items, one after the other. -/
def writeAll (items : List Value) (writes : List (Value × Nat)) : List Value :=
  writes.foldl (fun items write => items.set write.2 write.1) items

/-- Values at their positions, written over nulls. -/
def place (values : List Value) (positions : List Nat) : List Value :=
  writeAll (List.replicate positions.length .null) (values.zip positions)

/-- Entries as a sequence in the order of their positions, if they have positions. -/
def arrange (entries : Entries Value) : Value :=
  match positions? entries with
  | some positions => .sequence (place (Entries.values entries) positions)
  | none => .mapping entries

theorem length_writeAll (items : List Value) (writes : List (Value × Nat)) :
    (writeAll items writes).length = items.length := by
  induction writes generalizing items with
  | nil => rfl
  | cons write writes ih =>
    have hrest := ih (items.set write.2 write.1)
    rwa [List.length_set] at hrest

theorem getElem?_writeAll_of_not_mem {writes : List (Value × Nat)} {i : Nat}
    (h : i ∉ writes.map Prod.snd) (items : List Value) :
    (writeAll items writes)[i]? = items[i]? := by
  induction writes generalizing items with
  | nil => rfl
  | cons write writes ih =>
    rw [List.map_cons, List.mem_cons, not_or] at h
    have hrest := ih h.2 (items.set write.2 write.1)
    rwa [List.getElem?_set_ne (Ne.symm h.1)] at hrest

/-- What is written to a position stays there, if no position is written twice. -/
theorem getElem?_writeAll {writes : List (Value × Nat)} (hnodup : (writes.map Prod.snd).Nodup)
    {value : Value} {i : Nat} (hmem : (value, i) ∈ writes) {items : List Value}
    (hi : i < items.length) : (writeAll items writes)[i]? = some value := by
  induction writes generalizing items with
  | nil => cases hmem
  | cons write writes ih =>
    obtain ⟨hnew, hnodup⟩ := List.nodup_cons.1 hnodup
    rcases List.mem_cons.1 hmem with rfl | hmem
    · have hkept := getElem?_writeAll_of_not_mem hnew (items.set i value)
      rwa [List.getElem?_set_self hi] at hkept
    · exact ih hnodup hmem (by rwa [List.length_set])

/-- Every value comes to its position. -/
theorem getElem?_place {values : List Value} {positions : List Nat}
    (hlength : values.length = positions.length)
    (hperm : positions.Perm (List.range positions.length)) {value : Value} {i : Nat}
    (hmem : (value, i) ∈ values.zip positions) : (place values positions)[i]? = some value := by
  have hwritten : (values.zip positions).map Prod.snd = positions :=
    List.map_snd_zip (Nat.le_of_eq hlength.symm)
  apply getElem?_writeAll _ hmem
  · rw [List.length_replicate]
    exact List.mem_range.1 (hperm.mem_iff.1 (List.of_mem_zip hmem).2)
  · rw [hwritten]
    exact hperm.nodup_iff.2 List.nodup_range

/-! ## The same order -/

/-- Each value with its position is an entry. -/
theorem mem_of_mem_zip_positions {entries : Entries Value} {positions : List Nat}
    (h : Entries.keys entries = positions.map Nat.repr) {value : Value} {i : Nat}
    (hmem : (value, i) ∈ (Entries.values entries).zip positions) :
    (Nat.repr i, value) ∈ entries := by
  induction entries generalizing positions with
  | nil => cases hmem
  | cons entry entries ih =>
    obtain ⟨key, item⟩ := entry
    cases positions with
    | nil => cases h
    | cons position positions =>
      obtain ⟨rfl, hkeys⟩ : key = Nat.repr position ∧ Entries.keys entries = _ := List.cons.inj h
      rcases List.mem_cons.1 hmem with heq | hmem
      · obtain ⟨rfl, rfl⟩ := Prod.mk.inj heq
        exact List.mem_cons_self
      · exact List.mem_cons_of_mem _ (ih hkeys hmem)

/-- Values that are placed by the positions of their keys are in the order of the indices. -/
theorem inIndexOrder?_of_positions? {entries : Entries Value}
    (hlimit : entries.length ≤ Decimal.positionLimit) {positions : List Nat}
    (h : positions? entries = some positions) :
    inIndexOrder? entries = some (place (Entries.values entries) positions) := by
  obtain ⟨hne, hkeys, hperm⟩ := (positions?_eq_some_iff hlimit positions).1 h
  have hlength : entries.length = positions.length := by
    simpa using hperm.length_eq.symm
  have hvalues : (Entries.values entries).length = positions.length := by
    rw [← hlength]
    exact List.length_map _
  have hunique : Entries.Unique entries := by
    rw [Entries.Unique, hkeys]
    exact (hperm.nodup_iff.2 List.nodup_range).map repr_injective
  rw [hlength] at hperm
  refine (inIndexOrder?_eq_some_iff _ _).2 ⟨hne, List.forall₂_iff_get.2 ⟨?_, ?_⟩⟩
  · rw [List.length_range, place, length_writeAll, List.length_replicate, hlength]
  · intro i hi hplaced
    rw [List.length_range, hlength] at hi
    have hwritten : ((Entries.values entries).zip positions).map Prod.snd = positions :=
      List.map_snd_zip (Nat.le_of_eq hvalues.symm)
    have hposition : i ∈ positions := hperm.mem_iff.2 (List.mem_range.2 hi)
    rw [← hwritten] at hposition
    obtain ⟨⟨value, _⟩, hmem, rfl⟩ := List.mem_map.1 hposition
    obtain ⟨_, hvalue⟩ := List.getElem?_eq_some_iff.1 (getElem?_place hvalues hperm hmem)
    rw [List.get_eq_getElem, List.get_eq_getElem, List.getElem_range, hvalue]
    exact Entries.get?_of_mem hunique (mem_of_mem_zip_positions hkeys hmem)

/-- Looking indices up finds the same order as one pass over the keys, as long as positions can
be read. -/
theorem inIndexOrder?_eq_place {entries : Entries Value}
    (hlimit : entries.length ≤ Decimal.positionLimit) :
    inIndexOrder? entries = (positions? entries).map (place (Entries.values entries)) := by
  cases hread : positions? entries with
  | some positions => exact inIndexOrder?_of_positions? hlimit hread
  | none =>
    rw [Option.map_none, Option.eq_none_iff_forall_ne_some]
    intro items hitems
    have hne := ((inIndexOrder?_eq_some_iff entries items).1 hitems).1
    have hperm := keys_perm_of_inIndexOrder? hitems
    have hrange : Entries.keys entries ∈ Set.range (List.map Nat.repr) := by
      rw [Set.range_list_map]
      intro key hkey
      obtain ⟨i, -, hi⟩ := List.mem_map.1 (hperm.mem_iff.1 hkey)
      exact ⟨i, hi⟩
    obtain ⟨positions, hkeys⟩ := hrange
    rw [← hkeys, List.map_perm_map_iff repr_injective] at hperm
    have hsome := (positions?_eq_some_iff hlimit positions).2 ⟨hne, hkeys.symm, hperm⟩
    rw [hread] at hsome
    cases hsome

end DataExpr.Query
