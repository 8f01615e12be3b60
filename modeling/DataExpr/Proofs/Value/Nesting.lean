import DataExpr.Proofs.Value.Members

/-!
# How deep containers are nested

`Value.nesting` counts the containers that are inside one another.  It depends on the nesting of
the members only, and not on their order (`itemsNesting_perm`).
-/

namespace DataExpr.Value

mutual

/-- The greatest number of containers that are inside one another. -/
def nesting : Value → Nat
  | .sequence items => itemsNesting items + 1
  | .mapping entries => entriesNesting entries + 1
  | _ => 0

/-- The greatest nesting of items. -/
def itemsNesting : List Value → Nat
  | [] => 0
  | item :: items => max item.nesting (itemsNesting items)

/-- The greatest nesting of the values of entries. -/
def entriesNesting : List (String × Value) → Nat
  | [] => 0
  | (_, item) :: entries => max item.nesting (entriesNesting entries)

end

theorem entriesNesting_eq (entries : Entries Value) :
    entriesNesting entries = itemsNesting (Entries.values entries) := by
  induction entries with
  | nil => rfl
  | cons entry entries ih =>
    obtain ⟨key, item⟩ := entry
    exact congrArg (max item.nesting) ih

theorem nesting_le_itemsNesting {items : List Value} {item : Value} (h : item ∈ items) :
    item.nesting ≤ itemsNesting items := by
  induction items with
  | nil => cases h
  | cons first items ih =>
    rw [itemsNesting]
    rcases List.mem_cons.1 h with rfl | h
    · exact Nat.le_max_left _ _
    · exact Nat.le_trans (ih h) (Nat.le_max_right _ _)

theorem itemsNesting_le {items : List Value} {nesting : Nat}
    (h : ∀ item ∈ items, item.nesting ≤ nesting) : itemsNesting items ≤ nesting := by
  induction items with
  | nil => exact Nat.zero_le _
  | cons item items ih =>
    rw [List.forall_mem_cons] at h
    exact Nat.max_le.2 ⟨h.1, ih h.2⟩

theorem itemsNesting_perm {items others : List Value} (h : items.Perm others) :
    itemsNesting items = itemsNesting others := by
  apply Nat.le_antisymm
  · exact itemsNesting_le fun item hitem => nesting_le_itemsNesting (h.mem_iff.1 hitem)
  · exact itemsNesting_le fun item hitem => nesting_le_itemsNesting (h.mem_iff.2 hitem)

/-- Changing items changes nothing if each keeps its nesting. -/
theorem itemsNesting_map {items : List Value} {f : Value → Value}
    (h : ∀ item ∈ items, (f item).nesting = item.nesting) :
    itemsNesting (items.map f) = itemsNesting items := by
  induction items with
  | nil => rfl
  | cons item items ih =>
    rw [List.forall_mem_cons] at h
    rw [List.map_cons, itemsNesting, itemsNesting, h.1, ih h.2]

end DataExpr.Value
