import DataExpr.Proofs.Value.Contents
import DataExpr.Proofs.Value.Lookup

/-!
# The values inside a value

`Value.members` are the items of a sequence and the values of a mapping, and
`Value.Contains` relates a value to all that is inside, at any depth.  Members are smaller
than the value, so that what passes from members to the value holds of every value
(`Value.induction_members`).
-/

namespace DataExpr.Value

/-- The values directly inside a value. -/
def members : Value → List Value
  | .sequence items => items
  | .mapping entries => Entries.values entries
  | _ => []

/-- A value contains itself and what its members contain. -/
inductive Contains : Value → Value → Prop
  | self (value : Value) : Contains value value
  | inside {value member inner : Value} (hmem : member ∈ value.members)
      (h : Contains member inner) : Contains value inner

theorem contains_iff (value inner : Value) :
    value.Contains inner ↔ value = inner ∨ ∃ member ∈ value.members, member.Contains inner := by
  constructor
  · rintro (_ | ⟨hmem, h⟩)
    · exact .inl rfl
    · exact .inr ⟨_, hmem, h⟩
  · rintro (rfl | ⟨member, hmem, h⟩)
    · exact .self value
    · exact .inside hmem h

theorem sizeOf_lt_of_mem_members {value member : Value} (h : member ∈ value.members) :
    sizeOf member < sizeOf value := by
  cases value with
  | sequence items =>
    have hlt : sizeOf member < sizeOf items := List.sizeOf_lt_of_mem h
    simp only [sequence.sizeOf_spec]
    omega
  | mapping entries =>
    obtain ⟨⟨key, item⟩, hentry, rfl⟩ := List.mem_map.1 h
    have hlt : sizeOf (key, item) < sizeOf entries := List.sizeOf_lt_of_mem hentry
    simp only [Prod.mk.sizeOf_spec] at hlt
    simp only [mapping.sizeOf_spec]
    omega
  | _ => simp [members] at h

/-- What holds of a value when it holds of its members holds of every value. -/
@[elab_as_elim]
theorem induction_members {motive : Value → Prop} (value : Value)
    (step : ∀ value, (∀ member ∈ value.members, motive member) → motive value) : motive value :=
  step value fun member _ => induction_members member step
termination_by sizeOf value
decreasing_by exact sizeOf_lt_of_mem_members ‹_›

theorem WellFormed.of_mem_members {value member : Value} (h : value.WellFormed)
    (hmem : member ∈ value.members) : member.WellFormed := by
  cases value with
  | sequence items => exact (itemsWellFormed_iff items).1 h member hmem
  | mapping entries =>
    obtain ⟨entry, hentry, rfl⟩ := List.mem_map.1 hmem
    exact (entriesWellFormed_iff entries).1 h.2 entry hentry
  | _ => simp [members] at hmem

end DataExpr.Value
