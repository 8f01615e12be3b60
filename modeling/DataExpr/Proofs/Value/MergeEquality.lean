import DataExpr.Proofs.Value.Equality
import DataExpr.Proofs.Value.Merging

/-!
# Merging respects deep equality

Merging deeply equal values gives deeply equal values (`deepEqual_merge`).  So the order
of keys, the parts of dates below a millisecond and the sign of zero do not matter to what
is merged.

Equal values have the same kind and count as true together, which is all that `blend`
looks at.  So both merges have the same outcome, and each of the four outcomes makes equal
values of equal ones.
-/

namespace DataExpr.Value

/-- The two have equal values, or both have none. -/
abbrev OptionsEqual : Option Value → Option Value → Prop :=
  Option.Rel fun a b => a.deepEqual b = true

theorem forall₂_spread {a b : Value} (h : a.deepEqual b) :
    List.Forall₂ (fun x y => x.deepEqual y = true) a.spread b.spread := by
  cases a with
  | sequence items =>
    cases b with
    | sequence others => exact (itemsEqual_iff _ _).1 h
    | _ => simp [deepEqual] at h
  | _ =>
    cases b with
    | sequence others => simp [deepEqual] at h
    | _ => exact .cons h .nil

/-- Equal values have equal entries, as far as they have any. -/
theorem optionsEqual_entriesOrNone {a b : Value} (ha : a.WellFormed) (hb : b.WellFormed)
    (h : a.deepEqual b) (key : String) :
    OptionsEqual (Entries.get? a.entriesOrNone key) (Entries.get? b.entriesOrNone key) := by
  cases a with
  | mapping entries =>
    cases b with
    | mapping others => exact (deepEqual_mapping_iff ha.1 hb.1).1 h key
    | _ => simp [deepEqual] at h
  | _ =>
    cases b with
    | mapping others => simp [deepEqual] at h
    | _ => exact .none

/-- Merging what is under a key respects equality if merging the values does. -/
theorem optionsEqual_merge {a b c d : Option Value} (hab : OptionsEqual a b)
    (hcd : OptionsEqual c d)
    (h : ∀ x ∈ a, ∀ y ∈ b, ∀ z ∈ c, ∀ w ∈ d, x.deepEqual y → z.deepEqual w →
      (mergeInto x z).deepEqual (mergeInto y w)) :
    OptionsEqual (Option.merge mergeInto a c) (Option.merge mergeInto b d) := by
  cases hab with
  | none =>
    cases hcd with
    | none => exact .none
    | some hzw => exact .some hzw
  | some hxy =>
    cases hcd with
    | none => exact .some hxy
    | some hzw => exact .some (h _ rfl _ rfl _ rfl _ rfl hxy hzw)

theorem deepEqual_mergeInto {acc other value more : Value}
    (hacc : acc.WellFormed) (hother : other.WellFormed)
    (hvalue : value.WellFormed) (hmore : more.WellFormed)
    (hfirst : acc.deepEqual other) (hsecond : value.deepEqual more) :
    (mergeInto acc value).deepEqual (mergeInto other more) := by
  -- The induction is on one of the second values, because its members are what is merged
  -- further down.
  induction value using induction_members generalizing acc other more with
  | step value ih =>
    rw [mergeInto_eq, mergeInto_eq, isTruthy_eq_of_deepEqual hfirst,
      kind_eq_of_deepEqual hfirst, kind_eq_of_deepEqual hsecond]
    split
    · exact hsecond
    · rw [deepEqual, itemsEqual_iff]
      exact List.rel_append (forall₂_spread hfirst) (forall₂_spread hsecond)
    · have hentries := hvalue.entriesOrNone
      have hothers := hmore.entriesOrNone
      rw [deepEqual_mapping_iff (unique_mergeEntries hacc.entriesOrNone.1 _)
        (unique_mergeEntries hother.entriesOrNone.1 _)]
      intro key
      rw [get?_mergeEntries hentries.1, get?_mergeEntries hothers.1]
      refine optionsEqual_merge (optionsEqual_entriesOrNone hacc hother hfirst key)
        (optionsEqual_entriesOrNone hvalue hmore hsecond key) ?_
      intro x hx y hy z hz w hw hxy hzw
      have hmem : z ∈ value.members :=
        mem_members_of_mem_entriesOrNone (Entries.mem_values_of_get? hz)
      exact ih z hmem (hacc.entriesOrNone.get? hx) (hother.entriesOrNone.get? hy)
        (hentries.get? hz) (hothers.get? hw) hxy hzw
    · exact hfirst

/-- What has been merged so far stays equal with every further pair of equal values. -/
theorem deepEqual_foldl_mergeInto {acc other : Value} {values others : List Value}
    (hacc : acc.WellFormed) (hother : other.WellFormed) (hfirst : acc.deepEqual other)
    (hvalues : ∀ value ∈ values, value.WellFormed) (hothers : ∀ value ∈ others, value.WellFormed)
    (h : List.Forall₂ (fun a b => a.deepEqual b = true) values others) :
    (values.foldl mergeInto acc).deepEqual (others.foldl mergeInto other) := by
  induction h generalizing acc other with
  | nil => exact hfirst
  | cons hhead _ ih =>
    rw [List.forall_mem_cons] at hvalues hothers
    exact ih (hacc.mergeInto hvalues.1) (hother.mergeInto hothers.1)
      (deepEqual_mergeInto hacc hother hvalues.1 hothers.1 hfirst hhead) hvalues.2 hothers.2

/-- Lists of values that are deeply equal one by one are merged into deeply equal
values. -/
theorem deepEqual_merge {values others : List Value}
    (hvalues : ∀ value ∈ values, value.WellFormed) (hothers : ∀ value ∈ others, value.WellFormed)
    (h : List.Forall₂ (fun a b => a.deepEqual b = true) values others) :
    (merge values).deepEqual (merge others) := by
  cases h with
  | nil => rfl
  | cons hhead htail =>
    rw [List.forall_mem_cons] at hvalues hothers
    exact deepEqual_foldl_mergeInto hvalues.1 hothers.1 hhead hvalues.2 hothers.2 htail

/-- A mapping with a zero and a date, and one that goes into it. -/
def datedOptions : List Value :=
  [.mapping [("a", .number 0), ("b", .date ⟨0, 1⟩)],
    .mapping [("a", .mapping [("x", .null)]), ("b", .text "y")]]

/-- The same with the keys in other orders, the zero negative, and another instant of the
same millisecond. -/
def reorderedOptions : List Value :=
  [.mapping [("b", .date ⟨0, 2⟩), ("a", .number (-0))],
    .mapping [("b", .text "y"), ("a", .mapping [("x", .null)])]]

theorem deepEqual_merge_reorderedOptions :
    ((∀ value ∈ datedOptions, value.WellFormed) ∧ (∀ value ∈ reorderedOptions, value.WellFormed) ∧
      List.Forall₂ (fun a b => deepEqual a b = true) datedOptions reorderedOptions) ∧
      (merge datedOptions).deepEqual (merge reorderedOptions) := by
  have hdated : ∀ value ∈ datedOptions, value.WellFormed := by
    simp [datedOptions, WellFormed, entriesWellFormed, Entries.Unique, Entries.keys]
  have hreordered : ∀ value ∈ reorderedOptions, value.WellFormed := by
    simp [reorderedOptions, WellFormed, entriesWellFormed, Entries.Unique, Entries.keys]
  have h : List.Forall₂ (fun a b => deepEqual a b = true) datedOptions reorderedOptions :=
    .cons (by decide) (.cons (by decide) .nil)
  exact ⟨⟨hdated, hreordered, h⟩, deepEqual_merge hdated hreordered h⟩

end DataExpr.Value
