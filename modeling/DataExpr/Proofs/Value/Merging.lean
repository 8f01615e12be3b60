import DataExpr.Proofs.Value.Members
import DataExpr.Value.Merge

/-!
# How values are merged

What becomes of two values depends on their kinds and on whether the first counts as
true, and on nothing else (`mergeInto_eq`).  There are four outcomes, the constructors of
`Blend`: the second takes the place of the first, both are put side by side, their entries
are merged, or the first stays.

Entries are merged key by key: `get?_mergeEntries` says what is under a key, and
`keys_mergeEntries` in which order the keys come.
-/

namespace DataExpr.Value

/-! ## The four outcomes -/

/-- What becomes of two values. -/
inductive Blend where
  /-- The second takes the place of the first. -/
  | replace
  /-- Both are put side by side in a sequence. -/
  | join
  /-- Their entries are merged. -/
  | combine
  /-- The first stays. -/
  | keep
  deriving DecidableEq, Repr

/-- The outcome for two kinds; `truthy` says whether the first value counts as true. -/
def blend (truthy : Bool) (first second : Kind) : Blend :=
  if !truthy then .replace
  else if first = .array ∨ second = .array then .join
  else if first.isPrimitive then .replace
  else if second.isPrimitive ∨ second = .null then .join
  else if second = .object then .combine
  else .keep

/-- What a value contributes to a sequence: the items of a sequence, and any other value
itself. -/
def spread : Value → List Value
  | .sequence items => items
  | value => [value]

/-- Merging two values has the outcome that is told by their kinds. -/
theorem mergeInto_eq (acc value : Value) :
    mergeInto acc value =
      match blend acc.isTruthy acc.kind value.kind with
      | .replace => value
      | .join => .sequence (acc.spread ++ value.spread)
      | .combine => .mapping (mergeEntries acc.entriesOrNone value.entriesOrNone)
      | .keep => acc := by
  cases htruthy : acc.isTruthy with
  | false => cases value <;> simp [mergeInto, htruthy, blend]
  | true =>
    cases acc <;> cases value <;>
      simp_all [mergeInto, blend, kind, Kind.isObjectLike, Kind.isPrimitive, isNull, spread,
        entriesOrNone, isTruthy]

/-! ## Entries -/

@[simp] theorem mergeEntries_nil (acc : Entries Value) : mergeEntries acc [] = acc := by
  rw [mergeEntries]

/-- What is under a key is merged if it is in both, and otherwise taken over. -/
theorem get?_mergeEntries {entries : Entries Value} (hunique : Entries.Unique entries)
    (acc : Entries Value) (key : String) :
    Entries.get? (mergeEntries acc entries) key =
      Option.merge mergeInto (Entries.get? acc key) (Entries.get? entries key) := by
  induction entries generalizing acc with
  | nil => cases hget : Entries.get? acc key <;> simp [hget]
  | cons entry entries ih =>
    obtain ⟨name, item⟩ := entry
    obtain ⟨hname, hunique⟩ := List.nodup_cons.1 hunique
    rw [mergeEntries, ih hunique, Entries.get?_cons]
    by_cases hkey : name = key
    · subst hkey
      rw [Entries.get?_alter_self, Entries.get?_eq_none_iff.2 hname, if_pos rfl]
      cases Entries.get? acc name <;> rfl
    · rw [Entries.get?_alter_of_ne _ _ (Ne.symm hkey), if_neg hkey]

/-- The keys are those of the first and then the new ones of the second, each in their
order. -/
theorem keys_mergeEntries {entries : Entries Value} (hunique : Entries.Unique entries)
    (acc : Entries Value) :
    Entries.keys (mergeEntries acc entries) =
      Entries.keys acc ++ (Entries.keys entries).filter (· ∉ Entries.keys acc) := by
  induction entries generalizing acc with
  | nil => simp [Entries.keys]
  | cons entry entries ih =>
    obtain ⟨name, item⟩ := entry
    obtain ⟨hname, hunique⟩ := List.nodup_cons.1 hunique
    have hcons : Entries.keys ((name, item) :: entries) = name :: Entries.keys entries := rfl
    rw [mergeEntries, ih hunique, Entries.keys_alter, hcons]
    split
    · rename_i hmem
      rw [List.filter_cons_of_neg (by simpa using hmem)]
    · rename_i hmem
      have hfilter : (Entries.keys entries).filter (· ∉ Entries.keys acc ++ [name]) =
          (Entries.keys entries).filter (· ∉ Entries.keys acc) := by
        refine List.filter_congr fun key hkey => ?_
        have hne : key ≠ name := fun heq => hname (heq ▸ hkey)
        simp [hne]
      rw [List.filter_cons_of_pos (by simpa using hmem), hfilter, List.append_assoc,
        List.singleton_append]

theorem unique_mergeEntries {acc : Entries Value} (h : Entries.Unique acc)
    (entries : Entries Value) : Entries.Unique (mergeEntries acc entries) := by
  induction entries generalizing acc with
  | nil => rwa [mergeEntries_nil]
  | cons entry entries ih =>
    obtain ⟨name, item⟩ := entry
    rw [mergeEntries]
    exact ih (h.alter _ _)

/-! ## Well-formed results -/

theorem WellFormed.entriesOrNone {value : Value} (h : value.WellFormed) :
    (mapping value.entriesOrNone).WellFormed := by
  cases value with
  | mapping entries => exact h
  | _ => exact wellFormed_mapping_nil

theorem mem_members_of_mem_entriesOrNone {value item : Value}
    (h : item ∈ Entries.values value.entriesOrNone) : item ∈ value.members := by
  cases value with
  | mapping entries => exact h
  | _ => simp [Value.entriesOrNone, Entries.values] at h

theorem WellFormed.of_mem_spread {value item : Value} (h : value.WellFormed)
    (hitem : item ∈ value.spread) : item.WellFormed := by
  cases value with
  | sequence items => exact h.of_mem_members hitem
  | _ => exact List.mem_singleton.1 hitem ▸ h

/-- Merging entries leaves them well-formed if merging each of their values does. -/
theorem WellFormed.mergeEntries {acc entries : Entries Value}
    (hacc : (mapping acc).WellFormed)
    (h : ∀ item ∈ Entries.values entries, item.WellFormed ∧
      ∀ current : Value, current.WellFormed → (mergeInto current item).WellFormed) :
    (mapping (mergeEntries acc entries)).WellFormed := by
  induction entries generalizing acc with
  | nil => rwa [mergeEntries_nil]
  | cons entry entries ih =>
    obtain ⟨name, item⟩ := entry
    obtain ⟨⟨hitem, hmerge⟩, hrest⟩ := List.forall_mem_cons.1 h
    rw [Value.mergeEntries]
    refine ih (hacc.alter ?_) hrest
    cases hget : Entries.get? acc name with
    | none => exact hitem
    | some current => exact hmerge current (hacc.get? hget)

theorem WellFormed.mergeInto {acc value : Value} (hacc : acc.WellFormed)
    (hvalue : value.WellFormed) : (mergeInto acc value).WellFormed := by
  induction value using induction_members generalizing acc with
  | step value ih =>
    rw [mergeInto_eq]
    split
    · exact hvalue
    · refine (itemsWellFormed_iff _).2 fun item hitem => ?_
      rcases List.mem_append.1 hitem with hitem | hitem
      · exact hacc.of_mem_spread hitem
      · exact hvalue.of_mem_spread hitem
    · refine hacc.entriesOrNone.mergeEntries fun item hitem => ?_
      have hmem := mem_members_of_mem_entriesOrNone hitem
      have hwellFormed := hvalue.of_mem_members hmem
      exact ⟨hwellFormed, fun current hcurrent => ih item hmem hcurrent hwellFormed⟩
    · exact hacc

end DataExpr.Value
