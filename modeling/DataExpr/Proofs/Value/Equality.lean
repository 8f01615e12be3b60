import DataExpr.Proofs.Value.Members
import DataExpr.Value.Equality
import Mathlib

/-!
# What deep equality compares

Deeply equal values are of one kind and count as true together.  Sequences are equal item
by item (`itemsEqual_iff`), and mappings key by key: each key has equal values in both or
nothing in both (`deepEqual_mapping_iff`).  The test itself counts the entries and looks
the keys of one mapping up in the other, which is enough because no key stands twice.
-/

namespace DataExpr.Value

/-- Equal numbers are the same, up to the sign of zero. -/
theorem eq_or_zero_of_beq {m n : Float} (h : (m == n) = true) : m = n ∨ m == 0 ∧ n == 0 := by
  obtain ⟨-, -, heq | ⟨rfl, rfl⟩ | ⟨rfl, rfl⟩⟩ := Float.beq_iff_ne_nan_and_eq.1 h
  · exact .inl heq
  · exact .inr (by decide)
  · exact .inr (by decide)

theorem kind_eq_of_deepEqual {a b : Value} (h : a.deepEqual b) : a.kind = b.kind := by
  cases a <;> cases b <;> first | rfl | simp [deepEqual] at h

theorem isTruthy_eq_of_deepEqual {a b : Value} (h : a.deepEqual b) :
    a.isTruthy = b.isTruthy := by
  have hkind := kind_eq_of_deepEqual h
  cases a <;> cases b <;> simp only [kind, reduceCtorEq] at hkind <;> try rfl
  case bool.bool => rw [eq_of_beq h]
  case text.text => rw [eq_of_beq h]
  case number.number m n =>
    rcases eq_or_zero_of_beq h with rfl | ⟨hm, hn⟩
    · rfl
    · simp [isTruthy, hm, hn]

theorem itemsEqual_iff (items others : List Value) :
    itemsEqual items others ↔ List.Forall₂ (fun a b => a.deepEqual b = true) items others := by
  induction items generalizing others with
  | nil => cases others <;> simp [itemsEqual]
  | cons item items ih => cases others <;> simp [itemsEqual, ih]

/-! ## Mappings -/

theorem entriesWithin_iff (entries others : Entries Value) :
    entriesWithin entries others ↔
      ∀ entry ∈ entries, ∃ b, Entries.get? others entry.1 = some b ∧ entry.2.deepEqual b := by
  induction entries with
  | nil => simp [entriesWithin]
  | cons entry entries ih =>
    obtain ⟨key, item⟩ := entry
    rw [entriesWithin, Bool.and_eq_true, ih, List.forall_mem_cons]
    cases Entries.get? others key <;> simp

/-- As many entries with all keys among others have all keys of those. -/
theorem keys_subset_of_entriesWithin {entries others : Entries Value}
    (hunique : Entries.Unique entries) (hlength : entries.length = others.length)
    (h : entriesWithin entries others) : Entries.keys others ⊆ Entries.keys entries := by
  have hsubset : Entries.keys entries ⊆ Entries.keys others := by
    intro key hkey
    obtain ⟨entry, hentry, rfl⟩ := List.mem_map.1 hkey
    obtain ⟨b, hb, -⟩ := (entriesWithin_iff _ _).1 h entry hentry
    exact Entries.get?_isSome_iff.1 (hb ▸ rfl)
  have hperm : (Entries.keys entries).Perm (Entries.keys others) :=
    (List.subperm_of_subset hunique hsubset).perm_of_length_le (by simp [Entries.keys, hlength])
  exact hperm.symm.subset

/-- Mappings are equal if every key has equal values in both, or nothing in both. -/
theorem deepEqual_mapping_iff {entries others : Entries Value}
    (hunique : Entries.Unique entries) (hothers : Entries.Unique others) :
    (mapping entries).deepEqual (mapping others) ↔
      ∀ key, Option.Rel (fun a b => a.deepEqual b = true) (Entries.get? entries key)
        (Entries.get? others key) := by
  rw [deepEqual, Bool.and_eq_true, beq_iff_eq]
  constructor
  · rintro ⟨hlength, hwithin⟩ key
    cases hget : Entries.get? entries key with
    | none =>
      have hkeys := keys_subset_of_entriesWithin hunique hlength hwithin
      have hnone : Entries.get? others key = none :=
        Entries.get?_eq_none_iff.2 fun hmem => Entries.get?_eq_none_iff.1 hget (hkeys hmem)
      rw [hnone]
      exact .none
    | some a =>
      obtain ⟨b, hb, hequal⟩ := (entriesWithin_iff _ _).1 hwithin _ (Entries.mem_of_get? hget)
      rw [hb]
      exact .some hequal
  · intro h
    have hkeys : (Entries.keys entries).Perm (Entries.keys others) := by
      refine (List.perm_ext_iff_of_nodup hunique hothers).2 fun key => ?_
      rw [← Entries.get?_isSome_iff, ← Entries.get?_isSome_iff]
      have hrel := h key
      generalize Entries.get? entries key = a, Entries.get? others key = b at hrel
      cases hrel <;> simp
    refine ⟨by simpa [Entries.keys] using hkeys.length_eq, ?_⟩
    rw [entriesWithin_iff]
    rintro ⟨key, a⟩ hmem
    have hrel := h key
    rw [Entries.get?_of_mem hunique hmem] at hrel
    cases hother : Entries.get? others key with
    | none => rw [hother] at hrel; cases hrel
    | some b =>
      rw [hother] at hrel
      cases hrel with
      | some hequal => exact ⟨b, rfl, hequal⟩

end DataExpr.Value
