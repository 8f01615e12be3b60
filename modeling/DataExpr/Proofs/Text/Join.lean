import Mathlib.Data.List.Basic

/-!
# Joined texts

Texts in groups can be joined group by group, and then the joined groups in the same way.  A
group without texts would leave a separator of its own behind, so either there is none
(`intercalate_flatten_of_ne_nil`), or its join is left out (`intercalate_flatten`).
-/

namespace DataExpr.Text

/-- Texts that are not empty have no empty join. -/
theorem intercalate_eq_empty_iff {texts : List String} (h : ∀ text ∈ texts, text ≠ "")
    (separator : String) : separator.intercalate texts = "" ↔ texts = [] := by
  constructor
  · intro hempty
    match texts with
    | [] => rfl
    | [text] =>
      rw [String.intercalate_singleton] at hempty
      exact absurd hempty (h text List.mem_cons_self)
    | text :: next :: texts =>
      rw [String.intercalate_cons_cons, String.append_assoc, String.append_eq_empty_iff] at hempty
      exact absurd hempty.1 (h text List.mem_cons_self)
  · rintro rfl
    exact String.intercalate_nil

/-- Groups of texts can be joined first, if none of them is without texts. -/
theorem intercalate_flatten_of_ne_nil {groups : List (List String)}
    (h : ∀ group ∈ groups, group ≠ []) (separator : String) :
    separator.intercalate groups.flatten =
      separator.intercalate (groups.map separator.intercalate) := by
  induction groups with
  | nil => rfl
  | cons group groups ih =>
    rw [List.forall_mem_cons] at h
    rw [List.flatten_cons, List.map_cons]
    by_cases hnone : groups = []
    · rw [hnone, List.flatten_nil, List.append_nil, List.map_nil, String.intercalate_singleton]
    · have hrest : groups.flatten ≠ [] := by
        intro hflat
        obtain ⟨other, others, rfl⟩ := List.exists_cons_of_ne_nil hnone
        have hother : other = [] := List.flatten_eq_nil_iff.1 hflat other List.mem_cons_self
        exact h.2 other List.mem_cons_self hother
      rw [String.intercalate_append_of_ne_nil h.1 hrest,
        String.intercalate_cons_of_ne_nil (by simpa using hnone), ih h.2]

/-- Groups of texts can be joined first, if those whose join is empty are left out then. -/
theorem intercalate_flatten {groups : List (List String)}
    (h : ∀ group ∈ groups, ∀ text ∈ group, text ≠ "") (separator : String) :
    separator.intercalate groups.flatten =
      separator.intercalate ((groups.map separator.intercalate).filter (· ≠ "")) := by
  have hkept : (groups.map separator.intercalate).filter (· ≠ "") =
      (groups.filter (· ≠ [])).map separator.intercalate := by
    rw [List.filter_map]
    congr 1
    refine List.filter_congr fun group hgroup => ?_
    simpa using intercalate_eq_empty_iff (h group hgroup) separator
  rw [hkept, ← List.flatten_filter_ne_nil]
  apply intercalate_flatten_of_ne_nil
  intro group hgroup
  simpa using (List.mem_filter.1 hgroup).2

end DataExpr.Text
