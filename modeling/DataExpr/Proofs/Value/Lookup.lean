import DataExpr.Value.Entries
import Mathlib.Data.List.Perm.Subperm

/-!
# Looking up entries

What `Entries.get?` finds is an entry, and if no key stands twice then it finds every
entry.  So entries with different keys are fixed by the order of their keys and by what
is found under each (`Entries.ext`).
-/

namespace DataExpr.Entries

variable {α : Type} {entries : Entries α} {key : String} {value : α}

theorem mem_keys_of_mem (h : (key, value) ∈ entries) : key ∈ keys entries :=
  List.mem_map_of_mem h

theorem mem_of_get? (h : get? entries key = some value) : (key, value) ∈ entries := by
  induction entries with
  | nil => simp at h
  | cons entry entries ih =>
    obtain ⟨name, item⟩ := entry
    rw [get?_cons] at h
    split at h
    · rename_i hname
      obtain rfl : item = value := Option.some.inj h
      rw [hname]
      exact List.mem_cons_self
    · exact List.mem_cons_of_mem _ (ih h)

theorem mem_values_of_get? (h : get? entries key = some value) : value ∈ values entries :=
  List.mem_map_of_mem (mem_of_get? h)

theorem get?_of_mem (hunique : Unique entries) (h : (key, value) ∈ entries) :
    get? entries key = some value := by
  induction entries with
  | nil => simp at h
  | cons entry entries ih =>
    obtain ⟨name, item⟩ := entry
    obtain ⟨hname, hunique⟩ := List.nodup_cons.1 hunique
    rw [get?_cons]
    rcases List.mem_cons.1 h with heq | hmem
    · obtain ⟨rfl, rfl⟩ := Prod.mk.inj heq
      exact if_pos rfl
    · have hne : name ≠ key := by
        rintro rfl
        exact hname (mem_keys_of_mem hmem)
      rw [if_neg hne]
      exact ih hunique hmem

theorem get?_isSome_iff : (get? entries key).isSome ↔ key ∈ keys entries := by
  induction entries with
  | nil => simp [keys]
  | cons entry entries ih =>
    obtain ⟨name, item⟩ := entry
    by_cases hname : name = key
    · simp [keys, hname]
    · simp only [keys, List.map_cons, List.mem_cons, get?_cons, if_neg hname, Ne.symm hname,
        false_or]
      exact ih

theorem get?_eq_none_iff : get? entries key = none ↔ key ∉ keys entries := by
  rw [← get?_isSome_iff, Option.not_isSome_iff_eq_none]

theorem get?_append (entries others : Entries α) (key : String) :
    get? (entries ++ others) key = (get? entries key).or (get? others key) := by
  induction entries with
  | nil => rfl
  | cons entry entries ih =>
    obtain ⟨name, item⟩ := entry
    rw [List.cons_append, get?_cons, get?_cons]
    split
    · rfl
    · exact ih

theorem get?_concat (h : key ∉ keys entries) (value : α) :
    get? (entries ++ [(key, value)]) key = some value := by
  rw [get?_append, get?_eq_none_iff.2 h, Option.none_or, get?_cons, if_pos rfl]

theorem alter_eq_insert (f : Option α → α) (entries : Entries α) (key : String) :
    alter f entries key = insert entries key (f (get? entries key)) := by
  induction entries with
  | nil => rfl
  | cons entry entries ih =>
    obtain ⟨name, item⟩ := entry
    rw [insert] at ih
    rw [insert, alter, alter, get?_cons]
    split
    · rfl
    · rw [ih]

theorem get?_insert_self (entries : Entries α) (key : String) (value : α) :
    get? (insert entries key value) key = some value :=
  get?_alter_self _ entries key

theorem get?_insert_of_ne (entries : Entries α) {key other : String} (hne : other ≠ key)
    (value : α) : get? (insert entries key value) other = get? entries other :=
  get?_alter_of_ne _ entries hne

/-- Nothing changes if what is under the key stays the same. -/
theorem alter_of_get? {f : Option α → α} (h : get? entries key = some value)
    (hf : f (some value) = value) : alter f entries key = entries := by
  induction entries with
  | nil => cases h
  | cons entry entries ih =>
    obtain ⟨name, item⟩ := entry
    rw [get?_cons] at h
    rw [alter]
    split at h
    · rename_i hname
      obtain rfl : item = value := Option.some.inj h
      rw [if_pos hname, hf, hname]
    · rename_i hname
      rw [if_neg hname, ih h]

/-- A property of all values is kept if the changed one has it. -/
theorem forall_mem_values_alter {p : α → Prop} {f : Option α → α}
    (h : ∀ item ∈ values entries, p item) (hf : p (f (get? entries key))) :
    ∀ item ∈ values (alter f entries key), p item := by
  induction entries with
  | nil => simpa [alter, values] using hf
  | cons entry entries ih =>
    obtain ⟨name, item⟩ := entry
    rw [values, List.map_cons, List.forall_mem_cons] at h
    rw [get?_cons] at hf
    rw [alter]
    split at hf
    · rename_i hname
      rw [if_pos hname, values, List.map_cons, List.forall_mem_cons]
      exact ⟨hf, h.2⟩
    · rename_i hname
      rw [if_neg hname, values, List.map_cons, List.forall_mem_cons]
      exact ⟨h.1, ih h.2 hf⟩

/-! ## New keys come last -/

theorem alter_of_new (f : Option α → α) (h : key ∉ keys entries) :
    alter f entries key = entries ++ [(key, f none)] := by
  induction entries with
  | nil => rfl
  | cons entry entries ih =>
    obtain ⟨name, item⟩ := entry
    have hne : name ≠ key := fun heq => h (heq ▸ List.mem_cons_self)
    rw [alter, if_neg hne, ih fun hmem => h (List.mem_cons_of_mem _ hmem), List.cons_append]

theorem alter_concat (f : Option α → α) (h : key ∉ keys entries) (value : α) :
    alter f (entries ++ [(key, value)]) key = entries ++ [(key, f (some value))] := by
  induction entries with
  | nil => simp [alter]
  | cons entry entries ih =>
    obtain ⟨name, item⟩ := entry
    have hne : name ≠ key := fun heq => h (heq ▸ List.mem_cons_self)
    rw [List.cons_append, alter, if_neg hne, ih fun hmem => h (List.mem_cons_of_mem _ hmem),
      List.cons_append]

/-- Pairs with different keys are filed as they come. -/
theorem ofPairs_of_unique {pairs : Entries α} (h : Unique pairs) : ofPairs pairs = pairs := by
  have hfold (filed more : Entries α) (hkeys : Unique (filed ++ more)) :
      more.foldl (fun entries pair => Entries.insert entries pair.1 pair.2) filed =
        filed ++ more := by
    induction more generalizing filed with
    | nil => rw [List.foldl_nil, List.append_nil]
    | cons pair more ih =>
      obtain ⟨key, value⟩ := pair
      have hnew : key ∉ keys filed := by
        rw [Unique, keys, List.map_append, List.nodup_append] at hkeys
        exact fun hmem => hkeys.2.2 key hmem key List.mem_cons_self rfl
      have hinsert : Entries.insert filed key value = filed ++ [(key, value)] :=
        alter_of_new _ hnew
      rw [List.foldl_cons]
      dsimp only
      rw [hinsert, ih _ (by rwa [List.append_assoc]), List.append_assoc]
      rfl
  exact hfold [] pairs h

/-! ## Changing all values -/

/-- Entries with each value changed in the same way. -/
def mapValues {β : Type} (f : α → β) (entries : Entries α) : Entries β :=
  entries.map fun entry => (entry.1, f entry.2)

theorem mapValues_cons {β : Type} (f : α → β) (key : String) (value : α) (entries : Entries α) :
    mapValues f ((key, value) :: entries) = (key, f value) :: mapValues f entries :=
  rfl

theorem keys_mapValues {β : Type} (f : α → β) (entries : Entries α) :
    keys (mapValues f entries) = keys entries := by
  simp [keys, mapValues]

theorem values_mapValues {β : Type} (f : α → β) (entries : Entries α) :
    values (mapValues f entries) = (values entries).map f := by
  simp [values, mapValues]

theorem get?_mapValues {β : Type} (f : α → β) (entries : Entries α) (key : String) :
    get? (mapValues f entries) key = (get? entries key).map f := by
  induction entries with
  | nil => rfl
  | cons entry entries ih =>
    obtain ⟨name, item⟩ := entry
    rw [mapValues_cons, get?_cons, get?_cons, ih]
    split <;> rfl

theorem mapValues_eq_self {f : α → α} (h : ∀ value ∈ values entries, f value = value) :
    mapValues f entries = entries := by
  induction entries with
  | nil => rfl
  | cons entry entries ih =>
    obtain ⟨name, item⟩ := entry
    rw [values, List.map_cons, List.forall_mem_cons] at h
    rw [mapValues_cons, h.1, ih h.2]

/-- What is under a key may be changed before or after all values. -/
theorem alter_mapValues {β : Type} {f : α → β} {g : Option α → α} {g' : Option β → β}
    {entries : Entries α} {key : String}
    (h : g' ((get? entries key).map f) = f (g (get? entries key))) :
    alter g' (mapValues f entries) key = mapValues f (alter g entries key) := by
  induction entries with
  | nil => exact congrArg (fun value => [(key, value)]) h
  | cons entry entries ih =>
    obtain ⟨name, item⟩ := entry
    rw [get?_cons] at h
    rw [mapValues_cons, alter, alter]
    by_cases hname : name = key
    · rw [if_pos hname] at h
      rw [if_pos hname, if_pos hname, mapValues_cons, ← h, Option.map_some]
    · rw [if_neg hname] at h
      rw [if_neg hname, if_neg hname, mapValues_cons, ih h]

/-! ## The same entries -/

/-- Entries with different keys are the same if they have the same keys in the same order
and the same under each. -/
theorem ext {others : Entries α} (hunique : Unique entries) (hkeys : keys entries = keys others)
    (hget : ∀ key, get? entries key = get? others key) : entries = others := by
  induction entries generalizing others with
  | nil => exact (List.map_eq_nil_iff.1 hkeys.symm).symm
  | cons entry entries ih =>
    cases others with
    | nil => simp [keys] at hkeys
    | cons other others =>
      obtain ⟨name, item⟩ := entry
      obtain ⟨_, value⟩ := other
      obtain ⟨rfl, hrestKeys⟩ : name = _ ∧ keys entries = keys others := List.cons.inj hkeys
      obtain ⟨hname, hunique⟩ := List.nodup_cons.1 hunique
      have hitem : item = value := by simpa using hget name
      have hrest : entries = others := by
        refine ih hunique hrestKeys fun key => ?_
        by_cases hkey : name = key
        · subst hkey
          have hother : name ∉ keys others := hrestKeys ▸ hname
          rw [get?_eq_none_iff.2 hname, get?_eq_none_iff.2 hother]
        · simpa [hkey] using hget key
      rw [hitem, hrest]

end DataExpr.Entries
