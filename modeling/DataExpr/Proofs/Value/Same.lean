import DataExpr.Proofs.Value.Equivalence

/-!
# Values that are the same

`Value.Same` is deep equality of well-formed values.  Sequences are the same item by item
(`same_sequence_iff`), and mappings key by key (`same_mapping_iff`): it does not matter in
which order the keys of a mapping came.
-/

namespace DataExpr

/-! ## Related options -/

section

variable {α β γ δ : Type} {R : α → β → Prop} {S : γ → δ → Prop}

theorem optionRel_bind {x : Option α} {y : Option β} {f : α → Option γ} {g : β → Option δ}
    (h : Option.Rel R x y) (hfg : ∀ a b, R a b → Option.Rel S (f a) (g b)) :
    Option.Rel S (x.bind f) (y.bind g) := by
  cases h with
  | none => exact .none
  | some hab => exact hfg _ _ hab

theorem optionRel_map {x : Option α} {y : Option β} {f : α → γ} {g : β → δ}
    (h : Option.Rel R x y) (hfg : ∀ a ∈ x, ∀ b, R a b → S (f a) (g b)) :
    Option.Rel S (x.map f) (y.map g) := by
  cases h with
  | none => exact .none
  | some hab => exact .some (hfg _ rfl _ hab)

/-- Looking one thing after another up in two places finds related lists or nothing. -/
theorem optionRel_mapM {inputs : List α} {f : α → Option γ} {g : α → Option δ}
    (h : ∀ input, Option.Rel S (f input) (g input)) :
    Option.Rel (List.Forall₂ S) (inputs.mapM f) (inputs.mapM g) := by
  induction inputs with
  | nil => exact .some .nil
  | cons input inputs ih =>
    rw [List.mapM_cons, List.mapM_cons]
    apply optionRel_bind (h input)
    intro a b hab
    apply optionRel_bind ih
    intro rest others hrest
    exact .some (.cons hab hrest)

end

namespace Value

/-- The values are well-formed and deeply equal. -/
structure Same (a b : Value) : Prop where
  left : a.WellFormed
  right : b.WellFormed
  equal : a.deepEqual b

/-! ## Sequences -/

theorem same_sequence_iff {items others : List Value} :
    Same (.sequence items) (.sequence others) ↔ List.Forall₂ Same items others := by
  constructor
  · intro h
    have hitems := (itemsWellFormed_iff items).1 h.left
    have hothers := (itemsWellFormed_iff others).1 h.right
    obtain ⟨hlength, hequal⟩ := List.forall₂_iff_zip.1 ((itemsEqual_iff items others).1 h.equal)
    refine List.forall₂_iff_zip.2 ⟨hlength, fun {a b} hab => ?_⟩
    obtain ⟨ha, hb⟩ := List.of_mem_zip hab
    exact ⟨hitems a ha, hothers b hb, hequal hab⟩
  · intro h
    induction h with
    | nil => exact ⟨trivial, trivial, rfl⟩
    | cons hhead _ ih =>
      exact ⟨⟨hhead.left, ih.left⟩, ⟨hhead.right, ih.right⟩,
        Bool.and_eq_true_iff.2 ⟨hhead.equal, ih.equal⟩⟩

/-! ## Mappings -/

theorem same_mapping_iff {entries others : Entries Value} :
    Same (.mapping entries) (.mapping others) ↔
      Entries.Unique entries ∧ Entries.Unique others ∧
        ∀ key, Option.Rel Same (Entries.get? entries key) (Entries.get? others key) := by
  constructor
  · intro h
    refine ⟨h.left.1, h.right.1, fun key => ?_⟩
    have hrel := (deepEqual_mapping_iff h.left.1 h.right.1).1 h.equal key
    cases ha : Entries.get? entries key <;> cases hb : Entries.get? others key <;>
      rw [ha, hb] at hrel <;> cases hrel
    case none.none => exact .none
    case some.some hab => exact .some ⟨h.left.get? ha, h.right.get? hb, hab⟩
  · intro ⟨hentries, hothers, h⟩
    refine ⟨⟨hentries, (entriesWellFormed_iff entries).2 fun entry hentry => ?_⟩,
      ⟨hothers, (entriesWellFormed_iff others).2 fun entry hentry => ?_⟩,
      (deepEqual_mapping_iff hentries hothers).2 fun key => ?_⟩
    · have hrel := h entry.1
      rw [Entries.get?_of_mem hentries hentry] at hrel
      generalize Entries.get? others entry.1 = found at hrel
      cases hrel with
      | some hab => exact hab.left
    · have hrel := h entry.1
      rw [Entries.get?_of_mem hothers hentry] at hrel
      generalize Entries.get? entries entry.1 = found at hrel
      cases hrel with
      | some hab => exact hab.right
    · have hrel := h key
      generalize Entries.get? entries key = a, Entries.get? others key = b at hrel
      cases hrel with
      | none => exact .none
      | some hab => exact .some hab.equal

end Value

end DataExpr
