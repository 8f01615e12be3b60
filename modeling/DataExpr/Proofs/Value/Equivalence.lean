import DataExpr.Proofs.Value.Equality
import DataExpr.Value.Merge

/-!
# Deep equality as an equivalence

Deep equality is symmetric and transitive.  A value is deeply equal to itself, and to a
copy of itself, exactly if no `NaN` is in it at any depth (`deepEqual_equivalence`).

Symmetry rests on the keys of well-formed mappings: the test looks up the keys of one side
only, and counting shows that there are no others.  Transitivity needs no such count,
because what is found under a key on the way is an entry itself.
-/

namespace DataExpr.Value

mutual

/-- A copy is the value again. -/
theorem copy_eq (value : Value) : value.copy = value := by
  match value with
  | .sequence items => rw [copy, copyItems_eq items]
  | .mapping entries => rw [copy, copyEntries_eq entries]
  | .pattern p => rw [copy, p.rebuild_eq]
  | .null | .bool _ | .number _ | .text _ | .date _ => rfl

theorem copyItems_eq (items : List Value) : copyItems items = items := by
  match items with
  | [] => rfl
  | item :: items => rw [copyItems, copy_eq item, copyItems_eq items]

theorem copyEntries_eq (entries : List (String × Value)) : copyEntries entries = entries := by
  match entries with
  | [] => rfl
  | (key, item) :: entries => rw [copyEntries, copy_eq item, copyEntries_eq entries]

end

/-! ## Symmetry -/

theorem forall₂_deepEqual_symm {items others : List Value}
    (h : List.Forall₂ (fun a b => a.deepEqual b = true) items others)
    (hsymm : ∀ a ∈ items, ∀ b ∈ others, a.deepEqual b → b.deepEqual a) :
    List.Forall₂ (fun a b => a.deepEqual b = true) others items := by
  induction h with
  | nil => exact .nil
  | cons hhead _ ih =>
    refine .cons (hsymm _ List.mem_cons_self _ List.mem_cons_self hhead) (ih ?_)
    intro a ha b hb
    exact hsymm a (List.mem_cons_of_mem _ ha) b (List.mem_cons_of_mem _ hb)

theorem optionRel_deepEqual_symm {x y : Option Value}
    (h : Option.Rel (fun a b => a.deepEqual b = true) x y)
    (hsymm : ∀ a ∈ x, ∀ b ∈ y, a.deepEqual b → b.deepEqual a) :
    Option.Rel (fun a b => a.deepEqual b = true) y x := by
  cases h with
  | none => exact .none
  | some hab => exact .some (hsymm _ rfl _ rfl hab)

theorem deepEqual_symm {a b : Value} (ha : a.WellFormed) (hb : b.WellFormed)
    (h : a.deepEqual b) : b.deepEqual a := by
  induction a using induction_members generalizing b with
  | step a ih =>
    have hkind := kind_eq_of_deepEqual h
    cases a <;> cases b <;> simp only [kind, reduceCtorEq] at hkind
    case null.null => rfl
    case bool.bool | number.number | text.text | date.date | pattern.pattern =>
      rw [deepEqual] at h ⊢
      exact BEq.symm h
    case sequence.sequence items others =>
      rw [deepEqual, itemsEqual_iff] at h ⊢
      refine forall₂_deepEqual_symm h fun x hx y hy hxy => ?_
      exact ih x hx (ha.of_mem_members hx) (hb.of_mem_members hy) hxy
    case mapping.mapping entries others =>
      rw [deepEqual_mapping_iff ha.1 hb.1] at h
      rw [deepEqual_mapping_iff hb.1 ha.1]
      intro key
      refine optionRel_deepEqual_symm (h key) fun x hx y hy hxy => ?_
      exact ih x (Entries.mem_values_of_get? hx) (ha.get? hx) (hb.get? hy) hxy

/-! ## Transitivity -/

theorem forall₂_deepEqual_trans {items others more : List Value}
    (h : List.Forall₂ (fun a b => a.deepEqual b = true) items others)
    (h' : List.Forall₂ (fun a b => a.deepEqual b = true) others more)
    (htrans : ∀ a ∈ items, ∀ b c : Value, a.deepEqual b → b.deepEqual c → a.deepEqual c) :
    List.Forall₂ (fun a b => a.deepEqual b = true) items more := by
  induction h generalizing more with
  | nil => exact h'
  | cons hhead _ ih =>
    cases h' with
    | cons hhead' htail' =>
      rw [List.forall_mem_cons] at htrans
      exact .cons (htrans.1 _ _ hhead hhead') (ih htail' htrans.2)

theorem deepEqual_trans {a b c : Value} (h : a.deepEqual b) (h' : b.deepEqual c) :
    a.deepEqual c := by
  induction a using induction_members generalizing b c with
  | step a ih =>
    have hkind := kind_eq_of_deepEqual h
    have hkind' := kind_eq_of_deepEqual h'
    cases a <;> cases b <;> simp only [kind, reduceCtorEq] at hkind <;>
      cases c <;> simp only [kind, reduceCtorEq] at hkind'
    case null.null.null => rfl
    case bool.bool.bool | number.number.number | text.text.text | date.date.date |
        pattern.pattern.pattern =>
      rw [deepEqual] at h h' ⊢
      exact BEq.trans h h'
    case sequence.sequence.sequence items others more =>
      rw [deepEqual, itemsEqual_iff] at h h' ⊢
      exact forall₂_deepEqual_trans h h' fun x hx y z hxy hyz => ih x hx hxy hyz
    case mapping.mapping.mapping entries others more =>
      rw [deepEqual, Bool.and_eq_true, beq_iff_eq, entriesWithin_iff] at h h' ⊢
      obtain ⟨hlength, hwithin⟩ := h
      obtain ⟨hlength', hwithin'⟩ := h'
      refine ⟨hlength.trans hlength', fun entry hentry => ?_⟩
      obtain ⟨y, hy, hxy⟩ := hwithin entry hentry
      obtain ⟨z, hz, hyz⟩ := hwithin' _ (Entries.mem_of_get? hy)
      exact ⟨z, hz, ih entry.2 (List.mem_map_of_mem hentry) hxy hyz⟩

/-! ## Reflexivity -/

/-- No `NaN` is in the value, at any depth. -/
def NoNaN (value : Value) : Prop :=
  ∀ n, value.Contains (.number n) → n.isNaN = false

/-- Only the members of a container can have a `NaN` in them. -/
theorem noNaN_iff_of_container {value : Value} (h : value.kind = .array ∨ value.kind = .object) :
    value.NoNaN ↔ ∀ member ∈ value.members, member.NoNaN := by
  constructor
  · intro hvalue member hmem n hn
    exact hvalue n (.inside hmem hn)
  · intro hmembers n hn
    rcases (contains_iff _ _).1 hn with rfl | ⟨member, hmem, hinner⟩
    · simp [kind] at h
    · exact hmembers member hmem n hinner

theorem noNaN_of_noMembers {value : Value} (hmembers : value.members = [])
    (hkind : value.kind ≠ .number) : value.NoNaN := by
  intro n hn
  rcases (contains_iff _ _).1 hn with rfl | ⟨member, hmem, -⟩
  · exact absurd rfl hkind
  · simp [hmembers] at hmem

theorem noNaN_number_iff (n : Float) : (number n).NoNaN ↔ n.isNaN = false := by
  constructor
  · intro h
    exact h n (.self _)
  · intro h m hm
    rcases (contains_iff _ _).1 hm with heq | ⟨member, hmem, -⟩
    · cases heq
      exact h
    · simp [members] at hmem

theorem deepEqual_self_iff {value : Value} (hwellFormed : value.WellFormed) :
    value.deepEqual value ↔ value.NoNaN := by
  induction value using induction_members with
  | step value ih =>
    cases value with
    | null => exact iff_of_true rfl (noNaN_of_noMembers rfl (by simp [kind]))
    | bool | text | date | pattern =>
      exact iff_of_true (by simp [deepEqual]) (noNaN_of_noMembers rfl (by simp [kind]))
    | number n => rw [deepEqual, noNaN_number_iff]; simp
    | sequence items =>
      rw [deepEqual, itemsEqual_iff, List.forall₂_same, noNaN_iff_of_container (.inl rfl)]
      exact forall₂_congr fun item hitem => ih item hitem (hwellFormed.of_mem_members hitem)
    | mapping entries =>
      rw [deepEqual_mapping_iff hwellFormed.1 hwellFormed.1, noNaN_iff_of_container (.inr rfl)]
      constructor
      · intro h item hitem
        obtain ⟨⟨key, _⟩, hentry, rfl⟩ := List.mem_map.1 hitem
        have hrel := h key
        rw [Entries.get?_of_mem hwellFormed.1 hentry] at hrel
        cases hrel with
        | some hself => exact (ih _ hitem (hwellFormed.of_mem_members hitem)).1 hself
      · intro h key
        cases hget : Entries.get? entries key with
        | none => exact .none
        | some item =>
          have hitem := Entries.mem_values_of_get? hget
          exact .some ((ih item hitem (hwellFormed.of_mem_members hitem)).2 (h item hitem))

/-- Deep equality is symmetric and transitive.  To be deeply equal to itself, to be deeply
equal to its copy and to have no `NaN` in it are the same for a value. -/
theorem deepEqual_equivalence :
    (∀ a b : Value, a.WellFormed → b.WellFormed → a.deepEqual b = b.deepEqual a) ∧
      (∀ a b c : Value, a.deepEqual b → b.deepEqual c → a.deepEqual c) ∧
      ∀ a : Value, a.WellFormed →
        [a.deepEqual a = true, a.copy.deepEqual a = true,
          ∀ n, a.Contains (.number n) → n.isNaN = false].TFAE := by
  refine ⟨fun a b ha hb => ?_, fun a b c => deepEqual_trans, fun a ha => ?_⟩
  · rw [Bool.eq_iff_iff]
    exact ⟨deepEqual_symm ha hb, deepEqual_symm hb ha⟩
  · rw [copy_eq]
    tfae_have 1 ↔ 2 := Iff.rfl
    tfae_have 1 ↔ 3 := deepEqual_self_iff ha
    tfae_finish

/-- Readings with a zero. -/
def zeroReadings : Value :=
  .mapping [("name", .text "t"), ("values", .sequence [.number 0])]

/-- The same with the keys in another order and the zero negative. -/
def reorderedReadings : Value :=
  .mapping [("values", .sequence [.number (-0)]), ("name", .text "t")]

/-- Readings of which one is no number. -/
def brokenReadings : Value :=
  .mapping [("name", .text "t"), ("values", .sequence [.number Float.nan])]

theorem deepEqual_equivalence_readings :
    (zeroReadings.WellFormed ∧ reorderedReadings.WellFormed ∧ brokenReadings.WellFormed ∧
      zeroReadings.deepEqual reorderedReadings ∧ reorderedReadings.deepEqual zeroReadings ∧
      brokenReadings.Contains (.number Float.nan)) ∧
      reorderedReadings.deepEqual zeroReadings = zeroReadings.deepEqual reorderedReadings ∧
      zeroReadings.deepEqual zeroReadings ∧ ¬brokenReadings.copy.deepEqual brokenReadings := by
  obtain ⟨hsymm, htrans, hself⟩ := deepEqual_equivalence
  have hzero : zeroReadings.WellFormed := by
    simp [zeroReadings, WellFormed, entriesWellFormed, itemsWellFormed, Entries.Unique,
      Entries.keys]
  have hreordered : reorderedReadings.WellFormed := by
    simp [reorderedReadings, WellFormed, entriesWellFormed, itemsWellFormed, Entries.Unique,
      Entries.keys]
  have hbroken : brokenReadings.WellFormed := by
    simp [brokenReadings, WellFormed, entriesWellFormed, itemsWellFormed, Entries.Unique,
      Entries.keys]
  have hequal : zeroReadings.deepEqual reorderedReadings := by decide
  have hequal' : reorderedReadings.deepEqual zeroReadings := by decide
  have hnan : brokenReadings.Contains (.number Float.nan) := by
    simp [brokenReadings, contains_iff (.mapping _), contains_iff (.sequence _),
      contains_iff (.number _), members, Entries.values]
  refine ⟨⟨hzero, hreordered, hbroken, hequal, hequal', hnan⟩, hsymm _ _ hreordered hzero,
    htrans _ _ _ hequal hequal', fun hcopy => ?_⟩
  have hnone := ((hself _ hbroken).out 1 2).1 hcopy
  have hfalse : Float.nan.isNaN = false := hnone _ hnan
  simp at hfalse

end DataExpr.Value
