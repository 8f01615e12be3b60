import DataExpr.Proofs.Query.Filing
import DataExpr.Proofs.Value.Same

/-!
# Filing along paths that are apart

Values are filed one after the other, each along its path (`fileAll`).  If no path goes on
where another ends, none of them is in the way of another: all are filed, and what is then
under a key is what filing just the paths that start there makes, without their first key
(`fileAll_of_apart`).

The order of the paths shows in that only under one key, and there they are shorter.  So
filing the same values in another order changes no more than the order of keys, at every
depth (`same_fileAll_of_perm`).
-/

namespace DataExpr.Query

open Value (Same)

/-- A path without its first key, if it starts with this one. -/
def pastKey? (key : String) : List String × Value → Option (List String × Value)
  | ([], _) => none
  | (name :: path, value) => if name = key then some (path, value) else none

/-- The paths that start with a key, without it. -/
def below (key : String) (leaves : List (List String × Value)) : List (List String × Value) :=
  leaves.filterMap (pastKey? key)

/-- What filing makes under a key, of the paths below it: the value whose path ends
there, or a mapping. -/
def filed : List (List String × Value) → Option Value
  | [] => none
  | ([], value) :: _ => some value
  | leaves => (fileAll leaves).map .mapping

/-- Neither path goes on where the other ends, and they are different. -/
def ApartFrom (path other : List String) : Prop :=
  ¬path <+: other ∧ ¬other <+: path

/-- Paths that are apart and on which every segment is a name. -/
structure Apart (leaves : List (List String × Value)) : Prop where
  apart : leaves.Pairwise fun leaf other => ApartFrom leaf.1 other.1
  named : ∀ leaf ∈ leaves, "" ∉ leaf.1

variable {leaves others : List (List String × Value)}

/-! ## Paths below a key -/

theorem pastKey?_eq_some_iff {key : String} {leaf rest : List String × Value} :
    pastKey? key leaf = some rest ↔ leaf = (key :: rest.1, rest.2) := by
  obtain ⟨path, value⟩ := leaf
  obtain ⟨names, item⟩ := rest
  cases path with
  | nil => simp [pastKey?]
  | cons name path => simp [pastKey?, and_assoc]

theorem mem_below {key : String} {rest : List String × Value} :
    rest ∈ below key leaves ↔ (key :: rest.1, rest.2) ∈ leaves := by
  simp [below, pastKey?_eq_some_iff]

theorem below_concat_self (leaves : List (List String × Value)) (key : String)
    (path : List String) (value : Value) :
    below key (leaves ++ [(key :: path, value)]) = below key leaves ++ [(path, value)] := by
  simp [below, pastKey?]

theorem below_concat_of_ne {key name : String} (hne : name ≠ key)
    (leaves : List (List String × Value)) (path : List String) (value : Value) :
    below key (leaves ++ [(name :: path, value)]) = below key leaves := by
  simp [below, pastKey?, hne]

theorem below_perm (h : leaves.Perm others) (key : String) :
    (below key leaves).Perm (below key others) :=
  h.filterMap (pastKey? key)

theorem Apart.below (h : Apart leaves) (key : String) : Apart (below key leaves) := by
  constructor
  · refine h.apart.filterMap _ ?_
    intro leaf other hapart rest hrest rest' hrest'
    obtain rfl := pastKey?_eq_some_iff.1 hrest
    obtain rfl := pastKey?_eq_some_iff.1 hrest'
    simpa [ApartFrom] using hapart
  · intro rest hrest hempty
    exact h.named _ (mem_below.1 hrest) (List.mem_cons_of_mem _ hempty)

theorem Apart.perm (h : Apart leaves) (hperm : leaves.Perm others) : Apart others where
  apart := (hperm.pairwise_iff fun hleaf => hleaf.symm).1 h.apart
  named leaf hleaf := h.named leaf (hperm.mem_iff.2 hleaf)

theorem Apart.front (h : Apart (leaves ++ others)) : Apart leaves where
  apart := (List.pairwise_append.1 h.apart).1
  named leaf hleaf := h.named leaf (List.mem_append_left _ hleaf)

/-- A path that ends at once is the only one. -/
theorem Apart.eq_singleton (h : Apart leaves) {value : Value} (hmem : ([], value) ∈ leaves) :
    leaves = [([], value)] := by
  obtain ⟨front, back, rfl⟩ := List.append_of_mem hmem
  have hperm := h.perm List.perm_middle
  cases hrest : front ++ back with
  | nil =>
    obtain ⟨rfl, rfl⟩ := List.append_eq_nil_iff.1 hrest
    rfl
  | cons other rest =>
    rw [hrest] at hperm
    have hapart := (List.pairwise_cons.1 hperm.apart).1 other List.mem_cons_self
    exact absurd List.nil_prefix hapart.1

/-- Next to a path that goes on, every path goes on. -/
theorem Apart.ne_nil (h : Apart leaves) {leaf : List String × Value} (hleaf : leaf ∈ leaves)
    (hpath : leaf.1 ≠ []) : ∀ other ∈ leaves, other.1 ≠ [] := by
  intro ⟨path, value⟩ hother hnil
  obtain rfl : path = [] := hnil
  rw [h.eq_singleton hother] at hleaf
  exact hpath (congrArg Prod.fst (List.mem_singleton.1 hleaf))

/-! ## Filing -/

/-- Paths that go on make a mapping. -/
theorem filed_of_ne_nil (hne : leaves ≠ []) (h : ∀ leaf ∈ leaves, leaf.1 ≠ []) :
    filed leaves = (fileAll leaves).map .mapping := by
  match leaves with
  | [] => exact absurd rfl hne
  | ([], _) :: _ => exact absurd rfl (h _ List.mem_cons_self)
  | (_ :: _, _) :: _ => rfl

/-- Filing along one more path changes what is under its first key to what filing makes
with the rest of the path after those that were there. -/
theorem insertPath?_of_filed {key : String} {path : List String} {value : Value}
    (h : Apart (leaves ++ [(path, value)]))
    (hfile : path ≠ [] → ∃ inner, fileAll (leaves ++ [(path, value)]) = some inner)
    {entries : Entries Value} (hget : Entries.get? entries key = filed leaves) :
    ∃ item, filed (leaves ++ [(path, value)]) = some item ∧
      insertPath? value (key :: path) entries = some (Entries.insert entries key item) := by
  have hmem : (path, value) ∈ leaves ++ [(path, value)] :=
    List.mem_append_right _ List.mem_cons_self
  have hnamed : path ≠ [""] := fun heq => h.named _ hmem (heq ▸ List.mem_cons_self)
  by_cases hpath : path = []
  · subst hpath
    obtain rfl : leaves = [] := by simpa using h.eq_singleton hmem
    refine ⟨value, rfl, ?_⟩
    rw [insertPath?, if_pos rfl, collect, Entries.alter_eq_insert, hget]
    rfl
  · obtain ⟨inner, hinner⟩ := hfile hpath
    have hgoOn := h.ne_nil hmem hpath
    refine ⟨.mapping inner, ?_, ?_⟩
    · rw [filed_of_ne_nil (by simp) hgoOn, hinner, Option.map_some]
    · rw [fileAll_concat, Option.bind_eq_some_iff] at hinner
      obtain ⟨before, hbefore, hinsert⟩ := hinner
      rw [insertPath?, if_neg hpath, if_neg hnamed, hget]
      cases leaves with
      | nil =>
        obtain rfl : [] = before := Option.some.inj hbefore
        rw [filed, hinsert]
        rfl
      | cons leaf leaves =>
        rw [List.forall_mem_append] at hgoOn
        rw [filed_of_ne_nil (List.cons_ne_nil _ _) hgoOn.1, hbefore, Option.map_some]
        show (insertPath? value path before).map _ = _
        rw [hinsert]
        rfl

theorem eq_nil_of_length_le_zero (hgoOn : ∀ leaf ∈ leaves, leaf.1 ≠ [])
    (hdepth : ∀ leaf ∈ leaves, leaf.1.length ≤ 0) : leaves = [] := by
  apply List.eq_nil_iff_forall_not_mem.2
  intro leaf hleaf
  exact hgoOn leaf hleaf (List.length_eq_zero_iff.1 (Nat.le_zero.1 (hdepth leaf hleaf)))

theorem length_le_of_mem_below {depth : Nat} (hdepth : ∀ leaf ∈ leaves, leaf.1.length ≤ depth + 1)
    (key : String) : ∀ rest ∈ below key leaves, rest.1.length ≤ depth := by
  intro rest hrest
  exact Nat.le_of_succ_le_succ (hdepth _ (mem_below.1 hrest))

/-- Along paths that are apart all values are filed, and what is under a key is what filing
makes of the paths below it.

The induction is on the length of the paths, for what is below a key, and within it on the
leaves from the first to the last. -/
theorem fileAll_of_apart (depth : Nat) {leaves : List (List String × Value)} (h : Apart leaves)
    (hgoOn : ∀ leaf ∈ leaves, leaf.1 ≠ []) (hdepth : ∀ leaf ∈ leaves, leaf.1.length ≤ depth) :
    ∃ entries, fileAll leaves = some entries ∧
      ∀ key, Entries.get? entries key = filed (below key leaves) := by
  induction depth generalizing leaves with
  | zero =>
    obtain rfl := eq_nil_of_length_le_zero hgoOn hdepth
    exact ⟨[], rfl, fun _ => rfl⟩
  | succ depth ihDepth =>
    induction leaves using List.reverseRecOn with
    | nil => exact ⟨[], rfl, fun _ => rfl⟩
    | append_singleton leaves leaf ih =>
      obtain ⟨path, value⟩ := leaf
      cases path with
      | nil => exact absurd rfl (hgoOn _ (List.mem_append_right _ List.mem_cons_self))
      | cons key path =>
        have hbelow := h.below key
        have hbelowDepth := length_le_of_mem_below hdepth key
        rw [below_concat_self] at hbelow hbelowDepth
        rw [List.forall_mem_append] at hgoOn hdepth
        obtain ⟨entries, hentries, hget⟩ := ih h.front hgoOn.1 hdepth.1
        have hinner : path ≠ [] →
            ∃ inner, fileAll (below key leaves ++ [(path, value)]) = some inner := by
          intro hpath
          have hbelowGoOn :=
            hbelow.ne_nil (List.mem_append_right _ List.mem_cons_self) hpath
          obtain ⟨inner, hinner, -⟩ := ihDepth hbelow hbelowGoOn hbelowDepth
          exact ⟨inner, hinner⟩
        obtain ⟨item, hitem, hinsert⟩ := insertPath?_of_filed hbelow hinner (hget key)
        refine ⟨Entries.insert entries key item, ?_, fun other => ?_⟩
        · rw [fileAll_concat, hentries]
          exact hinsert
        · by_cases hother : other = key
          · subst hother
            rw [Entries.get?_insert_self, below_concat_self, hitem]
          · rw [Entries.get?_insert_of_ne _ hother, below_concat_of_ne (Ne.symm hother), hget]

/-! ## Another order -/

/-- What is under a key is the same in any order, if it is so of the mappings there. -/
theorem rel_filed_of_perm (h : Apart leaves) (hperm : leaves.Perm others)
    (hvalues : ∀ leaf ∈ leaves, Same leaf.2 leaf.2)
    (hfile : (∀ leaf ∈ leaves, leaf.1 ≠ []) → ∃ entries entries', fileAll leaves = some entries ∧
      fileAll others = some entries' ∧ Same (.mapping entries) (.mapping entries')) :
    Option.Rel Same (filed leaves) (filed others) := by
  match leaves with
  | [] =>
    obtain rfl := List.nil_perm.1 hperm
    exact .none
  | ([], value) :: rest =>
    rw [h.eq_singleton List.mem_cons_self] at hperm
    obtain rfl := List.singleton_perm.1 hperm
    exact .some (hvalues _ List.mem_cons_self)
  | (name :: path, value) :: rest =>
    have hgoOn := h.ne_nil List.mem_cons_self (List.cons_ne_nil name path)
    have hgoOn' := fun leaf hleaf => hgoOn leaf (hperm.mem_iff.2 hleaf)
    have hne : others ≠ [] := fun heq => List.cons_ne_nil _ _ (List.perm_nil.1 (heq ▸ hperm))
    obtain ⟨entries, entries', hentries, hentries', hsame⟩ := hfile hgoOn
    rw [filed_of_ne_nil (List.cons_ne_nil _ _) hgoOn, filed_of_ne_nil hne hgoOn', hentries,
      hentries']
    exact .some hsame

/-- Along paths that are apart, filing values in another order makes the same mapping. -/
theorem same_fileAll_of_perm (depth : Nat) {leaves others : List (List String × Value)}
    (h : Apart leaves) (hgoOn : ∀ leaf ∈ leaves, leaf.1 ≠ [])
    (hdepth : ∀ leaf ∈ leaves, leaf.1.length ≤ depth) (hperm : leaves.Perm others)
    (hvalues : ∀ leaf ∈ leaves, Same leaf.2 leaf.2) :
    ∃ entries entries', fileAll leaves = some entries ∧ fileAll others = some entries' ∧
      Same (.mapping entries) (.mapping entries') := by
  induction depth generalizing leaves others with
  | zero =>
    obtain rfl := eq_nil_of_length_le_zero hgoOn hdepth
    obtain rfl := List.nil_perm.1 hperm
    exact ⟨[], [], rfl, rfl, Value.wellFormed_mapping_nil, Value.wellFormed_mapping_nil, rfl⟩
  | succ depth ih =>
    obtain ⟨entries, hentries, hget⟩ := fileAll_of_apart (depth + 1) h hgoOn hdepth
    obtain ⟨entries', hentries', hget'⟩ := fileAll_of_apart (depth + 1) (h.perm hperm)
      (fun leaf hleaf => hgoOn leaf (hperm.mem_iff.2 hleaf))
      fun leaf hleaf => hdepth leaf (hperm.mem_iff.2 hleaf)
    have hwellFormed := wellFormed_fileAll (fun leaf hleaf => (hvalues leaf hleaf).left) hentries
    have hwellFormed' := wellFormed_fileAll
      (fun leaf hleaf => (hvalues leaf (hperm.mem_iff.2 hleaf)).left) hentries'
    refine ⟨entries, entries', hentries, hentries',
      Value.same_mapping_iff.2 ⟨hwellFormed.1, hwellFormed'.1, fun key => ?_⟩⟩
    have hbelow := h.below key
    have hbelowValues : ∀ rest ∈ below key leaves, Same rest.2 rest.2 :=
      fun rest hrest => hvalues (key :: rest.1, rest.2) (mem_below.1 hrest)
    rw [hget, hget']
    apply rel_filed_of_perm hbelow (below_perm hperm key) hbelowValues
    intro hbelowGoOn
    exact ih hbelow hbelowGoOn (length_le_of_mem_below hdepth key) (below_perm hperm key)
      hbelowValues

end DataExpr.Query
