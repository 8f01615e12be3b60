import DataExpr.Proofs.Value.Merging

/-!
# Merging in groups

Values of matching shape may be merged in any grouping (`merge_regroup`).  `Compatible`
says what matching is: all are scalars, all are sequences, all are dates or patterns, or
all are mappings with matching values under each key.  Among these each of the outcomes of
`blend` occurs for one shape only: the last scalar wins, the first date or pattern stays,
sequences are joined, and mappings are combined.

For mappings it is enough to compare the order of the keys and what is under each key
(`Entries.ext`), and the latter is the same law one level further down.
-/

namespace DataExpr.Value

/-- The values have matching shapes. -/
inductive Compatible : List Value → Prop
  | scalars {values : List Value}
      (h : ∀ value ∈ values, value.kind.isPrimitive ∨ value.kind = .null) : Compatible values
  | sequences {values : List Value} (h : ∀ value ∈ values, value.kind = .array) :
      Compatible values
  | stamps {values : List Value} (h : ∀ value ∈ values, value.kind = .date ∨ value.kind = .regex) :
      Compatible values
  | mappings {values : List Value} (hkind : ∀ value ∈ values, value.kind = .object)
      (h : ∀ key, Compatible (values.filterMap (Value.get? · key))) : Compatible values

/-! ## One outcome for each shape -/

/-- Of scalars, the later wins. -/
theorem mergeInto_scalar {acc value : Value} (hacc : acc.kind.isPrimitive ∨ acc.kind = .null)
    (hvalue : value.kind.isPrimitive ∨ value.kind = .null) : mergeInto acc value = value := by
  have hblend : blend acc.isTruthy acc.kind value.kind = .replace := by
    cases acc <;> cases value <;> simp_all [blend, isTruthy, kind, Kind.isPrimitive]
  rw [mergeInto_eq, hblend]

/-- Of dates and patterns, the earlier stays. -/
theorem mergeInto_stamp {acc value : Value} (hacc : acc.kind = .date ∨ acc.kind = .regex)
    (hvalue : value.kind = .date ∨ value.kind = .regex) : mergeInto acc value = acc := by
  have hblend : blend acc.isTruthy acc.kind value.kind = .keep := by
    cases acc <;> cases value <;> simp_all [blend, isTruthy, kind, Kind.isPrimitive]
  rw [mergeInto_eq, hblend]

theorem mergeInto_sequence (items more : List Value) :
    mergeInto (.sequence items) (.sequence more) = .sequence (items ++ more) := by
  rw [mergeInto_eq]
  rfl

theorem mergeInto_mapping (acc entries : Entries Value) :
    mergeInto (.mapping acc) (.mapping entries) = .mapping (mergeEntries acc entries) := by
  rw [mergeInto_eq]
  rfl

/-! ## Mappings -/

section

variable {first second third : Entries Value}

/-- Three entries may be merged in both groupings if the values under each of their common
keys may. -/
theorem mergeEntries_assoc (hfirst : Entries.Unique first) (hsecond : Entries.Unique second)
    (hthird : Entries.Unique third)
    (h : ∀ key, ∀ a ∈ Entries.get? first key, ∀ b ∈ Entries.get? second key,
      ∀ c ∈ Entries.get? third key, mergeInto (mergeInto a b) c = mergeInto a (mergeInto b c)) :
    mergeEntries (mergeEntries first second) third =
      mergeEntries first (mergeEntries second third) := by
  have hinner := unique_mergeEntries hsecond third
  refine Entries.ext (unique_mergeEntries (unique_mergeEntries hfirst _) _) ?_ fun key => ?_
  · rw [keys_mergeEntries hthird, keys_mergeEntries hsecond, keys_mergeEntries hinner,
      keys_mergeEntries hthird, List.filter_append, List.append_assoc, List.filter_filter]
    congr 2
    refine List.filter_congr fun key _ => ?_
    by_cases hkey : key ∈ Entries.keys first <;> simp [hkey]
  · rw [get?_mergeEntries hthird, get?_mergeEntries hsecond, get?_mergeEntries hinner,
      get?_mergeEntries hthird]
    have hkey := h key
    cases ha : Entries.get? first key <;> cases hb : Entries.get? second key <;>
      cases hc : Entries.get? third key <;> simp_all [Option.merge]

/-- Nothing changes entries that are merged into none. -/
theorem mergeEntries_into_nil (h : Entries.Unique first) : mergeEntries [] first = first := by
  refine Entries.ext (unique_mergeEntries wellFormed_mapping_nil.1 _) ?_ fun key => ?_
  · rw [keys_mergeEntries h]
    simp [Entries.keys]
  · rw [get?_mergeEntries h, Entries.get?_nil]
    cases Entries.get? first key <;> rfl

/-- Entries that are merged into themselves stay as they are if their values do. -/
theorem mergeEntries_self (h : Entries.Unique first)
    (hvalues : ∀ value ∈ Entries.values first, mergeInto value value = value) :
    mergeEntries first first = first := by
  refine Entries.ext (unique_mergeEntries h _) ?_ fun key => ?_
  · rw [keys_mergeEntries h]
    simp
  · rw [get?_mergeEntries h]
    cases hget : Entries.get? first key with
    | none => rfl
    | some value => exact congrArg some (hvalues value (Entries.mem_values_of_get? hget))

end

/-! ## Grouping -/

theorem exists_eq_sequence {value : Value} (h : value.kind = .array) :
    ∃ items, value = .sequence items := by
  cases value with
  | sequence items => exact ⟨items, rfl⟩
  | _ => simp [kind] at h

theorem exists_eq_mapping {value : Value} (h : value.kind = .object) :
    ∃ entries, value = .mapping entries := by
  cases value with
  | mapping entries => exact ⟨entries, rfl⟩
  | _ => simp [kind] at h

theorem forall_mem_triple {p : Value → Prop} {a b c : Value} :
    (∀ value ∈ [a, b, c], p value) ↔ p a ∧ p b ∧ p c := by
  simp

/-- Three compatible values may be merged in both groupings. -/
theorem mergeInto_assoc {values : List Value} (h : Compatible values) {a b c : Value}
    (hvalues : values = [a, b, c]) (ha : a.WellFormed) (hb : b.WellFormed) (hc : c.WellFormed) :
    mergeInto (mergeInto a b) c = mergeInto a (mergeInto b c) := by
  induction h generalizing a b c with subst hvalues
  | scalars h =>
    obtain ⟨ha, hb, hc⟩ := forall_mem_triple.1 h
    rw [mergeInto_scalar ha hb, mergeInto_scalar hb hc, mergeInto_scalar ha hc]
  | sequences h =>
    obtain ⟨ha, hb, hc⟩ := forall_mem_triple.1 h
    obtain ⟨first, rfl⟩ := exists_eq_sequence ha
    obtain ⟨second, rfl⟩ := exists_eq_sequence hb
    obtain ⟨third, rfl⟩ := exists_eq_sequence hc
    simp only [mergeInto_sequence, List.append_assoc]
  | stamps h =>
    obtain ⟨ha, hb, hc⟩ := forall_mem_triple.1 h
    rw [mergeInto_stamp ha hb, mergeInto_stamp hb hc, mergeInto_stamp ha hc, mergeInto_stamp ha hb]
  | mappings hkind _ ih =>
    obtain ⟨hakind, hbkind, hckind⟩ := forall_mem_triple.1 hkind
    obtain ⟨first, rfl⟩ := exists_eq_mapping hakind
    obtain ⟨second, rfl⟩ := exists_eq_mapping hbkind
    obtain ⟨third, rfl⟩ := exists_eq_mapping hckind
    simp only [mergeInto_mapping]
    congr 1
    -- Only a key of all three needs the law again; any other has at most one merge.
    refine mergeEntries_assoc ha.1 hb.1 hc.1 fun key x hx y hy z hz => ?_
    refine ih key ?_ (ha.get? hx) (hb.get? hy) (hc.get? hz)
    rw [Option.mem_def] at hx hy hz
    simp [get?, hx, hy, hz]

/-- A value without sequences is merged into itself unchanged. -/
theorem mergeInto_self {value : Value} (hwellFormed : value.WellFormed)
    (h : ∀ items, ¬value.Contains (.sequence items)) : mergeInto value value = value := by
  induction value using induction_members with
  | step value ih =>
    cases value with
    | null => exact mergeInto_scalar (.inr rfl) (.inr rfl)
    | bool | number | text => exact mergeInto_scalar (.inl rfl) (.inl rfl)
    | date => exact mergeInto_stamp (.inl rfl) (.inl rfl)
    | pattern => exact mergeInto_stamp (.inr rfl) (.inr rfl)
    | sequence items => exact absurd (.self _) (h items)
    | mapping entries =>
      rw [mergeInto_mapping, mergeEntries_self hwellFormed.1]
      intro item hitem
      exact ih item hitem (hwellFormed.of_mem_members hitem)
        fun items hinner => h items (.inside hitem hinner)

/-- Merging does not depend on the grouping of three compatible values.  The empty mapping
changes no mapping, on either side, and merging a value with itself changes nothing if no
sequence is inside. -/
theorem merge_regroup :
    (∀ a b c : Value, a.WellFormed → b.WellFormed → c.WellFormed → Compatible [a, b, c] →
      merge [merge [a, b], c] = merge [a, merge [b, c]] ∧
        merge [a, merge [b, c]] = merge [a, b, c]) ∧
    (∀ entries, (mapping entries).WellFormed →
      merge [emptyMapping, .mapping entries] = .mapping entries ∧
        merge [.mapping entries, emptyMapping] = .mapping entries) ∧
    ∀ a : Value, a.WellFormed → (∀ items, ¬a.Contains (.sequence items)) → merge [a, a] = a := by
  refine ⟨fun a b c ha hb hc h => ?_, fun entries h => ⟨?_, ?_⟩, fun a => mergeInto_self⟩
  · have hassoc : merge [merge [a, b], c] = merge [a, merge [b, c]] :=
      mergeInto_assoc h rfl ha hb hc
    exact ⟨hassoc, hassoc.symm⟩
  · show mergeInto (.mapping []) (.mapping entries) = _
    rw [mergeInto_mapping, mergeEntries_into_nil h.1]
  · show mergeInto (.mapping entries) (.mapping []) = _
    rw [mergeInto_mapping, mergeEntries_nil]

/-- Options with a scalar and a sequence. -/
def defaultOptions : Value :=
  .mapping [("port", .number 1), ("tags", .sequence [.text "a"])]

/-- Options with the sequence and a mapping. -/
def siteOptions : Value :=
  .mapping [("tags", .sequence [.null]), ("log", .mapping [("file", .text "x")])]

/-- Options with the mapping and the scalar. -/
def userOptions : Value :=
  .mapping [("log", .mapping [("file", .null)]), ("port", .text "2")]

theorem compatible_options : Compatible [defaultOptions, siteOptions, userOptions] := by
  refine .mappings (by simp [defaultOptions, siteOptions, userOptions, kind]) fun key => ?_
  by_cases hport : "port" = key
  · subst hport
    refine .scalars ?_
    simp [defaultOptions, siteOptions, userOptions, get?, kind, Kind.isPrimitive]
  by_cases htags : "tags" = key
  · subst htags
    exact .sequences (by simp [defaultOptions, siteOptions, userOptions, get?, kind])
  by_cases hlog : "log" = key
  · subst hlog
    refine .mappings (by simp [defaultOptions, siteOptions, userOptions, get?, kind]) fun key => ?_
    refine .scalars ?_
    by_cases hfile : "file" = key <;>
      simp [defaultOptions, siteOptions, userOptions, get?, kind, Kind.isPrimitive, hfile]
  · exact .scalars (by simp [defaultOptions, siteOptions, userOptions, get?, hport, htags, hlog])

theorem not_contains_sequence_userOptions (items : List Value) :
    ¬userOptions.Contains (.sequence items) := by
  simp [userOptions, contains_iff (.mapping _), contains_iff .null, contains_iff (.text _),
    members, Entries.values]

theorem merge_regroup_options :
    (defaultOptions.WellFormed ∧ siteOptions.WellFormed ∧ userOptions.WellFormed ∧
      Compatible [defaultOptions, siteOptions, userOptions] ∧
      ∀ items, ¬userOptions.Contains (.sequence items)) ∧
      merge [merge [defaultOptions, siteOptions], userOptions] =
        merge [defaultOptions, merge [siteOptions, userOptions]] ∧
      merge [emptyMapping, userOptions] = userOptions ∧
      merge [userOptions, userOptions] = userOptions := by
  have hdefault : defaultOptions.WellFormed := by
    simp [defaultOptions, WellFormed, itemsWellFormed, entriesWellFormed, Entries.Unique,
      Entries.keys]
  have hsite : siteOptions.WellFormed := by
    simp [siteOptions, WellFormed, itemsWellFormed, entriesWellFormed, Entries.Unique,
      Entries.keys]
  have huser : userOptions.WellFormed := by
    simp [userOptions, WellFormed, entriesWellFormed, Entries.Unique, Entries.keys]
  refine ⟨⟨hdefault, hsite, huser, compatible_options, not_contains_sequence_userOptions⟩,
    ?_, ?_, ?_⟩
  · exact (merge_regroup.1 _ _ _ hdefault hsite huser compatible_options).1
  · exact (merge_regroup.2.1 _ huser).1
  · exact merge_regroup.2.2 _ huser not_contains_sequence_userOptions

end DataExpr.Value
