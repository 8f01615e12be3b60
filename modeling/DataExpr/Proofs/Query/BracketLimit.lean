import DataExpr.Proofs.Query.Paths

/-!
# Reading fewer brackets of a key

A key that leads into mappings is a nonempty base, then groups in brackets, and then a rest
(`Bracketed`).  Groups are read up to a limit, and what is behind the last one that may be read
is one more segment, as it stands (`keyPath?_of_bracketed`).

So a smaller limit gives the first segments of the path that a greater one gives, and the rest of
the key (`keyPath?_of_le`).  But it also gives a path to keys that have none under the greater
limit: text that is no group, such as `[b` without its closing bracket, counts only where it is read
(`keyPath?_eq_none_iff`).
-/

namespace DataExpr.Query

/-! ## Groups -/

/-- The key is a nonempty base, then groups in brackets, and then a rest.  The base ends at an
opening bracket, also if there are no groups. -/
structure Bracketed (key base : String) (groups : List String) (rest : String) : Prop where
  spelled : key = keyOf (base :: groups) ++ rest
  base_ne_empty : base ≠ ""
  not_mem_open : '[' ∉ base.toList
  not_mem_close : ∀ group ∈ groups, ']' ∉ group.toList
  opened : groups = [] → ∃ more, rest = "[" ++ more

/-- The key is a nonempty base with an opening bracket behind it. -/
def IsOpened (key : String) : Prop :=
  ∃ base rest, Bracketed key base [] rest

/-- The text starts with a group in brackets. -/
def StartsWithGroup (text : String) : Prop :=
  ∃ group rest, ']' ∉ group.toList ∧ text = "[" ++ group ++ "]" ++ rest

/-- Behind a base and a number of groups, the key goes on with something that is no group. -/
def BreaksBehind (key : String) (count : Nat) : Prop :=
  ∃ base groups rest, Bracketed key base groups rest ∧ groups.length = count ∧ rest ≠ "" ∧
    ¬StartsWithGroup rest

/-- The segment that a rest is, unless it is empty. -/
def restSegments (rest : String) : List String :=
  if rest = "" then [] else [rest]

section

variable {key base rest : String} {groups : List String}

/-- The last groups may count as rest. -/
theorem Bracketed.cut (h : Bracketed key base groups rest) (count : Nat) :
    Bracketed key base (groups.take count) (brackets (groups.drop count) ++ rest) where
  spelled := by
    have hgroups := brackets_append (groups.take count) (groups.drop count)
    rw [List.take_append_drop] at hgroups
    rw [h.spelled, keyOf, keyOf, hgroups]
    simp [String.append_assoc]
  base_ne_empty := h.base_ne_empty
  not_mem_open := h.not_mem_open
  not_mem_close group hgroup := h.not_mem_close group (List.mem_of_mem_take hgroup)
  opened hnil := by
    cases groups with
    | nil =>
      obtain ⟨more, hmore⟩ := h.opened rfl
      exact ⟨more, by simp [brackets, hmore]⟩
    | cons group groups =>
      have hcount : count = 0 := by simpa using hnil
      subst hcount
      refine ⟨group ++ "]" ++ brackets groups ++ rest, ?_⟩
      simp [brackets, String.append_assoc]

/-- A group that comes next may count as one of the groups. -/
theorem Bracketed.group (h : Bracketed key base groups rest) {group more : String}
    (hgroup : ']' ∉ group.toList) (hrest : rest = "[" ++ group ++ "]" ++ more) :
    Bracketed key base (groups ++ [group]) more where
  spelled := by
    rw [h.spelled, hrest, keyOf, keyOf, brackets_append]
    simp [brackets, String.append_assoc]
  base_ne_empty := h.base_ne_empty
  not_mem_open := h.not_mem_open
  not_mem_close := by
    rw [List.forall_mem_append, List.forall_mem_singleton]
    exact ⟨h.not_mem_close, hgroup⟩
  opened hnil := absurd hnil (List.append_ne_nil_of_right_ne_nil _ (List.cons_ne_nil _ _))

/-- A key that is opened has as many groups as may be read, or it ends, or it breaks. -/
theorem exists_bracketed (h : IsOpened key) (limit : Nat) :
    ∃ base groups rest, Bracketed key base groups rest ∧ groups.length ≤ limit ∧
      (groups.length = limit ∨ rest = "" ∨ ¬StartsWithGroup rest) := by
  induction limit with
  | zero =>
    obtain ⟨base, rest, hkey⟩ := h
    exact ⟨base, [], rest, hkey, Nat.le_refl _, .inl rfl⟩
  | succ limit ih =>
    obtain ⟨base, groups, rest, hkey, hle, hend⟩ := ih
    by_cases hgroup : StartsWithGroup rest ∧ groups.length = limit
    · obtain ⟨⟨group, more, hclose, hrest⟩, hlength⟩ := hgroup
      exact ⟨base, groups ++ [group], more, hkey.group hclose hrest, by simp [hlength],
        .inl (by simp [hlength])⟩
    · refine ⟨base, groups, rest, hkey, Nat.le_succ_of_le hle, .inr ?_⟩
      rcases hend with hlength | hend
      · exact .inr fun hstarts => hgroup ⟨hstarts, hlength⟩
      · exact hend

/-! ## Reading groups -/

theorem bracketsFrom_zero (rest : String) :
    bracketsFrom 0 0 rest.toList = some ⟨restSegments rest, decide (rest ≠ "")⟩ := by
  by_cases hrest : rest = ""
  · subst hrest
    rfl
  · obtain ⟨c, cs, hchars⟩ := List.exists_cons_of_ne_nil (mt String.toList_eq_nil_iff.1 hrest)
    have htext : String.ofList (c :: cs) = rest := by rw [← hchars, String.ofList_toList]
    rw [hchars, bracketsFrom, htext, restSegments, if_neg hrest, decide_eq_true hrest]

/-- What is no group is not read. -/
theorem bracketsFrom_eq_none (hne : rest ≠ "") (h : ¬StartsWithGroup rest) (left : Nat) :
    bracketsFrom (left + 1) 0 rest.toList = none := by
  obtain ⟨c, cs, hchars⟩ := List.exists_cons_of_ne_nil (mt String.toList_eq_nil_iff.1 hne)
  rw [hchars, bracketsFrom]
  refine if_neg ?_
  rintro ⟨rfl, hlength⟩
  have hmem : ']' ∈ cs := by
    by_contra hnot
    have hinner : cs.takeWhile (· ≠ ']') = cs := by
      simpa using Text.takeWhile_ne_append hnot []
    rw [hinner] at hlength
    exact Nat.lt_irrefl _ hlength
  obtain ⟨group, more, hsplit, hclose⟩ := List.eq_append_cons_of_mem hmem
  refine h ⟨String.ofList group, String.ofList more, by simpa using hclose, ?_⟩
  rw [← String.toList_inj, hchars, hsplit]
  simp

/-- The groups of a key are read one after the other, and then what is behind them. -/
theorem keyPath?_of_bracketed (h : Bracketed key base groups rest) (left : Nat) :
    keyPath? (groups.length + left) key =
      (bracketsFrom left 0 rest.toList).map (.behind (base :: groups)) := by
  have hkey : key.toList = base.toList ++ ((brackets groups).toList ++ rest.toList) := by
    rw [h.spelled, keyOf]
    simp
  obtain ⟨more, hmore⟩ : ∃ more, (brackets groups).toList ++ rest.toList = '[' :: more := by
    cases groups with
    | nil =>
      obtain ⟨more, hmore⟩ := h.opened rfl
      exact ⟨more.toList, by simp [brackets, hmore]⟩
    | cons group groups => exact ⟨_, by simp [brackets]; rfl⟩
  rw [hmore] at hkey
  rw [keyPath?_of_base hkey h.base_ne_empty h.not_mem_open, ← hmore,
    bracketsFrom_append h.not_mem_close, Option.map_map]
  rfl

/-- Where the limit is reached, the rest is kept as it stands. -/
theorem keyPath?_length (h : Bracketed key base groups rest) :
    keyPath? groups.length key =
      some ⟨base :: groups ++ restSegments rest, decide (rest ≠ "")⟩ := by
  have hread := keyPath?_of_bracketed h 0
  rw [Nat.add_zero, bracketsFrom_zero] at hread
  exact hread

/-- Where the key ends, nothing is left. -/
theorem keyPath?_of_whole (h : Bracketed key base groups "") {limit : Nat}
    (hlimit : groups.length ≤ limit) : keyPath? limit key = some ⟨base :: groups, false⟩ := by
  have hread := keyPath?_of_bracketed h (limit - groups.length)
  have hend : bracketsFrom (limit - groups.length) 0 "".toList = some ⟨[], false⟩ :=
    bracketsFrom_nil _
  rw [Nat.add_sub_cancel' hlimit, hend] at hread
  simpa [KeyPath.behind] using hread

/-- A key that breaks before the limit has no path. -/
theorem keyPath?_of_breaksBehind {count limit : Nat} (h : BreaksBehind key count)
    (hcount : count < limit) : keyPath? limit key = none := by
  obtain ⟨base, groups, rest, hkey, rfl, hne, hrest⟩ := h
  obtain ⟨left, rfl⟩ := Nat.exists_eq_add_of_lt hcount
  rw [Nat.add_assoc, keyPath?_of_bracketed hkey, bracketsFrom_eq_none hne hrest]
  rfl

theorem isOpened_of_keyPath? {limit : Nat} {path : KeyPath} (h : keyPath? limit key = some path) :
    IsOpened key := by
  have hmem : '[' ∈ key.toList := by
    by_contra hnot
    rw [keyPath?_of_not_mem hnot] at h
    cases h
  obtain ⟨base, rest, hsplit, hopen⟩ := List.eq_append_cons_of_mem hmem
  have hbase : base ≠ [] := by
    rintro rfl
    rw [keyPath?, hsplit] at h
    simp at h
  refine ⟨String.ofList base, String.ofList ('[' :: rest), ?_, ?_, ?_, ?_, fun _ => ?_⟩
  · rw [← String.toList_inj, hsplit]
    simp [keyOf, brackets]
  · simpa using hbase
  · simpa using hopen
  · exact fun _ hmem => absurd hmem List.not_mem_nil
  · exact ⟨String.ofList rest, by rw [← String.toList_inj]; simp⟩

/-- What a path is: the base of the key, groups that are not more than the limit, and a rest only
if they are as many. -/
theorem exists_bracketed_of_keyPath? {limit : Nat} {path : KeyPath}
    (h : keyPath? limit key = some path) :
    ∃ base groups rest, Bracketed key base groups rest ∧ groups.length ≤ limit ∧
      (groups.length = limit ∨ rest = "") ∧
      path = ⟨base :: groups ++ restSegments rest, decide (rest ≠ "")⟩ := by
  obtain ⟨base, groups, rest, hkey, hle, hend⟩ := exists_bracketed (isOpened_of_keyPath? h) limit
  by_cases hlength : groups.length = limit
  · refine ⟨base, groups, rest, hkey, hle, .inl hlength, ?_⟩
    rw [← hlength, keyPath?_length hkey] at h
    exact (Option.some.inj h).symm
  by_cases hrest : rest = ""
  · subst hrest
    refine ⟨base, groups, "", hkey, hle, .inr rfl, ?_⟩
    rw [keyPath?_of_whole hkey hle] at h
    simpa [restSegments] using (Option.some.inj h).symm
  · have hbreaks : BreaksBehind key groups.length :=
      ⟨base, groups, rest, hkey, rfl, hrest, (hend.resolve_left hlength).resolve_left hrest⟩
    rw [keyPath?_of_breaksBehind hbreaks (Nat.lt_of_le_of_ne hle hlength)] at h
    cases h

/-- A path goes on behind its base. -/
theorem exists_segments_of_keyPath? {limit : Nat} {path : KeyPath}
    (h : keyPath? limit key = some path) :
    ∃ base name names, path.segments = base :: name :: names := by
  obtain ⟨base, groups, rest, hkey, -, -, rfl⟩ := exists_bracketed_of_keyPath? h
  cases groups with
  | cons group groups => exact ⟨base, group, _, rfl⟩
  | nil =>
    obtain ⟨more, hmore⟩ := hkey.opened rfl
    have hrest : rest ≠ "" := by
      rw [hmore, Ne, ← String.toList_eq_nil_iff]
      simp
    exact ⟨base, rest, [], by rw [restSegments, if_neg hrest]; rfl⟩

/-- A key has no path just if no opening bracket follows a base, or it breaks before the limit. -/
theorem keyPath?_eq_none_iff (limit : Nat) (key : String) :
    keyPath? limit key = none ↔ ¬IsOpened key ∨ ∃ count < limit, BreaksBehind key count := by
  constructor
  · intro h
    by_cases hopened : IsOpened key
    · obtain ⟨base, groups, rest, hkey, hle, hend⟩ := exists_bracketed hopened limit
      have hlength : groups.length ≠ limit := by
        rintro rfl
        rw [keyPath?_length hkey] at h
        cases h
      have hrest : rest ≠ "" := by
        rintro rfl
        rw [keyPath?_of_whole hkey hle] at h
        cases h
      exact .inr ⟨groups.length, Nat.lt_of_le_of_ne hle hlength, base, groups, rest, hkey, rfl,
        hrest, (hend.resolve_left hlength).resolve_left hrest⟩
    · exact .inl hopened
  · rintro (hopened | ⟨count, hcount, hbreaks⟩)
    · rw [Option.eq_none_iff_forall_ne_some]
      exact fun path hpath => hopened (isOpened_of_keyPath? hpath)
    · exact keyPath?_of_breaksBehind hbreaks hcount

/-- A path under a smaller limit has the first segments of one under a greater limit, and then
the rest of the key. -/
theorem keyPath?_of_le {fewer more : Nat} (h : fewer ≤ more) {path path' : KeyPath}
    (hpath : keyPath? fewer key = some path) (hpath' : keyPath? more key = some path') :
    ∃ rest, key = keyOf (path'.segments.take (fewer + 1)) ++ rest ∧
      path = ⟨path'.segments.take (fewer + 1) ++ restSegments rest, decide (rest ≠ "")⟩ := by
  obtain ⟨base, groups, rest, hkey, hle, hend, rfl⟩ := exists_bracketed_of_keyPath? hpath'
  rcases Nat.lt_or_ge groups.length fewer with hlt | hge
  · -- The key ends before the smaller limit is reached.
    obtain rfl : rest = "" := hend.resolve_left (by omega)
    have hsegments : (base :: groups ++ restSegments "").take (fewer + 1) = base :: groups := by
      rw [restSegments, if_pos rfl, List.append_nil]
      exact List.take_of_length_le (Nat.succ_le_succ (Nat.le_of_lt hlt))
    rw [keyPath?_of_whole hkey (Nat.le_of_lt hlt)] at hpath
    rw [hsegments]
    refine ⟨"", hkey.spelled, ?_⟩
    simpa [restSegments] using (Option.some.inj hpath).symm
  · have hread := keyPath?_length (hkey.cut fewer)
    rw [List.length_take, Nat.min_eq_left hge, hpath] at hread
    have hsegments : (base :: groups ++ restSegments rest).take (fewer + 1) =
        base :: groups.take fewer := by
      rw [List.cons_append, List.take_succ_cons, List.take_append_of_le_length hge]
    rw [hsegments]
    exact ⟨_, (hkey.cut fewer).spelled, Option.some.inj hread⟩

end

/-- The limit cuts paths short, and it hides what is behind the groups that are read.  A key without
a path under a smaller limit has none under a greater one.  It has a path under the smaller limit
only, just if it breaks behind at least as many groups as the smaller limit and fewer than the
greater one.  And of two paths, the one under the smaller limit has the first segments of the
other, and then the rest of the key as it stands, if there is one. -/
theorem keyPath?_limits (key : String) {fewer more : Nat} (h : fewer ≤ more) :
    (keyPath? fewer key = none → keyPath? more key = none) ∧
      (keyPath? fewer key ≠ none ∧ keyPath? more key = none ↔
        ∃ count, fewer ≤ count ∧ count < more ∧ BreaksBehind key count) ∧
      ∀ path path', keyPath? fewer key = some path → keyPath? more key = some path' →
        ∃ rest, key = keyOf (path'.segments.take (fewer + 1)) ++ rest ∧
          path.segments = path'.segments.take (fewer + 1) ++ (if rest = "" then [] else [rest]) ∧
          (path.isCut ↔ rest ≠ "") := by
  refine ⟨fun hnone => ?_, ⟨?_, ?_⟩, fun path path' hpath hpath' => ?_⟩
  · rcases (keyPath?_eq_none_iff fewer key).1 hnone with hopened | ⟨count, hcount, hbreaks⟩
    · exact (keyPath?_eq_none_iff more key).2 (.inl hopened)
    · exact keyPath?_of_breaksBehind hbreaks (Nat.lt_of_lt_of_le hcount h)
  · rintro ⟨hsome, hnone⟩
    rcases (keyPath?_eq_none_iff more key).1 hnone with hopened | ⟨count, hcount, hbreaks⟩
    · exact absurd ((keyPath?_eq_none_iff fewer key).2 (.inl hopened)) hsome
    · refine ⟨count, ?_, hcount, hbreaks⟩
      by_contra hlt
      exact hsome (keyPath?_of_breaksBehind hbreaks (Nat.lt_of_not_le hlt))
  · rintro ⟨count, hle, hlt, hbreaks⟩
    refine ⟨?_, keyPath?_of_breaksBehind hbreaks hlt⟩
    obtain ⟨base, groups, rest, hkey, rfl, -, -⟩ := hbreaks
    have hread := keyPath?_length (hkey.cut fewer)
    rw [List.length_take, Nat.min_eq_left hle] at hread
    rw [hread]
    exact Option.some_ne_none _
  · obtain ⟨rest, hspelled, rfl⟩ := keyPath?_of_le h hpath hpath'
    exact ⟨rest, hspelled, rfl, decide_eq_true_iff⟩

/-- A closing bracket is missed only where its group is read. -/
theorem not_keyPath?_iff_openBracket :
    ¬(keyPath? 0 "a[b" = none ↔ keyPath? 1 "a[b" = none) := by
  decide

/-- The text behind two groups is a rest, unless a third group is looked for. -/
theorem keyPath?_limits_textBehind :
    (1 ≤ 2 ∧ keyPath? 1 "a[b][c]d" = some ⟨["a", "b", "[c]d"], true⟩ ∧
        keyPath? 2 "a[b][c]d" = some ⟨["a", "b", "c", "d"], true⟩ ∧
        ∃ rest, "a[b][c]d" = keyOf ["a", "b"] ++ rest ∧
          ["a", "b", "[c]d"] = ["a", "b"] ++ (if rest = "" then [] else [rest])) ∧
      (1 ≤ 3 ∧ keyPath? 3 "a[b][c]d" = none ∧
        ∃ count, 1 ≤ count ∧ count < 3 ∧ BreaksBehind "a[b][c]d" count) := by
  have hone : keyPath? 1 "a[b][c]d" = some ⟨["a", "b", "[c]d"], true⟩ := by decide
  have htwo : keyPath? 2 "a[b][c]d" = some ⟨["a", "b", "c", "d"], true⟩ := by decide
  have hthree : keyPath? 3 "a[b][c]d" = none := by decide
  refine ⟨⟨by decide, hone, htwo, ?_⟩, by decide, hthree, ?_⟩
  · obtain ⟨-, -, hsegments⟩ := keyPath?_limits "a[b][c]d" (show 1 ≤ 2 by decide)
    obtain ⟨rest, hspelled, hrest, -⟩ := hsegments _ _ hone htwo
    exact ⟨rest, hspelled, hrest⟩
  · obtain ⟨-, hbreaks, -⟩ := keyPath?_limits "a[b][c]d" (show 1 ≤ 3 by decide)
    exact hbreaks.1 ⟨hone ▸ Option.some_ne_none _, hthree⟩

end DataExpr.Query
