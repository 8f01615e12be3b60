import DataExpr.Proofs.Value.Lookup
import DataExpr.Query.Decoding

/-!
# Filing along a path is all or nothing

A value is filed along a path in place: a mapping that is missing on the way is put there
before it is known whether the path leads on (`insertInPlace`).  Still nothing is left behind
where the path is obstructed, because a mapping that was just put there is empty and obstructs no
path (`insertInPlace_eq`).  So a value either comes back and everything is as before, or it
is filed at the end of its path and nothing but the path is touched (`insertion_all_or_nothing`).

One segment of a path leads into the mapping under a key, or into an empty one if the key is
new (`LeadsInto`).  All inductions on paths split into what happens there and further in.
-/

namespace DataExpr

namespace Entries

variable {α : Type}

/-- What is not under the key stays, in its order. -/
theorem filter_alter (f : Option α → α) (entries : Entries α) (key : String) :
    (alter f entries key).filter (·.1 ≠ key) = entries.filter (·.1 ≠ key) := by
  induction entries with
  | nil => simp [alter]
  | cons entry entries ih =>
    obtain ⟨name, item⟩ := entry
    by_cases hname : name = key
    · simp [alter, hname]
    · rw [alter, if_neg hname, List.filter_cons, List.filter_cons, ih]

/-- Of two values filed under a key, the second replaces the first. -/
theorem insert_alter (f : Option α → α) (entries : Entries α) (key : String) (value : α) :
    insert (alter f entries key) key value = insert entries key value := by
  unfold insert
  induction entries with
  | nil => simp [alter]
  | cons entry entries ih =>
    obtain ⟨name, item⟩ := entry
    by_cases hname : name = key
    · simp [alter, hname]
    · simp [alter, hname, ih]

end Entries

/-- What keys lead to, one behind the other, from a value. -/
def Value.at? : List String → Value → Option Value
  | [], value => some value
  | key :: path, value => (value.get? key).bind (at? path)

namespace Query

/-! ## In place -/

/-- Files a value at the end of a path in place, and gives it back where the path leads into
something other than a mapping.  Mappings that are missing on the way are put there first. -/
def insertInPlace (value : Value) : List String → Entries Value → Option Value × Entries Value
  | [], entries => (some value, entries)
  | key :: path, entries =>
      if path = [] then (none, collect false entries key value)
      else if path = [""] then (none, collect true entries key value)
      else
        let entries := Entries.alter (·.getD (.mapping [])) entries key
        match Entries.get? entries key with
        | some (.mapping inner) =>
            let (returned?, inner) := insertInPlace value path inner
            (returned?, Entries.insert entries key (.mapping inner))
        | _ => (some value, entries)

/-! ## Paths -/

/-- Whether a value at the end of the path is to be appended. -/
def appends (path : List String) : Bool :=
  path.getLast? = some ""

/-- The keys on a path.  A last segment that appends is none. -/
def steps (path : List String) : List String :=
  if appends path then path.dropLast else path

/-- The entries that keys lead to, if they lead to a mapping. -/
def levelAt (entries : Entries Value) (front : List String) : Entries Value :=
  (((Value.mapping entries).at? front).bind Value.asMapping?).getD []

/-- Before they end, the keys lead to something other than a mapping. -/
def Obstructed (keys : List String) (entries : Entries Value) : Prop :=
  ∃ front found, front ≠ [] ∧ front <+: keys ∧ front ≠ keys ∧
    (Value.mapping entries).at? front = some found ∧ ∀ inner, found ≠ .mapping inner

/-- What is under a key once a value is filed there: the value, alone or as the last item
behind what was there. -/
def joined (asList : Bool) (value : Value) : Option Value → Value
  | none => if asList then .sequence [value] else value
  | some (.sequence items) => .sequence (items ++ [value])
  | some first => .sequence [first, value]

/-- The value is at the end of the path, and nothing but the path is touched. -/
structure FiledAt (value : Value) (path : List String) (before after : Entries Value) : Prop where
  /-- The value is where the path ends, behind what was there. -/
  stored : (Value.mapping after).at? (steps path) =
    some (joined (appends path) value ((Value.mapping before).at? (steps path)))
  /-- Where the path comes through there is a mapping, in which all but the path's key is as
  before and in the same order.  The path's key has its old place, or the last. -/
  kept : ∀ front key, front ++ [key] <+: steps path → ∃ level,
    (Value.mapping after).at? front = some (.mapping level) ∧
    level.filter (·.1 ≠ key) = (levelAt before front).filter (·.1 ≠ key) ∧
    Entries.keys level =
      if key ∈ Entries.keys (levelAt before front) then Entries.keys (levelAt before front)
      else Entries.keys (levelAt before front) ++ [key]

section

variable {value : Value} {key : String} {path : List String} {entries inner : Entries Value}

theorem collect_eq (asList : Bool) (entries : Entries Value) (key : String) (value : Value) :
    collect asList entries key value = Entries.alter (joined asList value) entries key :=
  rfl

/-- What is no sequence becomes the first item of one. -/
theorem joined_of_kind_ne {found : Value} (h : found.kind ≠ .array) (asList : Bool)
    (value : Value) : joined asList value (some found) = .sequence [found, value] := by
  cases found with
  | sequence items => exact absurd rfl h
  | _ => rfl

/-! ## Steps of a path -/

theorem appends_cons (key : String) (hpath : path ≠ []) : appends (key :: path) = appends path := by
  rw [appends, appends, List.getLast?_cons_of_ne_nil hpath]

theorem steps_cons (key : String) (hpath : path ≠ []) :
    steps (key :: path) = key :: steps path := by
  rw [steps, steps, appends_cons key hpath]
  split
  · exact List.dropLast_cons_of_ne_nil hpath
  · rfl

/-- Only a path that is empty, or does nothing but append, has no keys. -/
theorem steps_ne_nil (hpath : path ≠ []) (hlast : path ≠ [""]) : steps path ≠ [] := by
  unfold steps
  split
  · rename_i happends
    match path with
    | [only] =>
      have honly : only = "" := by simpa [appends] using happends
      exact absurd (congrArg (fun key => [key]) honly) hlast
    | _ :: _ :: _ => simp
  · exact hpath

/-- A path that starts with a key has keys. -/
theorem steps_cons_ne_nil (hkey : key ≠ "") (rest : List String) : steps (key :: rest) ≠ [] :=
  steps_ne_nil (List.cons_ne_nil _ _) fun h => hkey (List.cons.inj h).1

/-- At the last key of a path the value is joined to what is under the key. -/
theorem insertPath?_of_last (hlast : path = [] ∨ path = [""]) (hsteps : steps (key :: path) ≠ [])
    (value : Value) (entries : Entries Value) :
    steps (key :: path) = [key] ∧
      insertPath? value (key :: path) entries =
        some (Entries.alter (joined (appends (key :: path)) value) entries key) := by
  rcases hlast with rfl | rfl
  · have happends : appends [key] = false := by
      by_contra h
      exact hsteps (if_pos (by simpa using h))
    refine ⟨?_, ?_⟩
    · rw [steps, happends]
      rfl
    · rw [insertPath?, if_pos rfl, happends, collect_eq]
  · exact ⟨rfl, rfl⟩

/-! ## Into a mapping -/

/-- The key leads into a mapping with these entries, or it is new and they are none. -/
inductive LeadsInto (entries : Entries Value) (key : String) : Entries Value → Prop where
  | new (h : Entries.get? entries key = none) : LeadsInto entries key []
  | mapping {inner : Entries Value} (h : Entries.get? entries key = some (.mapping inner)) :
      LeadsInto entries key inner

theorem leadsInto_or (entries : Entries Value) (key : String) :
    (∃ inner, LeadsInto entries key inner) ∨
      ∃ found, Entries.get? entries key = some found ∧ ∀ inner, found ≠ .mapping inner := by
  rcases hget : Entries.get? entries key with _ | found
  · exact .inl ⟨[], .new hget⟩
  · cases found with
    | mapping inner => exact .inl ⟨inner, .mapping hget⟩
    | _ => exact .inr ⟨_, rfl, nofun⟩

theorem at?_cons (entries : Entries Value) (key : String) (keys : List String) :
    (Value.mapping entries).at? (key :: keys) =
      (Entries.get? entries key).bind (Value.at? keys) :=
  rfl

theorem at?_nothing {keys : List String} (hkeys : keys ≠ []) :
    (Value.mapping []).at? keys = none := by
  cases keys with
  | nil => exact absurd rfl hkeys
  | cons key keys => rfl

theorem LeadsInto.at?_eq (h : LeadsInto entries key inner) {keys : List String}
    (hkeys : keys ≠ []) :
    (Value.mapping entries).at? (key :: keys) = (Value.mapping inner).at? keys := by
  rw [at?_cons]
  cases h with
  | new hget => rw [hget, Option.bind_none, at?_nothing hkeys]
  | mapping hget => rw [hget, Option.bind_some]

theorem LeadsInto.levelAt_eq (h : LeadsInto entries key inner) (front : List String) :
    levelAt entries (key :: front) = levelAt inner front := by
  cases front with
  | nil =>
    cases h with
    | new hget =>
      rw [levelAt, at?_cons, hget]
      rfl
    | mapping hget =>
      rw [levelAt, at?_cons, hget]
      rfl
  | cons name front =>
    rw [levelAt, levelAt, h.at?_eq (List.cons_ne_nil _ _)]

/-- Filing goes on in the mapping that a key leads into. -/
theorem LeadsInto.insertPath?_eq (h : LeadsInto entries key inner) (hpath : path ≠ [])
    (hlast : path ≠ [""]) :
    insertPath? value (key :: path) entries =
      (insertPath? value path inner).map fun inner =>
        Entries.insert entries key (.mapping inner) := by
  rw [insertPath?, if_neg hpath, if_neg hlast]
  cases h with
  | new hget => rw [hget]
  | mapping hget => rw [hget]

/-- It does not go on in anything else. -/
theorem insertPath?_eq_none (hpath : path ≠ []) (hlast : path ≠ [""]) {found : Value}
    (hget : Entries.get? entries key = some found) (hfound : ∀ inner, found ≠ .mapping inner) :
    insertPath? value (key :: path) entries = none := by
  rw [insertPath?, if_neg hpath, if_neg hlast, hget]
  cases found with
  | mapping inner => exact absurd rfl (hfound inner)
  | _ => rfl

/-- Where a path goes on behind its first key, the value was filed in what the key leads into. -/
theorem exists_leadsInto_of_insertPath? (hpath : path ≠ []) (hlast : path ≠ [""])
    {after : Entries Value} (h : insertPath? value (key :: path) entries = some after) :
    ∃ inner further, LeadsInto entries key inner ∧ insertPath? value path inner = some further ∧
      after = Entries.insert entries key (.mapping further) := by
  rcases leadsInto_or entries key with ⟨inner, hinner⟩ | ⟨found, hget, hfound⟩
  · rw [hinner.insertPath?_eq hpath hlast] at h
    obtain ⟨further, hfurther, rfl⟩ := Option.map_eq_some_iff.1 h
    exact ⟨inner, further, hinner, hfurther, rfl⟩
  · rw [insertPath?_eq_none hpath hlast hget hfound] at h
    cases h

/-- All that filing does under the first key of a path: it joins the value to what is there, or
goes on in what the key leads into. -/
theorem insertPath?_cases {after : Entries Value}
    (h : insertPath? value (key :: path) entries = some after) :
    (∃ asList, after = collect asList entries key value) ∨
      path ≠ [] ∧ ∃ inner further, LeadsInto entries key inner ∧
        insertPath? value path inner = some further ∧
        after = Entries.insert entries key (.mapping further) := by
  by_cases hpath : path = []
  · rw [insertPath?, if_pos hpath] at h
    exact .inl ⟨false, (Option.some.inj h).symm⟩
  by_cases hlast : path = [""]
  · rw [insertPath?, if_neg hpath, if_pos hlast] at h
    exact .inl ⟨true, (Option.some.inj h).symm⟩
  exact .inr ⟨hpath, exists_leadsInto_of_insertPath? hpath hlast h⟩

/-! ## Obstructed paths -/

theorem not_obstructed_nothing (keys : List String) : ¬Obstructed keys [] := by
  rintro ⟨front, found, hne, -, -, hfound, -⟩
  rw [at?_nothing hne] at hfound
  cases hfound

theorem not_obstructed_singleton (key : String) (entries : Entries Value) :
    ¬Obstructed [key] entries := by
  rintro ⟨front, found, hne, hfront, hproper, -, -⟩
  rcases List.prefix_cons_iff.1 hfront with rfl | ⟨rest, rfl, hrest⟩
  · exact hne rfl
  · rw [List.prefix_nil.1 hrest] at hproper
    exact hproper rfl

/-- What is no mapping obstructs each path that leads on from it. -/
theorem obstructed_of_found {found : Value} (hget : Entries.get? entries key = some found)
    (hfound : ∀ inner, found ≠ .mapping inner) {keys : List String} (hkeys : keys ≠ []) :
    Obstructed (key :: keys) entries := by
  refine ⟨[key], found, List.cons_ne_nil _ _, ?_, ?_, ?_, hfound⟩
  · exact List.cons_prefix_cons.2 ⟨rfl, List.nil_prefix⟩
  · exact fun h => hkeys (List.cons.inj h).2.symm
  · rw [at?_cons, hget]
    rfl

/-- Past a mapping, a path is obstructed where the rest of it is. -/
theorem LeadsInto.obstructed_iff (h : LeadsInto entries key inner) (keys : List String) :
    Obstructed (key :: keys) entries ↔ Obstructed keys inner := by
  constructor
  · rintro ⟨front, found, hne, hfront, hproper, hat, hfound⟩
    rcases List.prefix_cons_iff.1 hfront with rfl | ⟨rest, rfl, hrest⟩
    · exact absurd rfl hne
    have hrestNe : rest ≠ [] := by
      rintro rfl
      cases h with
      | new hget =>
        rw [at?_cons, hget] at hat
        cases hat
      | mapping hget =>
        rw [at?_cons, hget] at hat
        exact hfound _ (Option.some.inj hat).symm
    rw [h.at?_eq hrestNe] at hat
    exact ⟨rest, found, hrestNe, hrest, fun heq => hproper (congrArg (key :: ·) heq), hat, hfound⟩
  · rintro ⟨front, found, hne, hfront, hproper, hat, hfound⟩
    refine ⟨key :: front, found, List.cons_ne_nil _ _, List.cons_prefix_cons.2 ⟨rfl, hfront⟩,
      fun heq => hproper (List.cons.inj heq).2, ?_, hfound⟩
    rwa [h.at?_eq hne]

/-- A value is not filed just where the path is obstructed. -/
theorem insertPath?_eq_none_iff (value : Value) {path : List String} (hsteps : steps path ≠ [])
    (entries : Entries Value) :
    insertPath? value path entries = none ↔ Obstructed (steps path) entries := by
  induction path generalizing entries with
  | nil => exact absurd rfl hsteps
  | cons key path ih =>
    by_cases hend : path = [] ∨ path = [""]
    · obtain ⟨hkeys, hfiled⟩ := insertPath?_of_last hend hsteps value entries
      rw [hkeys, hfiled]
      exact iff_of_false (Option.some_ne_none _) (not_obstructed_singleton key entries)
    obtain ⟨hpath, hlast⟩ := not_or.1 hend
    have hrest := steps_ne_nil hpath hlast
    rw [steps_cons key hpath]
    rcases leadsInto_or entries key with ⟨inner, hinner⟩ | ⟨found, hget, hfound⟩
    · rw [hinner.insertPath?_eq hpath hlast, Option.map_eq_none_iff, hinner.obstructed_iff]
      exact ih hrest inner
    · exact iff_of_true (insertPath?_eq_none hpath hlast hget hfound)
        (obstructed_of_found hget hfound hrest)

/-- An empty mapping refuses nothing. -/
theorem exists_insertPath?_nothing (value : Value) (hpath : path ≠ []) (hlast : path ≠ [""]) :
    ∃ inner, insertPath? value path [] = some inner := by
  refine Option.ne_none_iff_exists'.1 fun h => not_obstructed_nothing (steps path) ?_
  exact (insertPath?_eq_none_iff value (steps_ne_nil hpath hlast) []).1 h

/-- In place, the value comes back and everything is as before, or it is filed. -/
theorem insertInPlace_eq (value : Value) (path : List String) (entries : Entries Value) :
    insertInPlace value path entries =
      match insertPath? value path entries with
      | some after => (none, after)
      | none => (some value, entries) := by
  induction path generalizing entries with
  | nil => rfl
  | cons key path ih =>
    rw [insertInPlace]
    by_cases hpath : path = []
    · subst hpath
      rfl
    by_cases hlast : path = [""]
    · subst hlast
      rfl
    rw [if_neg hpath, if_neg hlast]
    dsimp only
    rcases hget : Entries.get? entries key with _ | found
    · -- The mapping that was just put there refuses nothing.
      obtain ⟨inner, hinner⟩ := exists_insertPath?_nothing value hpath hlast
      rw [Entries.get?_alter_self, hget, (LeadsInto.new hget).insertPath?_eq hpath hlast, hinner]
      dsimp only [Option.getD_none, Option.map_some]
      rw [ih, hinner, Entries.insert_alter]
    · have hopened : Entries.alter (·.getD (.mapping [])) entries key = entries :=
        Entries.alter_of_get? hget rfl
      rw [hopened, hget]
      cases found with
      | mapping inner =>
        rw [(LeadsInto.mapping hget).insertPath?_eq hpath hlast]
        dsimp only
        rw [ih]
        cases insertPath? value path inner with
        | none =>
          have hsame : Entries.insert entries key (.mapping inner) = entries :=
            Entries.alter_of_get? hget rfl
          dsimp only [Option.map_none]
          rw [hsame]
        | some after => rfl
      | _ => rw [insertPath?_eq_none hpath hlast hget nofun]

/-! ## Filed values -/

/-- Joining a value to what is under the last key of a path files it. -/
theorem filedAt_of_last (hkeys : steps path = [key]) (value : Value) (entries : Entries Value) :
    FiledAt value path entries (Entries.alter (joined (appends path) value) entries key) where
  stored := by
    rw [hkeys, at?_cons, at?_cons, Entries.get?_alter_self]
    rcases Entries.get? entries key with _ | found <;> rfl
  kept front name hfront := by
    rw [hkeys] at hfront
    obtain ⟨rfl, rfl⟩ : front = [] ∧ name = key := by
      rcases List.prefix_cons_iff.1 hfront with h | ⟨rest, h, hrest⟩
      · simp at h
      · rw [List.prefix_nil.1 hrest] at h
        simpa using List.append_eq_singleton_iff.1 h
    exact ⟨_, rfl, Entries.filter_alter _ entries name, Entries.keys_alter _ entries name⟩

/-- A value filed in the mapping that a key leads into is filed. -/
theorem LeadsInto.filedAt (h : LeadsInto entries key inner) (hpath : path ≠ [])
    (hsteps : steps path ≠ []) {after : Entries Value} (hfiled : FiledAt value path inner after) :
    FiledAt value (key :: path) entries (Entries.insert entries key (.mapping after)) := by
  have hat (keys : List String) :
      (Value.mapping (Entries.insert entries key (.mapping after))).at? (key :: keys) =
        (Value.mapping after).at? keys := by
    rw [at?_cons, Entries.get?_insert_self, Option.bind_some]
  constructor
  · rw [steps_cons key hpath, appends_cons key hpath, hat, h.at?_eq hsteps]
    exact hfiled.stored
  · intro front name hfront
    rw [steps_cons key hpath] at hfront
    cases front with
    | nil =>
      obtain ⟨rfl, -⟩ := List.cons_prefix_cons.1 hfront
      exact ⟨_, rfl, Entries.filter_alter _ entries name, Entries.keys_alter _ entries name⟩
    | cons first front =>
      obtain ⟨rfl, hrest⟩ := List.cons_prefix_cons.1 hfront
      rw [hat, h.levelAt_eq]
      exact hfiled.kept front name hrest

theorem filedAt_of_insertPath? {after : Entries Value} (hsteps : steps path ≠ [])
    (h : insertPath? value path entries = some after) : FiledAt value path entries after := by
  induction path generalizing entries after with
  | nil => exact absurd rfl hsteps
  | cons key path ih =>
    by_cases hend : path = [] ∨ path = [""]
    · obtain ⟨hkeys, hfiled⟩ := insertPath?_of_last hend hsteps value entries
      obtain rfl := Option.some.inj (hfiled.symm.trans h)
      exact filedAt_of_last hkeys value entries
    obtain ⟨hpath, hlast⟩ := not_or.1 hend
    have hrest := steps_ne_nil hpath hlast
    obtain ⟨inner, further, hinner, hfurther, rfl⟩ := exists_leadsInto_of_insertPath? hpath hlast h
    exact hinner.filedAt hpath hrest (ih hrest hfurther)

end

/-- Filing along a path that starts with a key is all or nothing.  If the keys on the path lead
to something other than a mapping before they end, then the value comes back and the entries are
exactly as before, although they are changed in place.  Otherwise nothing comes back, the value is
at the end of the path, alone or behind what was there, and nothing but the path is touched. -/
theorem insertion_all_or_nothing (entries : Entries Value) {key : String} (hkey : key ≠ "")
    (rest : List String) (value : Value) :
    insertInPlace value (key :: rest) entries = (some value, entries) ∧
        insertPath? value (key :: rest) entries = none ∧
        Obstructed (steps (key :: rest)) entries ∨
      ∃ after, insertInPlace value (key :: rest) entries = (none, after) ∧
        insertPath? value (key :: rest) entries = some after ∧
        ¬Obstructed (steps (key :: rest)) entries ∧
        FiledAt value (key :: rest) entries after := by
  have hsteps := steps_cons_ne_nil hkey rest
  rw [← insertPath?_eq_none_iff value hsteps, insertInPlace_eq]
  cases h : insertPath? value (key :: rest) entries with
  | none => exact .inl ⟨rfl, rfl, rfl⟩
  | some after =>
    exact .inr ⟨after, rfl, rfl, Option.some_ne_none after, filedAt_of_insertPath? hsteps h⟩

/-- Entries with a text where a longer path could lead on. -/
def textInside : Entries Value :=
  [("x", .null), ("a", .mapping [("b", .text "1"), ("c", .null)])]

/-- The text takes in another one behind it, but no key leads into it. -/
theorem insertion_all_or_nothing_textInside :
    "a" ≠ "" ∧
      insertInPlace (.text "2") ["a", "b", "d"] textInside = (some (.text "2"), textInside) ∧
      Obstructed ["a", "b", "d"] textInside ∧
      ∃ after, insertInPlace (.text "2") ["a", "b", ""] textInside = (none, after) ∧
        FiledAt (.text "2") ["a", "b", ""] textInside after ∧
        (Value.mapping after).at? ["a", "b"] = some (.sequence [.text "1", .text "2"]) := by
  have hkey : "a" ≠ "" := by decide
  refine ⟨hkey, ?_⟩
  rcases insertion_all_or_nothing textInside hkey ["b", "d"] (.text "2") with
    ⟨hback, -, hobstructed⟩ | ⟨after, -, hafter, -⟩
  · refine ⟨hback, hobstructed, ?_⟩
    rcases insertion_all_or_nothing textInside hkey ["b", ""] (.text "2") with
      ⟨-, hnone, -⟩ | ⟨after, hinPlace, -, -, hfiled⟩
    · cases hnone
    · exact ⟨after, hinPlace, hfiled, hfiled.stored⟩
  · cases hafter

end Query

end DataExpr
