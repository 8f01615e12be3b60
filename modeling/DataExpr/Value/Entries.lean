/-!
# Entries

Values filed under text keys, in the order in which their keys first came.
`Entries` is a list of pairs, and everything that changes one goes through
`Entries.alter`: a key that is there keeps its place, and a new key comes last.
So no operation files two values under one key; `Entries.Unique` says that of a
list.
-/

namespace DataExpr

/-- Pairs of a key and a value. -/
abbrev Entries (α : Type) := List (String × α)

namespace Entries

variable {α β : Type}

/-- The value under a key. -/
def get? : Entries α → String → Option α
  | [], _ => none
  | (k, v) :: rest, key => if k = key then some v else get? rest key

/-- Whether there is a value under a key. -/
def has (entries : Entries α) (key : String) : Bool :=
  (get? entries key).isSome

/-- The keys in order. -/
def keys (entries : Entries α) : List String :=
  entries.map Prod.fst

/-- The values in order. -/
def values (entries : Entries α) : List α :=
  entries.map Prod.snd

/-- No key stands twice. -/
def Unique (entries : Entries α) : Prop :=
  (keys entries).Nodup

/-- Replaces what is under a key, in its place, by what `f` makes of it.  If the
key is new, the result for nothing is put last. -/
def alter (f : Option α → α) : Entries α → String → Entries α
  | [], key => [(key, f none)]
  | (k, v) :: rest, key =>
      if k = key then (k, f (some v)) :: rest else (k, v) :: alter f rest key

/-- Files a value under a key, in place of any other there. -/
def insert (entries : Entries α) (key : String) (value : α) : Entries α :=
  alter (fun _ => value) entries key

/-- Files pairs one after the other; a repeated key keeps its first place and
takes its last value. -/
def ofPairs (pairs : List (String × α)) : Entries α :=
  pairs.foldl (fun entries (key, value) => insert entries key value) []

/-! ## Look-up -/

@[simp] theorem get?_nil (key : String) : get? ([] : Entries α) key = none := rfl

@[simp] theorem get?_cons (k : String) (v : α) (rest : Entries α) (key : String) :
    get? ((k, v) :: rest) key = if k = key then some v else get? rest key := rfl

theorem get?_alter_self (f : Option α → α) (entries : Entries α) (key : String) :
    get? (alter f entries key) key = some (f (get? entries key)) := by
  induction entries with
  | nil => simp [alter]
  | cons entry rest ih =>
      obtain ⟨k, v⟩ := entry
      by_cases h : k = key <;> simp [alter, h, ih]

theorem get?_alter_of_ne (f : Option α → α) (entries : Entries α) {key other : String}
    (hne : other ≠ key) : get? (alter f entries key) other = get? entries other := by
  induction entries with
  | nil => simp [alter, Ne.symm hne]
  | cons entry rest ih =>
      obtain ⟨k, v⟩ := entry
      by_cases h : k = key
      · subst h; simp [alter, Ne.symm hne]
      · simp [alter, h, ih]

theorem keys_alter (f : Option α → α) (entries : Entries α) (key : String) :
    keys (alter f entries key) =
      if key ∈ keys entries then keys entries else keys entries ++ [key] := by
  induction entries with
  | nil => simp [alter, keys]
  | cons entry rest ih =>
      obtain ⟨k, v⟩ := entry
      by_cases h : k = key
      · simp [alter, keys, h]
      · have hne : ¬ key = k := fun h' => h h'.symm
        simp only [keys] at ih
        simp only [alter, h, keys, if_false, List.map_cons, List.mem_cons, hne, false_or, ih]
        split <;> simp_all

theorem Unique.alter {entries : Entries α} (h : Unique entries) (f : Option α → α)
    (key : String) : Unique (Entries.alter f entries key) := by
  unfold Unique at *
  rw [keys_alter]
  split
  · exact h
  · rename_i hmem
    rw [List.nodup_append]
    exact ⟨h, by simp, fun a ha b hb => by simp_all; rintro rfl; exact hmem ha⟩

end Entries

end DataExpr
