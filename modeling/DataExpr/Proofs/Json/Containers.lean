import DataExpr.Proofs.Json.Numbers
import DataExpr.Proofs.Json.Strings

/-!
# JSON containers

What is written of a value is read as a value whatever closes it (`ReadBy`), because
neither a comma nor the end of a container goes on a numeral.  From the members this passes
to the contents of a container (`readItems?_join`, `readMembers?_join`) and to the
container (`readContainer?_sequence`, `readContainer?_mapping`).
-/

namespace DataExpr.Json

/-- What is written of the value is read in JSON form, whatever closes it. -/
def ReadBy (value? : List Char → Option (Value × List Char)) (value : Value) : Prop :=
  ∀ rest, Closes rest → value? ((write value).toList ++ rest) = some (value.jsonForm, rest)

/-! ## Texts of containers -/

/-- Texts with commas between them. -/
def join {α : Type} (text : α → List Char) (items : List α) : List Char :=
  [','].intercalate (items.map text)

/-- The text of an item of a sequence. -/
def itemText (item : Value) : List Char :=
  (write item).toList

/-- The text of an entry of a mapping. -/
def entryText (entry : String × Value) : List Char :=
  (writeText entry.1).toList ++ ':' :: itemText entry.2

theorem toList_write_sequence (items : List Value) :
    (write (.sequence items)).toList = '[' :: (join itemText items ++ [']']) := by
  have hitems : (writeItems items).map String.toList = items.map itemText := by
    induction items with
    | nil => rfl
    | cons item items ih => rw [writeItems, List.map_cons, ih, List.map_cons, itemText]
  rw [write, String.toList_append, String.toList_append, String.toList_intercalate, hitems]
  rfl

theorem toList_write_mapping (entries : List (String × Value)) :
    (write (.mapping entries)).toList = '\x7b' :: (join entryText entries ++ ['\x7d']) := by
  have hentries : (writeEntries entries).map String.toList = entries.map entryText := by
    induction entries with
    | nil => rfl
    | cons entry entries ih =>
      obtain ⟨key, item⟩ := entry
      rw [writeEntries, List.map_cons, ih, List.map_cons, String.toList_append,
        String.toList_append, List.append_assoc]
      rfl
  rw [write, String.toList_append, String.toList_append, String.toList_intercalate, hentries]
  rfl

section Join

variable {α : Type} (text : α → List Char)

theorem join_singleton (item : α) : join text [item] = text item :=
  List.intercalate_singleton

theorem join_cons_cons (item next : α) (items : List α) :
    join text (item :: next :: items) = text item ++ ',' :: join text (next :: items) := by
  rw [join, List.map_cons, List.map_cons, List.intercalate_cons_cons, List.append_assoc]
  rfl

/-- There is a comma between any two texts. -/
theorem length_le_join (items : List α) : items.length ≤ (join text items).length + 1 := by
  induction items with
  | nil => exact Nat.zero_le _
  | cons item items ih =>
    cases items with
    | nil => exact Nat.le_add_left _ _
    | cons next items =>
      rw [join_cons_cons, List.length_append, List.length_cons, @List.length_cons _ ',']
      omega

end Join

/-! ## The first character -/

/-- What the text starts with is neither white space nor the end of a container. -/
def Opens (cs : List Char) : Prop :=
  ∃ c rest, cs = c :: rest ∧ isJsonBlank c = false ∧ c ≠ ']' ∧ c ≠ '\x7d'

theorem Opens.append {cs : List Char} (h : Opens cs) (behind : List Char) :
    Opens (cs ++ behind) := by
  obtain ⟨c, rest, rfl, hopens⟩ := h
  exact ⟨c, rest ++ behind, rfl, hopens⟩

theorem Opens.join {α : Type} {text : α → List Char} {items : List α}
    (h : ∀ item ∈ items, Opens (text item)) (hne : items ≠ []) : Opens (join text items) := by
  cases items with
  | nil => contradiction
  | cons item items =>
    have hitem := h item List.mem_cons_self
    cases items with
    | nil => rwa [join_singleton]
    | cons next items =>
      rw [join_cons_cons]
      exact hitem.append _

theorem opens_writeText (text : String) : Opens (writeText text).toList := by
  obtain ⟨cs, hcs, -⟩ := readText?_writeText text []
  rw [List.append_nil] at hcs
  exact ⟨'"', cs, hcs, rfl, by decide, by decide⟩

/-! ## Contents of containers -/

section Contents

variable {value? : List Char → Option (Value × List Char)} {cs rest : List Char}
  {item : Value} {fuel : Nat}

theorem readItems?_last (h : value? cs = some (item, ']' :: rest)) :
    readItems? value? (fuel + 1) cs = some ([item], rest) := by
  rw [readItems?, h]
  rfl

theorem readItems?_next {items : List Value} {behind : List Char}
    (h : value? cs = some (item, ',' :: behind))
    (hitems : readItems? value? fuel behind = some (items, rest)) :
    readItems? value? (fuel + 1) cs = some (item :: items, rest) := by
  rw [readItems?, h]
  show (readItems? value? fuel behind).map _ = _
  rw [hitems]
  rfl

theorem readMembers?_last {key : String} (h : value? cs = some (item, '\x7d' :: rest)) :
    readMembers? value? (fuel + 1) ((writeText key).toList ++ ':' :: cs) =
      some ([(key, item)], rest) := by
  obtain ⟨chars, hchars, hread⟩ := readText?_writeText key (':' :: cs)
  have hcolon : skipBlanks (':' :: cs) = ':' :: cs := skipBlanks_cons rfl cs
  have hclose : skipBlanks ('\x7d' :: rest) = '\x7d' :: rest := skipBlanks_cons rfl rest
  rw [hchars, readMembers?, skipBlanks_cons rfl]
  simp only [hread, hcolon, h, hclose]

theorem readMembers?_next {key : String} {entries : List (String × Value)} {behind : List Char}
    (h : value? cs = some (item, ',' :: behind))
    (hentries : readMembers? value? fuel behind = some (entries, rest)) :
    readMembers? value? (fuel + 1) ((writeText key).toList ++ ':' :: cs) =
      some ((key, item) :: entries, rest) := by
  obtain ⟨chars, hchars, hread⟩ := readText?_writeText key (':' :: cs)
  have hcolon : skipBlanks (':' :: cs) = ':' :: cs := skipBlanks_cons rfl cs
  have hcomma : skipBlanks (',' :: behind) = ',' :: behind := skipBlanks_cons rfl behind
  rw [hchars, readMembers?, skipBlanks_cons rfl]
  simp only [hread, hcolon, h, hcomma, hentries, Option.map_some]

theorem readItems?_join {items : List Value} (h : ∀ item ∈ items, ReadBy value? item)
    (hne : items ≠ []) (hfuel : items.length ≤ fuel) (rest : List Char) :
    readItems? value? fuel (join itemText items ++ ']' :: rest) =
      some (Value.jsonItems items, rest) := by
  induction items generalizing fuel with
  | nil => contradiction
  | cons item items ih =>
    rw [List.forall_mem_cons] at h
    obtain ⟨fuel, rfl⟩ := Nat.exists_eq_add_one.2 (Nat.zero_lt_of_lt hfuel)
    cases items with
    | nil =>
      rw [join_singleton]
      exact readItems?_last (h.1 (']' :: rest) (closes_cons rfl rest))
    | cons next items =>
      have hitems := ih h.2 (List.cons_ne_nil _ _) (Nat.le_of_succ_le_succ hfuel)
      rw [join_cons_cons, List.append_assoc]
      exact readItems?_next (h.1 _ (closes_cons rfl _)) hitems

theorem readMembers?_join {entries : List (String × Value)}
    (h : ∀ entry ∈ entries, ReadBy value? entry.2) (hne : entries ≠ [])
    (hfuel : entries.length ≤ fuel) (rest : List Char) :
    readMembers? value? fuel (join entryText entries ++ '\x7d' :: rest) =
      some (Value.jsonEntries entries, rest) := by
  induction entries generalizing fuel with
  | nil => contradiction
  | cons entry entries ih =>
    obtain ⟨key, item⟩ := entry
    rw [List.forall_mem_cons] at h
    obtain ⟨fuel, rfl⟩ := Nat.exists_eq_add_one.2 (Nat.zero_lt_of_lt hfuel)
    cases entries with
    | nil =>
      rw [join_singleton, entryText, List.append_assoc]
      exact readMembers?_last (h.1 ('\x7d' :: rest) (closes_cons rfl rest))
    | cons next entries =>
      have hentries := ih h.2 (List.cons_ne_nil _ _) (Nat.le_of_succ_le_succ hfuel)
      rw [join_cons_cons, entryText, List.append_assoc, List.append_assoc]
      exact readMembers?_next (h.1 _ (closes_cons rfl _)) hentries

/-! ## Containers -/

theorem readContainer?_sequence {items : List Value} (h : ∀ item ∈ items, ReadBy value? item)
    (hopens : ∀ item ∈ items, Opens (itemText item)) (rest : List Char) :
    readContainer? value? '[' (join itemText items ++ ']' :: rest) =
      some (.sequence (Value.jsonItems items), rest) := by
  by_cases hne : items = []
  · subst hne
    rfl
  have hlength := length_le_join itemText items
  have hfuel : items.length ≤ (join itemText items ++ ']' :: rest).length + 1 := by
    rw [List.length_append]
    omega
  have hread := readItems?_join h hne hfuel rest
  obtain ⟨c, cs, htext, hblank, hclose, -⟩ := (Opens.join hopens hne).append (']' :: rest)
  rw [htext] at hread ⊢
  rw [readContainer?, if_pos rfl, skipBlanks_cons hblank]
  split
  · rename_i heq
    exact absurd (List.cons.inj heq).1 hclose
  · rw [hread]
    rfl

theorem readContainer?_mapping {entries : List (String × Value)}
    (h : ∀ entry ∈ entries, ReadBy value? entry.2) (rest : List Char) :
    readContainer? value? '\x7b' (join entryText entries ++ '\x7d' :: rest) =
      some (Value.ofPairs (Value.jsonEntries entries), rest) := by
  by_cases hne : entries = []
  · subst hne
    rfl
  have hopens : ∀ entry ∈ entries, Opens (entryText entry) :=
    fun entry _ => (opens_writeText entry.1).append _
  have hlength := length_le_join entryText entries
  have hfuel : entries.length ≤ (join entryText entries ++ '\x7d' :: rest).length + 1 := by
    rw [List.length_append]
    omega
  have hread := readMembers?_join h hne hfuel rest
  obtain ⟨c, cs, htext, hblank, -, hclose⟩ := (Opens.join hopens hne).append ('\x7d' :: rest)
  rw [htext] at hread ⊢
  rw [readContainer?, if_neg (by decide), skipBlanks_cons hblank]
  split
  · rename_i heq
    exact absurd (List.cons.inj heq).1 hclose
  · rw [hread]
    rfl

end Contents

end DataExpr.Json
