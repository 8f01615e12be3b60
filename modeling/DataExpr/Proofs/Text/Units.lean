import DataExpr.Text.Basic

/-!
# Texts and their units

A text can be told from its units (`units_inj`): the units of a character say which
character it is, whatever stands behind them, because the halves of surrogate pairs are no
characters.  Units are ordered as lists of numbers (`compareUnits_eq_compare`), so the
order of texts by their units is total, and only equal texts are neither before nor behind
each other.

Taken one by one the units give back every character that takes one unit, and two
replacement characters for every other (`map_charOfUnit_units`).
-/

namespace DataExpr.Text

/-! ## Order -/

/-- Units are ordered as lists of numbers are. -/
theorem compareUnits_eq_compare (us vs : List Nat) : compareUnits us vs = compare us vs := by
  induction us generalizing vs with
  | nil => cases vs <;> rfl
  | cons u us ih =>
    cases vs with
    | nil => rfl
    | cons v vs => rw [compareUnits, List.compare_cons_cons, ih]

instance : Std.TransCmp compareUnits where
  eq_swap {us vs} := by
    rw [compareUnits_eq_compare, compareUnits_eq_compare]
    exact Std.OrientedOrd.eq_swap
  isLE_trans {us vs ws} h h' := by
    rw [compareUnits_eq_compare] at h h' ⊢
    exact Std.TransOrd.isLE_trans h h'

instance : Std.LawfulEqCmp compareUnits where
  eq_of_compare {us vs} h := by
    rw [compareUnits_eq_compare] at h
    exact Std.LawfulEqOrd.eq_of_compare h

/-! ## Characters -/

/-- No character is half of a surrogate pair. -/
theorem toNat_cases (c : Char) :
    c.toNat < 0xd800 ∨ 0xdfff < c.toNat ∧ c.toNat < 0x110000 :=
  c.valid

theorem unitsOfChar_of_lt {c : Char} (h : c.toNat < 0x10000) : unitsOfChar c = [c.toNat] :=
  if_pos h

theorem unitsOfChar_of_le {c : Char} (h : 0x10000 ≤ c.toNat) :
    unitsOfChar c =
      [0xd800 + (c.toNat - 0x10000) / 0x400, 0xdc00 + (c.toNat - 0x10000) % 0x400] :=
  if_neg (Nat.not_lt.2 h)

/-- The units at the front say which character comes first. -/
theorem unitsOfChar_append_inj {c d : Char} {us vs : List Nat}
    (h : unitsOfChar c ++ us = unitsOfChar d ++ vs) : c = d ∧ us = vs := by
  have hc := toNat_cases c
  have hd := toNat_cases d
  rw [← Char.toNat_inj]
  rcases Nat.lt_or_ge c.toNat 0x10000 with hshort | hlong <;>
    rcases Nat.lt_or_ge d.toNat 0x10000 with hshort' | hlong'
  · rw [unitsOfChar_of_lt hshort, unitsOfChar_of_lt hshort'] at h
    exact List.cons.inj h
  -- A single unit is no half of a pair.
  · rw [unitsOfChar_of_lt hshort, unitsOfChar_of_le hlong'] at h
    have hunit := (List.cons.inj h).1
    omega
  · rw [unitsOfChar_of_le hlong, unitsOfChar_of_lt hshort'] at h
    have hunit := (List.cons.inj h).1
    omega
  · rw [unitsOfChar_of_le hlong, unitsOfChar_of_le hlong'] at h
    obtain ⟨hhigh, hrest⟩ := List.cons.inj h
    obtain ⟨hlow, hrest⟩ := List.cons.inj hrest
    exact ⟨by omega, hrest⟩

theorem flatMap_unitsOfChar_inj {cs ds : List Char}
    (h : cs.flatMap unitsOfChar = ds.flatMap unitsOfChar) : cs = ds := by
  have hne (c : Char) (us : List Nat) : unitsOfChar c ++ us ≠ [] := by
    unfold unitsOfChar
    split <;> simp
  induction cs generalizing ds with
  | nil =>
    cases ds with
    | nil => rfl
    | cons d ds => exact absurd h.symm (hne d _)
  | cons c cs ih =>
    cases ds with
    | nil => exact absurd h (hne c _)
    | cons d ds =>
      obtain ⟨rfl, hrest⟩ := unitsOfChar_append_inj h
      rw [ih hrest]

theorem units_inj {a b : String} : units a = units b ↔ a = b := by
  constructor
  · intro h
    exact String.toList_inj.1 (flatMap_unitsOfChar_inj h)
  · rintro rfl
    rfl

/-! ## Units one by one -/

/-- What is left of a character when its units are taken one by one. -/
def charsOfUnits (c : Char) : List Char :=
  if c.toNat < 0x10000 then [c] else ['\uFFFD', '\uFFFD']

theorem map_charOfUnit_unitsOfChar (c : Char) :
    (unitsOfChar c).map charOfUnit = charsOfUnits c := by
  have hc := toNat_cases c
  unfold charsOfUnits
  split
  · rename_i hshort
    rw [unitsOfChar_of_lt hshort, List.map_singleton, charOfUnit, if_neg (by omega),
      Char.ofNat_toNat]
  · rename_i hlong
    rw [unitsOfChar_of_le (by omega), List.map_cons, List.map_singleton, charOfUnit, charOfUnit,
      if_pos (by omega), if_pos (by omega)]

theorem map_charOfUnit_units (text : String) :
    (units text).map charOfUnit = text.toList.flatMap charsOfUnits := by
  rw [units, List.map_flatMap]
  simp only [map_charOfUnit_unitsOfChar]

/-- Only characters that take one unit come back. -/
theorem flatMap_charsOfUnits_eq_self_iff {cs : List Char} :
    cs.flatMap charsOfUnits = cs ↔ ∀ c ∈ cs, c.toNat < 0x10000 := by
  constructor
  · intro h c hc
    rw [← h, List.mem_flatMap] at hc
    obtain ⟨d, -, hd⟩ := hc
    unfold charsOfUnits at hd
    split at hd
    · rename_i hshort
      rwa [List.mem_singleton.1 hd]
    · obtain rfl : c = '\uFFFD' := by simpa using hd
      decide
  · intro h
    induction cs with
    | nil => rfl
    | cons c cs ih =>
      rw [List.forall_mem_cons] at h
      rw [List.flatMap_cons, charsOfUnits, if_pos h.1, ih h.2]
      rfl

end DataExpr.Text
