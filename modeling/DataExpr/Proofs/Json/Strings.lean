import DataExpr.Json.Reader
import DataExpr.Json.Writer
import Mathlib.Data.List.Basic

/-!
# JSON strings

What is written as a JSON string is read back (`readText?_writeText`).  Every character
is escaped on its own, so that one step of the reader undoes one escape
(`readChars?_escapeChar`).
-/

namespace DataExpr.Json

theorem readEscape?_control {c : Char} (h : c.toNat < 0x20) (cs : List Char) :
    readEscape? ('u' :: '0' :: '0' :: Nat.digitChar (c.toNat / 16) ::
      Nat.digitChar (c.toNat % 16) :: cs) = some (c, cs) := by
  have hradix : ∀ n < 0x20, Decimal.readRadix? 16
      ['0', '0', Nat.digitChar (n / 16), Nat.digitChar (n % 16)] = some n := by
    decide
  have hunit : readUnit? ('0' :: '0' :: Nat.digitChar (c.toNat / 16) ::
      Nat.digitChar (c.toNat % 16) :: cs) = some (c.toNat, cs) := by
    rw [readUnit?, hradix _ h]
    rfl
  rw [readEscape?, readCodeEscape?, hunit]
  dsimp only
  rw [if_neg (by omega), if_neg (by omega), Char.ofNat_toNat]

/-- One step reads the escape of one character. -/
theorem readChars?_escapeChar (fuel : Nat) (c : Char) (cs : List Char) :
    readChars? (fuel + 1) (escapeChar c ++ cs) =
      (readChars? fuel cs).map fun (text, rest) => (c :: text, rest) := by
  fun_cases escapeChar c with
  | case8 c _ _ _ _ _ _ _ hcontrol =>
    simp only [List.cons_append, List.nil_append]
    rw [readChars?, readEscape?_control hcontrol]
  | case9 c _ _ _ _ _ _ _ hplain => simp [readChars?, hplain]
  | _ => rfl

theorem readChars?_flatMap_escapeChar (cs rest : List Char) {fuel : Nat} (h : cs.length < fuel) :
    readChars? fuel (cs.flatMap escapeChar ++ '"' :: rest) = some (cs, rest) := by
  induction cs generalizing fuel with
  | nil =>
    obtain ⟨fuel, rfl⟩ := Nat.exists_eq_add_one.2 h
    rfl
  | cons c cs ih =>
    rw [List.length_cons] at h
    obtain ⟨fuel, rfl⟩ := Nat.exists_eq_add_one.2 (Nat.zero_lt_of_lt h)
    rw [List.flatMap_cons, List.append_assoc, readChars?_escapeChar, ih (by omega)]
    rfl

theorem length_le_length_flatMap_escapeChar (cs : List Char) :
    cs.length ≤ (cs.flatMap escapeChar).length := by
  induction cs with
  | nil => exact Nat.le_refl 0
  | cons c cs ih =>
    have hpos : 0 < (escapeChar c).length := by
      fun_cases escapeChar c <;> exact Nat.succ_pos _
    rw [List.flatMap_cons, List.length_append, List.length_cons]
    omega

/-- Every text comes back from its JSON string. -/
theorem readText?_writeText (text : String) (rest : List Char) :
    ∃ cs, (writeText text).toList ++ rest = '"' :: cs ∧ readText? cs = some (text, rest) := by
  have hlength := length_le_length_flatMap_escapeChar text.toList
  refine ⟨text.toList.flatMap escapeChar ++ '"' :: rest, by simp [writeText], ?_⟩
  rw [readText?, readChars?_flatMap_escapeChar _ _ (by rw [List.length_append]; omega)]
  simp

end DataExpr.Json
