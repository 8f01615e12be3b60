import DataExpr.Proofs.Syntax.Scanners
import DataExpr.Proofs.Syntax.Tokens
import Mathlib.Data.List.Basic

/-!
# Texts in quotes

Every text can be written as a string, in quotes of either kind: a backslash goes in front of
each backslash and of each quote of that kind, and line ends are written `\n`
(`inQuotes`).  All other characters stand for themselves, control characters and the
other quote included.  The string is read back as the text, whatever follows it
(`kindsFrom_inQuotes`).
-/

namespace DataExpr

/-- How a character of a text is written between quotes. -/
def quotedChar (quote c : Char) : List Char :=
  if c = '\\' ∨ c = quote then ['\\', c]
  else if c = '\n' then ['\\', 'n']
  else [c]

/-- The text in quotes. -/
def inQuotes (quote : Char) (text : String) : String :=
  String.ofList (quote :: (text.toList.flatMap (quotedChar quote) ++ [quote]))

/-- A text without backslashes, line ends and quotes of that kind is put in quotes as it
is. -/
theorem flatMap_quotedChar_of_plain {quote : Char} {text : List Char} (hquote : quote ∉ text)
    (hbackslash : '\\' ∉ text) (hline : '\n' ∉ text) :
    text.flatMap (quotedChar quote) = text := by
  have hplain : ∀ c ∈ text, quotedChar quote c = [c] := by
    intro c hc
    have hescaped : ¬(c = '\\' ∨ c = quote) := by
      rintro (rfl | rfl)
      · exact hbackslash hc
      · exact hquote hc
    have hend : c ≠ '\n' := by
      rintro rfl
      exact hline hc
    rw [quotedChar, if_neg hescaped, if_neg hend]
  rw [List.flatMap_congr hplain, List.flatMap_singleton']

section

variable {quote : Char} (hquote : quote = '"' ∨ quote = '\'')

include hquote

/-- A character is read back from the way it is written. -/
theorem scanBody_quotedChar (c : Char) (cs : List Char) :
    scanBody quote (quotedChar quote c ++ cs) =
      consString c (quotedChar quote c).length (scanBody quote cs) := by
  have hbackslash : '\\' ≠ quote := by
    rcases hquote with rfl | rfl <;> decide
  by_cases hescaped : c = '\\' ∨ c = quote
  · have hself : c ≠ 'u' ∧ escapedChar c = c := by
      rcases hescaped with rfl | rfl
      · decide
      · rcases hquote with rfl | rfl <;> decide
    rw [quotedChar, if_pos hescaped, List.cons_append, List.singleton_append,
      scanBody_escaped hbackslash hself.1, hself.2]
    rfl
  by_cases hline : c = '\n'
  · subst hline
    rw [quotedChar, if_neg hescaped, if_pos rfl, List.cons_append, List.singleton_append,
      scanBody_escaped hbackslash (by decide)]
    rfl
  · rw [not_or] at hescaped
    rw [quotedChar, if_neg (not_or.2 hescaped), if_neg hline, List.singleton_append,
      scanBody_plain hescaped.2 hescaped.1 hline]
    rfl

/-- What stands between the quotes is read back up to the closing quote. -/
theorem scanBody_quoted (text rest : List Char) :
    scanBody quote (text.flatMap (quotedChar quote) ++ quote :: rest) =
      (.ok text, (text.flatMap (quotedChar quote)).length + 1) := by
  induction text with
  | nil =>
    rw [List.flatMap_nil, List.nil_append, scanBody.eq_def]
    exact if_pos rfl
  | cons c text ih =>
    rw [List.flatMap_cons, List.append_assoc, scanBody_quotedChar hquote, ih,
      List.length_append]
    simp only [consString, Except.map, Prod.mk.injEq, true_and]
    omega

theorem scanToken_quote (cs : List Char) : scanToken quote cs = scanString quote cs := by
  rcases hquote with rfl | rfl <;> rfl

/-- A text in quotes is one token, whatever stands behind it. -/
theorem kindsFrom_inQuotes (text : String) (rest : List Char) :
    kindsFrom ((inQuotes quote text).toList ++ rest) = .string text :: kindsFrom rest := by
  have hblank : Text.isBlank quote = false := by
    rcases hquote with rfl | rfl <;> decide
  have hscan : scanToken quote (text.toList.flatMap (quotedChar quote) ++ [quote] ++ rest) =
      (.string text, (text.toList.flatMap (quotedChar quote) ++ [quote]).length) := by
    rw [scanToken_quote hquote, scanString, List.append_assoc, List.singleton_append,
      scanBody_quoted hquote]
    dsimp only
    rw [String.ofList_toList, List.length_append, List.length_singleton]
  rw [inQuotes, String.toList_ofList, List.cons_append, kindsFrom_token hblank hscan]

/-- A text in quotes is one token by itself. -/
theorem kinds_inQuotes (text : String) :
    kinds (inQuotes quote text) = [.string text, .endOfInput] := by
  have h := kindsFrom_inQuotes hquote text []
  rwa [List.append_nil] at h

end

end DataExpr
