import DataExpr.Proofs.Evaluation.Failure
import DataExpr.Proofs.Evaluation.Placeless
import DataExpr.Proofs.Syntax.Compile
import DataExpr.Proofs.Syntax.Quoting
import DataExpr.Proofs.Syntax.Words

/-!
# Keys in quotes

Every key of a mapping can be reached, whatever its characters: `this` with the key in quotes
and brackets behind it evaluates to what is under the key, or to nothing
(`evaluate_thisAt`).  No name is looked up for that, so neither the helpers nor the names that
are bound matter, and nothing fails that the fallback could stand in for.
-/

namespace DataExpr

/-- The expression `this[key]`, with the key in quotes. -/
def thisAt (quote : Char) (key : String) : String :=
  "this[" ++ inQuotes quote key ++ "]"

/-- Its tree. -/
def thisAtTree (key : String) : Expr :=
  .index (.this {}) (.literal (.text key) {}) {}

theorem isNameShaped_this : IsNameShaped "this" :=
  ⟨'t', ['h', 'i', 's'], rfl, by decide +kernel, List.all_eq_true.1 (by decide +kernel)⟩

theorem kinds_thisAt {quote : Char} (hquote : quote = '"' ∨ quote = '\'') (key : String) :
    kinds (thisAt quote key) =
      [.keyword .this, .sign .leftBracket, .string key, .sign .rightBracket, .endOfInput] := by
  have hchars : (thisAt quote key).toList =
      "this".toList ++ '[' :: ((inQuotes quote key).toList ++ [']']) := by
    simp [thisAt]
  have hbracket : ∀ d ∈ ('[' :: ((inQuotes quote key).toList ++ [']'])).head?,
      isNamePart d = false := by
    rintro _ ⟨⟩
    decide +kernel
  rw [kinds, tokenize, hchars]
  show kindsFrom _ = _
  rw [kindsFrom_word isNameShaped_this hbracket, kindsFrom_sign (by decide) rfl,
    kindsFrom_inQuotes hquote, kindsFrom_sign (by decide) rfl]
  rfl

theorem exists_parse_thisAt {quote : Char} (hquote : quote = '"' ∨ quote = '\'')
    (key : String) :
    ∃ placed, Expr.parse (thisAt quote key) = .ok placed ∧
      placed.unplaced = thisAtTree key := by
  obtain ⟨phrase, htokens, -, hnesting⟩ :=
    (Phrase.start (.atom _ .this)).exists_index (.string key)
  apply parse_of_phrase phrase.withoutOperators
  · rw [Phrase.tokens_withoutOperators, htokens, kinds_thisAt hquote]
    rfl
  · rw [Phrase.nesting_withoutOperators]
    exact Nat.lt_of_le_of_lt hnesting (by decide)

namespace Evaluator

variable (ev : Evaluator) (entries : Entries Value)

/-- The context and the key need one level, the look-up another. -/
theorem result_evaluateTree_thisAtTree (hdepth : 1 ≤ ev.config.maxDepth) (key : String) :
    (ev.evaluateTree (thisAtTree key) (.mapping entries)).result =
      .ok (Entries.get? entries key) := by
  obtain ⟨depth, hdepth⟩ := Nat.exists_eq_add_of_le' hdepth
  rw [evaluateTree, hdepth, thisAtTree, eval]
  rfl

end Evaluator

/-- Every key can be reached in quotes.  Any text in quotes of either kind is one token; and
against any mapping `this[key]`, with the key in quotes, evaluates to what is under the key,
or to nothing where the mapping does not have it. -/
theorem evaluate_thisAt {quote : Char} (hquote : quote = '"' ∨ quote = '\'') (key : String) :
    kinds (inQuotes quote key) = [.string key, .endOfInput] ∧
      ∀ (ev : Evaluator) (entries : Entries Value) (fallback? : Option Value),
        1 ≤ ev.config.maxDepth →
          (ev.evaluate (thisAt quote key) (.mapping entries) fallback?).result =
            .ok (Entries.get? entries key) := by
  refine ⟨kinds_inQuotes hquote key, fun ev entries fallback? hdepth => ?_⟩
  obtain ⟨placed, hparse, hplaced⟩ := exists_parse_thisAt hquote key
  have htree : (ev.evaluateTree placed (.mapping entries)).result =
      .ok (Entries.get? entries key) := by
    rw [← ev.result_evaluateTree_thisAtTree entries hdepth key, ← hplaced,
      Evaluator.evaluateTree, Evaluator.evaluateTree, ev.eval_unplaced]
  rw [Evaluator.result_evaluate, Evaluator.prepare_mapping hparse, Except.map, htree]

/-- A key of both kinds of quotes, a line end and a zero character, with a backslash last. -/
def awkwardKey : String :=
  "'\"\n\x00\\"

/-- An evaluator that sees `this` only, with the lowest limit that is enough. -/
def shallowThisOnly : Evaluator :=
  { helpers := .empty, config := { EvaluatorConfig.thisOnly with maxDepth := 1 } }

/-- The fallback does not come in, whether the key is there or not. -/
theorem evaluate_thisAt_awkwardKey :
    (('\'' = '"' ∨ '\'' = '\'') ∧ 1 ≤ shallowThisOnly.config.maxDepth) ∧
      thisAt '\'' awkwardKey = "this['\\'\"\\n\x00\\\\']" ∧
      kinds (inQuotes '\'' awkwardKey) = [.string awkwardKey, .endOfInput] ∧
      (shallowThisOnly.evaluate (thisAt '\'' awkwardKey)
        (.mapping [("key", .null), (awkwardKey, .bool true)]) (some .null)).result =
          .ok (some (.bool true)) ∧
      (shallowThisOnly.evaluate (thisAt '\'' awkwardKey) (.mapping [("key", .null)])
        (some .null)).result = .ok none := by
  obtain ⟨hkinds, hevaluate⟩ := evaluate_thisAt (.inr rfl) awkwardKey
  have hdepth : 1 ≤ shallowThisOnly.config.maxDepth := by decide
  exact ⟨⟨.inr rfl, hdepth⟩, by decide, hkinds, hevaluate shallowThisOnly _ _ hdepth,
    hevaluate shallowThisOnly _ _ hdepth⟩

end DataExpr
