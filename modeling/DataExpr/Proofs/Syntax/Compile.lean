import DataExpr.Proofs.Syntax.Completeness
import DataExpr.Proofs.Syntax.Soundness
import DataExpr.Proofs.Syntax.Tokens

/-!
# Parsing decides the grammar

A text is an expression exactly if the kinds of its tokens are a phrase, and then its
tree is the phrase's (`parse_iff_phrase`).  The only phrases that are not accepted
are those with too many levels of nesting, and about them the parser says just that.

Both directions come from the modules on soundness and completeness, which speak of
tokens without spans; here they meet the tokens of a text.
-/

namespace DataExpr

open Parse

theorem unplacedTokens_tokenize (source : String) :
    unplacedTokens (tokenize source) = bare (kinds source) :=
  rfl

theorem ended_kinds (source : String) : Ended (kinds source) := by
  obtain ⟨front, hkinds, -⟩ := kinds_eq_append source
  simp [Ended, hkinds]

/-- The end of a text is left only behind all other tokens. -/
theorem eq_append_of_kinds_eq {source : String} {before after : List TokenKind}
    (h : kinds source = before ++ after) (hended : Ended after)
    (hcurrent : current (bare after) = .endOfInput) :
    before ++ [.endOfInput] = kinds source := by
  obtain ⟨front, hkinds, hfront⟩ := kinds_eq_append source
  cases after with
  | nil => simp [Ended] at hended
  | cons kind after =>
    obtain rfl : kind = .endOfInput := hcurrent
    rw [hkinds] at h ⊢
    rcases List.append_eq_append_iff.1 h with ⟨middle, rfl, hmiddle⟩ | ⟨middle, rfl, hmiddle⟩
    · cases middle with
      | nil => simp
      | cons kind middle => simp at hmiddle
    · cases middle with
      | nil => simp
      | cons kind middle =>
        obtain ⟨rfl, -⟩ : kind = .endOfInput ∧ middle ++ [.endOfInput] = after := by
          simpa [eq_comm] using hmiddle
        simp at hfront

/-- Without spans, a text is read as the kinds of its tokens. -/
theorem expr_kinds (source : String) :
    expr 0 (deeperAt maxNesting 0) (bare (kinds source)) =
      unplacedOutcome Expr.unplaced ((parsersAt maxNesting 0).expr (tokenize source)) := by
  rw [← parsersAt_expr, ← unplacedTokens_tokenize]
  exact (parsersAt_placeless maxNesting 0).expr (tokenize source)

/-- A failure of the parser is told as an error of the text. -/
theorem parse_eq (source : String) :
    Expr.parse source =
      match (State.ofSource source).next.1 with
      | .ok tree => .ok tree
      | .error failure => .error (toError failure source) := by
  rw [Expr.parse]
  cases (State.ofSource source).next.1 <;> rfl

/-- A text is accepted if the parser of expressions passes all of its tokens. -/
theorem parse_eq_ok_iff (source : String) (tree : Expr) :
    Expr.parse source = .ok tree ↔
      current (tokenize source) ≠ .endOfInput ∧
        ∃ rest, (parsersAt maxNesting 0).expr (tokenize source) = .ok (tree, rest) ∧
          current rest = .endOfInput := by
  simp only [parse_eq, State.ofSource, State.next, Nat.sub_zero]
  by_cases hcurrent : current (tokenize source) = .endOfInput
  · simp [hcurrent]
  rcases (parsersAt maxNesting 0).expr (tokenize source) with failure | ⟨result, rest⟩
  · simp [hcurrent]
  by_cases hrest : current rest = .endOfInput
  · simp only [hcurrent, hrest, if_false, if_true, Except.ok.injEq, Prod.mk.injEq, ne_eq,
      not_false_eq_true, true_and]
    constructor
    · intro h
      exact ⟨rest, ⟨h, rfl⟩, hrest⟩
    · rintro ⟨_, ⟨h, -⟩, -⟩
      exact h
  · simp only [hcurrent, hrest, if_false, Except.ok.injEq, Prod.mk.injEq, ne_eq,
      not_false_eq_true, true_and, reduceCtorEq, false_iff]
    rintro ⟨_, ⟨-, rfl⟩, h⟩
    exact hrest h

/-- A text that is too deep for the parser of expressions is not accepted. -/
theorem parse_eq_error {source : String} {failure : SyntaxFailure}
    (hcurrent : current (tokenize source) ≠ .endOfInput)
    (h : (parsersAt maxNesting 0).expr (tokenize source) = .error failure) :
    Expr.parse source = .error (toError failure source) := by
  simp [parse_eq, State.ofSource, State.next, hcurrent, h]

/-- An accepted text is a phrase of its tree. -/
theorem exists_phrase_of_parse {source : String} {tree : Expr} (h : Expr.parse source = .ok tree) :
    ∃ phrase : Phrase .expression tree.unplaced,
      phrase.tokens ++ [.endOfInput] = kinds source ∧ phrase.nesting < maxNesting := by
  obtain ⟨-, rest, hread, hrest⟩ := (parse_eq_ok_iff source tree).1 h
  have hbare : expr 0 (deeperAt maxNesting 0) (bare (kinds source)) =
      .ok (tree.unplaced, unplacedTokens rest) := by
    rw [expr_kinds, hread]
    rfl
  obtain ⟨phrase, after, hkinds, hafter, hended, hnesting⟩ :=
    (sound maxNesting 0).expr (kinds source) (ended_kinds source) _ _ hbare
  have hcurrent : current (bare after) = .endOfInput := by
    rw [← hafter, current_unplacedTokens, hrest]
  exact ⟨phrase, eq_append_of_kinds_eq hkinds hended hcurrent, hnesting⟩

/-- A text that is a phrase does not start with its end. -/
theorem current_tokenize_ne {source : String} {tree : Expr} (phrase : Phrase .expression tree)
    (h : phrase.tokens ++ [.endOfInput] = kinds source) :
    current (tokenize source) ≠ .endOfInput := by
  obtain ⟨kind, rest, hfirst, hstart⟩ := phrase.exists_first
  rw [← current_unplacedTokens, unplacedTokens_tokenize, ← h, hfirst]
  show kind ≠ .endOfInput
  rintro rfl
  simp [Category.mayStart] at hstart

/-- A phrase with few enough levels is accepted. -/
theorem parse_of_phrase {source : String} {tree : Expr} (phrase : Phrase .expression tree)
    (h : phrase.tokens ++ [.endOfInput] = kinds source) (hnesting : phrase.nesting < maxNesting) :
    ∃ placed, Expr.parse source = .ok placed ∧ placed.unplaced = tree := by
  have hbare := (phrase.isRead.expr_eq maxNesting 0 .endOfInput [] rfl).1 (by omega)
  rw [h, expr_kinds] at hbare
  rcases hread : (parsersAt maxNesting 0).expr (tokenize source) with failure | ⟨placed, rest⟩
  · simp [hread, unplacedOutcome] at hbare
  simp only [hread, unplacedOutcome, Except.ok.injEq, Prod.mk.injEq] at hbare
  refine ⟨placed, (parse_eq_ok_iff source placed).2 ⟨current_tokenize_ne phrase h, rest, hread, ?_⟩,
    hbare.1⟩
  rw [← current_unplacedTokens, hbare.2]
  rfl

/-- A phrase with too many levels is refused for that. -/
theorem parse_of_phrase_of_le {source : String} {tree : Expr} (phrase : Phrase .expression tree)
    (h : phrase.tokens ++ [.endOfInput] = kinds source) (hnesting : maxNesting ≤ phrase.nesting) :
    ∃ span, Expr.parse source = .error (errorAt source span "expression nested too deeply") := by
  obtain ⟨failure, hfailure, hfault⟩ :=
    (phrase.isRead.expr_eq maxNesting 0 .endOfInput [] rfl).2 (by omega)
  rw [h, expr_kinds] at hfailure
  rcases hread : (parsersAt maxNesting 0).expr (tokenize source) with failure' | ⟨placed, rest⟩
  · simp only [hread, unplacedOutcome, Except.error.injEq] at hfailure
    have hfault' : failure'.fault = .tooDeep := by
      rw [← hfault, ← hfailure]
    refine ⟨currentSpan failure'.rest, ?_⟩
    rw [parse_eq_error (current_tokenize_ne phrase h) hread, toError, hfault']
    rfl
  · simp [hread, unplacedOutcome] at hfailure

/-- The parser decides the grammar.  What it accepts is a phrase of the tree that it
gives.  A phrase is accepted as its own tree if it opens fewer than `maxNesting`
levels inside the expression as a whole, which is a level itself; any other is
refused as nested too deeply. -/
theorem parse_iff_phrase (source : String) :
    (∀ tree, Expr.parse source = .ok tree →
      ∃ phrase : Phrase .expression tree.unplaced,
        phrase.tokens ++ [.endOfInput] = kinds source ∧ phrase.nesting < maxNesting) ∧
    ∀ tree (phrase : Phrase .expression tree), phrase.tokens ++ [.endOfInput] = kinds source →
      (phrase.nesting < maxNesting →
        ∃ placed, Expr.parse source = .ok placed ∧ placed.unplaced = tree) ∧
      (maxNesting ≤ phrase.nesting →
        ∃ span, Expr.parse source =
          .error (errorAt source span "expression nested too deeply")) := by
  constructor
  · intro tree h
    exact exists_phrase_of_parse h
  · intro tree phrase h
    exact ⟨parse_of_phrase phrase h, parse_of_phrase_of_le phrase h⟩

end DataExpr
