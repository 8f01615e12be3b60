import DataExpr.Proofs.Syntax.Lookahead
import DataExpr.Proofs.Syntax.Places
import DataExpr.Proofs.Syntax.Viable

/-!
# Errors blame the first token that fits nowhere

If a text is no expression, and not because it is nested too deeply, then what stands before
the token at the error's place can be completed to an expression, and no text that is alike up
to and including that token is one (`parse_error_blames`).

The first half is about tokens in the modules on fronts of phrases.  It becomes one about
texts because what stands before a token is read the same with a blank behind it.  The
second half holds because the parser looks at no token behind the one at fault.
-/

namespace DataExpr

open Parse

mutual

/-- No token of a phrase is a fault. -/
theorem Phrase.error_not_mem_tokens {category : Category} {tree : Expr}
    (phrase : Phrase category tree) (fault : LexicalFault) : .error fault ∉ phrase.tokens := by
  match phrase with
  | .operand only => simpa [Phrase.tokens] using only.error_not_mem_tokens fault
  | .join first sign _ last =>
    simp [Phrase.tokens, first.error_not_mem_tokens fault, last.error_not_mem_tokens fault]
  | .apply sign _ body => simp [Phrase.tokens, body.error_not_mem_tokens fault]
  | .unsigned body => simpa [Phrase.tokens] using body.error_not_mem_tokens fault
  | .start body => simpa [Phrase.tokens] using body.error_not_mem_tokens fault
  | .member object kind hkind =>
    have hname : .error fault ≠ kind := by
      rintro rfl
      cases hkind
    simp [Phrase.tokens, object.error_not_mem_tokens fault, hname]
  | .index object key =>
    simp [Phrase.tokens, object.error_not_mem_tokens fault, key.error_not_mem_tokens fault]
  | .call callee arguments =>
    simp [Phrase.tokens, callee.error_not_mem_tokens fault, arguments.error_not_mem_tokens fault]
  | .atom kind hkind =>
    have hatom : .error fault ≠ kind := by
      rintro rfl
      cases hkind
    simp [Phrase.tokens, hatom]
  | .group inner => simp [Phrase.tokens, inner.error_not_mem_tokens fault]

/-- No token of arguments is a fault. -/
theorem Arguments.error_not_mem_tokens {trees : List Expr} (list : Arguments trees)
    (fault : LexicalFault) : .error fault ∉ list.tokens := by
  match list with
  | .nothing => simp [Arguments.tokens]
  | .last argument => simpa [Arguments.tokens] using argument.error_not_mem_tokens fault
  | .more argument others =>
    simp [Arguments.tokens, argument.error_not_mem_tokens fault, others.error_not_mem_tokens fault]

end

namespace Parse

theorem bare_inj {kinds kinds' : List TokenKind} (h : bare kinds = bare kinds') :
    kinds = kinds' := by
  have hkinds := congrArg (List.map Token.kind) h
  simpa [bare, Function.comp_def] using hkinds

/-- Where a text fails for another reason than nesting, the tokens before are viable. -/
theorem viable_of_next_eq_error {source : String} {fault : SyntaxFault} {depth : Nat}
    {front after : List Token} {token : Token} (hfault : fault ≠ .tooDeep)
    (hfailure : (State.ofSource source).next.1 = .error ⟨fault, depth, token :: after⟩)
    (htokens : tokenize source = front ++ token :: after) :
    Viable .expression (front.map Token.kind) maxNesting := by
  have hended := ended_kinds source
  have hkinds : kinds source = front.map Token.kind ++ (token :: after).map Token.kind := by
    rw [kinds, htokens, List.map_append]
  have hcut {front' after' : List TokenKind} (h : kinds source = front' ++ after')
      (hrest : unplacedTokens (token :: after) = bare after') : front.map Token.kind = front' := by
    rw [← bare_inj hrest, hkinds] at h
    exact List.append_cancel_right h
  rcases State.next_eq_error hfailure with ⟨-, hleft⟩ | hfails | ⟨tree, rest, hread, -, hleft⟩
  · rw [SyntaxFailure.mk.injEq] at hleft
    have hfront : front = [] := by simpa [htokens] using hleft.2.2
    rw [hfront]
    exact viable_expression_nil 255
  · have hbare := expr_kinds source
    rw [hfails] at hbare
    obtain ⟨front', after', hsplit, hrest, hviable⟩ :=
      (stopped maxNesting 0).expr (kinds source) hended _ hbare hfault
    rwa [hcut hsplit hrest]
  · rw [SyntaxFailure.mk.injEq] at hleft
    obtain ⟨-, -, rfl⟩ := hleft
    have hbare := expr_kinds source
    rw [hread] at hbare
    obtain ⟨phrase, after', hsplit, hrest, -, hnesting⟩ :=
      (sound maxNesting 0).expr (kinds source) hended _ _ hbare
    rw [hcut hsplit hrest]
    exact viable_of_phrase phrase hnesting

end Parse

/-- If a text is no expression, then its error stands at one of its tokens and at no other.
If it is not nested too deeply, then what stands before the token can be completed to an
expression; and no text whose tokens are of the same sorts up to and including that one is an
expression, whatever comes behind. -/
theorem parse_error_blames {source : String} {error : Error}
    (h : Expr.parse source = .error error) :
    ∃ front token after, tokenize source = front ++ token :: after ∧
      (∀ other ∈ front ++ after, ¬(other.span.line = token.span.line ∧
        other.span.column = token.span.column)) ∧
      ∃ before piece behind, token.StandsIn source before piece behind ∧
      ∃ message line,
        error = ⟨.malformed message token.span.line token.span.column line, none⟩ ∧
        (message ≠ "expression nested too deeply" →
          ∃ more tree, Expr.parse (String.ofList before ++ more) = .ok tree) ∧
        ∀ other, (front ++ [token]).map (·.kind.outline) <+:
          (tokenize other).map (·.kind.outline) → ∀ tree, Expr.parse other ≠ .ok tree := by
  obtain ⟨fault, depth, front, token, after, hfailure, htokens, rfl⟩ := exists_failure_of_parse h
  obtain ⟨before, piece, behind, hstands, -, hread⟩ := exists_standsIn htokens
  refine ⟨front, token, after, htokens, startsElsewhere htokens, before, piece, behind, hstands,
    fault.message, token.span.sourceLine source, rfl, fun hmessage => ?_,
    fun other houtline => parse_ne_ok_of_outline hfailure htokens houtline⟩
  have hfault : fault ≠ .tooDeep := by
    rintro rfl
    exact hmessage rfl
  obtain ⟨tree, phrase, closing, hphrase, hplain, hnesting⟩ :=
    viable_of_next_eq_error hfault hfailure htokens
  have hfaults : ∀ earlier ∈ front, ∀ fault, earlier.kind ≠ .error fault := by
    intro earlier hearlier fault hkind
    apply phrase.error_not_mem_tokens fault
    rw [hphrase, ← hkind]
    exact List.mem_append_left _ (List.mem_map_of_mem hearlier)
  have hkinds : phrase.tokens ++ [.endOfInput] =
      kinds (String.ofList before ++ String.ofList (' ' :: spelledChars closing)) := by
    have hblank := kindsFrom_blank (c := ' ') (by decide) (spelledChars closing)
    have htext := hread hfaults (' ' :: spelledChars closing) (startsLike_blank (by decide) _ _)
    rw [hblank, kindsFrom_spelledChars hplain] at htext
    rw [kinds, tokenize, String.toList_append, String.toList_ofList, String.toList_ofList,
      hphrase, List.append_assoc]
    exact htext.symm
  obtain ⟨placed, hparse, -⟩ := parse_of_phrase phrase hkinds hnesting
  exact ⟨_, placed, hparse⟩

theorem parse_missingOperand :
    Expr.parse "a + * b" = .error ⟨.malformed "unexpected '*'" 1 5 "a + * b", none⟩ :=
  parse_eq_error_of_decide (by decide +kernel)

/-- The sum could go on behind the plus, but not with a star. -/
theorem parse_error_blames_missingOperand :
    Expr.parse "a + * b" = .error ⟨.malformed "unexpected '*'" 1 5 "a + * b", none⟩ ∧
      ∃ front token after, tokenize "a + * b" = front ++ token :: after ∧
        token.span.line = 1 ∧ token.span.column = 5 ∧
        ∃ before piece behind, token.StandsIn "a + * b" before piece behind ∧
          (∃ more tree, Expr.parse (String.ofList before ++ more) = .ok tree) ∧
          ∀ other, (front ++ [token]).map (·.kind.outline) <+:
            (tokenize other).map (·.kind.outline) → ∀ tree, Expr.parse other ≠ .ok tree := by
  obtain ⟨front, token, after, htokens, -, before, piece, behind, hstands, message, line, herror,
    hcompletes, hrefused⟩ := parse_error_blames parse_missingOperand
  simp only [Error.mk.injEq, Cause.malformed.injEq, and_true] at herror
  obtain ⟨rfl, hline, hcolumn, -⟩ := herror
  exact ⟨parse_missingOperand, front, token, after, htokens, hline.symm, hcolumn.symm, before,
    piece, behind, hstands, hcompletes (by decide), hrefused⟩

end DataExpr
