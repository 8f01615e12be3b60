import DataExpr.Proofs.Syntax.Compile
import DataExpr.Proofs.Syntax.Remainder
import DataExpr.Proofs.Syntax.Tiling
import DataExpr.Proofs.Text.Split

/-!
# The places of faults

An error about a text points at the start of one of its tokens, the end of the text being one
of them, and quotes the line there (`parse_error_stands`).

Two things meet here.  A parser leaves tokens that it was given, wherever it fails, so the
place of a failure is that of a token.  And a token stands where its span says: the line, the
column and the offset that the lexer counts apart from each other are those of one place
between two characters, and the line that is cut out around the offset is the one on which
that place lies.
-/

namespace DataExpr

open Parse

/-- A text that is no expression has a failure at one of its tokens. -/
theorem exists_failure_of_parse {source : String} {error : Error}
    (h : Expr.parse source = .error error) :
    ∃ fault depth before token after,
      (State.ofSource source).next.1 = .error ⟨fault, depth, token :: after⟩ ∧
      tokenize source = before ++ token :: after ∧
      error = errorAt source token.span fault.message := by
  rw [parse_eq] at h
  cases hnext : (State.ofSource source).next.1 with
  | ok tree => simp [hnext] at h
  | error failure =>
    obtain ⟨hne, before, hsuffix⟩ := State.remains_of_next_eq_error hnext
    obtain ⟨fault, depth, rest⟩ := failure
    cases rest with
    | nil => exact absurd rfl hne
    | cons token after =>
      rw [hnext] at h
      exact ⟨fault, depth, before, token, after, rfl, hsuffix.symm, (Except.error.inj h).symm⟩

/-- The line that a span quotes is the one on which it starts. -/
theorem Token.StandsIn.isLineAt {token : Token} {source : String}
    {before piece behind : List Char} (h : token.StandsIn source before piece behind) :
    Text.IsLineAt source.toList before (token.span.sourceLine source).toList := by
  rw [Span.sourceLine, h.start, h.chars, List.append_assoc, String.toList_ofList]
  exact Text.isLineAt_lineAt before (piece ++ behind)

/-- What stands before a place on its line is a part of the line. -/
theorem Text.IsLineAt.length_takeWhile_le {text before line : List Char}
    (h : Text.IsLineAt text before line) :
    (before.reverse.takeWhile (· ≠ '\n')).length ≤ line.length := by
  obtain ⟨above, front, back, below, -, rfl, rfl, hline, habove, -⟩ := h
  have hfront : ∀ c ∈ front.reverse, decide (c ≠ '\n') = true := by
    intro c hc
    have hne : c ≠ '\n' := by
      rintro rfl
      exact hline (List.mem_append_left _ (List.mem_reverse.1 hc))
    exact decide_eq_true hne
  have habove : ∀ c ∈ above.reverse.head?, decide (c ≠ '\n') = false := by
    rw [List.head?_reverse]
    rcases habove with rfl | hlast
    · simp
    · simp [hlast]
  rw [List.reverse_append, takeWhile_run hfront habove, List.length_reverse, List.length_append]
  exact Nat.le_add_right _ _

/-! ## Tokens start at different places -/

/-- The first span starts on a line above the second, or on its line and further left. -/
def Span.StartsBefore (first second : Span) : Prop :=
  first.line < second.line ∨ first.line = second.line ∧ first.column < second.column

theorem Span.startsBefore_between_behind (before : List Char) {more : List Char} (h : more ≠ [])
    (last last' : Position) :
    (Span.between (.behind before) last).StartsBefore
      (.between (.behind (before ++ more)) last') := by
  have hmore := List.length_pos_iff.2 h
  simp only [Span.StartsBefore, Span.between, Position.line_behind, Position.column_behind,
    List.count_append]
  by_cases hline : '\n' ∈ more
  · have hcount := List.count_pos_iff.2 hline
    exact .inl (by omega)
  · have hreverse : ∀ c ∈ more.reverse, decide (c ≠ '\n') = true :=
      Text.decide_ne_of_not_mem (by rwa [List.mem_reverse])
    rw [List.count_eq_zero_of_not_mem hline, List.reverse_append,
      List.takeWhile_append_of_pos hreverse, List.length_append, List.length_reverse]
    exact .inr (by omega)

theorem Tiles.pairwise_startsBefore {before cs : List Char} {tokens : List Token}
    (h : Tiles before cs tokens) :
    tokens.Pairwise fun earlier later => earlier.span.StartsBefore later.span := by
  induction h with
  | done => exact List.pairwise_singleton _ _
  | blank _ _ ih => exact ih
  | @token before piece cs kind tokens hpiece _ _ rest ih =>
    rw [List.pairwise_cons]
    refine ⟨fun later hlater => ?_, ih⟩
    obtain ⟨front, after, htokens⟩ := List.append_of_mem hlater
    obtain ⟨read, _, _, -, hcovers, -⟩ := rest.exists_piece htokens
    rw [hcovers.span, List.append_assoc]
    exact Span.startsBefore_between_behind before (by simp [hpiece]) _ _

/-- No other token of a text starts where one does. -/
theorem startsElsewhere {source : String} {front after : List Token} {token : Token}
    (htokens : tokenize source = front ++ token :: after) :
    ∀ other ∈ front ++ after, ¬(other.span.line = token.span.line ∧
      other.span.column = token.span.column) := by
  have hpairwise := (tiles_tokenize source).pairwise_startsBefore
  rw [htokens, List.pairwise_append, List.pairwise_cons] at hpairwise
  obtain ⟨-, ⟨hafter, -⟩, hfront⟩ := hpairwise
  rintro other hother ⟨hline, hcolumn⟩
  rcases List.mem_append.1 hother with hother | hother
  · rcases hfront other hother token List.mem_cons_self with hbefore | ⟨-, hbefore⟩ <;> omega
  · rcases hafter other hother with hbefore | ⟨-, hbefore⟩ <;> omega

/-- An error of a text blames the text and stands at one of its tokens: it counts the line
and the column of the token's start, and quotes the whole line there, so the column is at most
one behind the end of the line. -/
theorem parse_error_stands {source : String} {error : Error}
    (h : Expr.parse source = .error error) :
    ∃ token ∈ tokenize source, ∃ before piece behind, token.StandsIn source before piece behind ∧
      ∃ message line,
        error = ⟨.malformed message token.span.line token.span.column line, none⟩ ∧
        Text.IsLineAt source.toList before line.toList ∧
        token.span.column ≤ line.length + 1 ∧
        token.span.line ≤ source.length + 1 ∧ token.span.column ≤ source.length + 1 := by
  obtain ⟨fault, depth, front, token, after, -, htokens, rfl⟩ := exists_failure_of_parse h
  have hmem : token ∈ tokenize source := by
    rw [htokens]
    exact List.mem_append_right _ List.mem_cons_self
  obtain ⟨before, piece, behind, hstands, -⟩ := exists_standsIn htokens
  have hline := hstands.isLineAt
  have hcolumn : token.span.column ≤ (token.span.sourceLine source).length + 1 := by
    have hle := hline.length_takeWhile_le
    rw [String.length_toList] at hle
    rw [hstands.column]
    omega
  exact ⟨token, hmem, before, piece, behind, hstands, fault.message,
    token.span.sourceLine source, rfl, hline, hcolumn, hstands.line_le_and_column_le⟩

/-- The error of a text is found by running the parser. -/
theorem parse_eq_error_of_decide {source : String} {error : Error}
    (h : (match Expr.parse source with
      | .error found => decide (found = error)
      | .ok _ => false) = true) : Expr.parse source = .error error := by
  cases hparse : Expr.parse source with
  | ok tree => simp [hparse] at h
  | error found =>
    rw [hparse] at h
    rw [of_decide_eq_true h]

theorem parse_groupClosedTwice :
    Expr.parse "('é'\n  ))" = .error ⟨.malformed "unexpected ')'" 2 4 "  ))", none⟩ :=
  parse_eq_error_of_decide (by decide +kernel)

/-- On the second line the second sign is one too many. -/
theorem parse_error_stands_groupClosedTwice :
    Expr.parse "('é'\n  ))" = .error ⟨.malformed "unexpected ')'" 2 4 "  ))", none⟩ ∧
      ∃ token ∈ tokenize "('é'\n  ))", ∃ before piece behind,
        token.StandsIn "('é'\n  ))" before piece behind ∧
          token.span.line = 2 ∧ token.span.column = 4 ∧
          Text.IsLineAt "('é'\n  ))".toList before "  ))".toList := by
  obtain ⟨token, htoken, before, piece, behind, hstands, message, line, herror, hline, -⟩ :=
    parse_error_stands parse_groupClosedTwice
  simp only [Error.mk.injEq, Cause.malformed.injEq, and_true] at herror
  obtain ⟨-, hnumber, hcolumn, rfl⟩ := herror
  exact ⟨parse_groupClosedTwice, token, htoken, before, piece, behind, hstands, hnumber.symm,
    hcolumn.symm, hline⟩

end DataExpr
