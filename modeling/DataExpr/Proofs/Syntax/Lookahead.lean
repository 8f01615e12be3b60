import DataExpr.Proofs.Syntax.Compile

/-!
# One token of lookahead

What a parser does up to a token depends on the tokens before it and on that one, not on what
stands behind, and of each token only on what sort it is (`parsersAt_look`).  So if a parser
stops at a token, then it stops at the corresponding token of every text that is alike up to
there, and fails there if it failed before.

`Alike` relates the tokens of two runs of which the same number is still to be read before the
token in question, and `Corresponds` what the two runs give.  A result matters to what is read
behind it only by being a name or not, because only a name can be called.  So this is a case of
what holds of two runs of the parser (`alikeUpTo`), which are not compared any more once the first
has got beyond the token.
-/

namespace DataExpr

namespace Parse

/-! ## Two runs -/

section

variable (last last' : List Token)

/-- The tokens are of the same sorts one by one up to the first of `last` and `last'`, which
come last. -/
inductive Alike : List Token → List Token → Prop where
  | here (h : (current last).outline = (current last').outline) : Alike last last'
  | cons {token token' : Token} {tokens tokens' : List Token}
      (h : token.kind.outline = token'.kind.outline) (rest : Alike tokens tokens') :
      Alike (token :: tokens) (token' :: tokens')

/-- Two runs both fail, or both give results, related by `related`, and leave tokens that are
alike. -/
inductive Corresponds {α : Type} (related : α → α → Prop) :
    Except SyntaxFailure (α × List Token) → Except SyntaxFailure (α × List Token) → Prop where
  | ok {result result' : α} {rest rest' : List Token} (hresult : related result result')
      (hrest : Alike last last' rest rest') :
      Corresponds related (.ok (result, rest)) (.ok (result', rest'))
  | error (failure failure' : SyntaxFailure) :
      Corresponds related (.error failure) (.error failure')

/-- On tokens that are alike the parsers do the same, if the first does not read beyond where
they are. -/
def Look {α : Type} (related : α → α → Prop) (parser parser' : Parser α) : Prop :=
  ∀ tokens tokens', Alike last last' tokens tokens' → last <:+ remainder (parser tokens) →
    Corresponds last last' related (parser tokens) (parser' tokens')

end

variable {last last' : List Token}

/-- The place where the runs may stop is in a text, which ends. -/
structure Stop (last last' : List Token) : Prop where
  ended : Ended (last.map Token.kind)
  ended' : Ended (last'.map Token.kind)

namespace Alike

variable {tokens tokens' : List Token}

theorem outline_current (h : Alike last last' tokens tokens') :
    (current tokens).outline = (current tokens').outline := by
  cases h with
  | here h => exact h
  | cons h rest => exact h

theorem ends (h : Alike last last' tokens tokens') (hstop : Stop last last') :
    EndsText tokens ∧ EndsText tokens' := by
  induction h with
  | here => exact ⟨hstop.ended, hstop.ended'⟩
  | cons h rest ih => exact ⟨ih.1.cons _, ih.2.cons _⟩

/-- A token that is not the last can be passed, and keeps tokens alike as long as the runs have
not got beyond where they are. -/
theorem advance (h : Alike last last' tokens tokens') (hstop : Stop last last')
    (hcurrent : current tokens ≠ .endOfInput) (hrest : last <:+ advance tokens) :
    Alike last last' (advance tokens) (advance tokens') := by
  cases h with
  | here h =>
    obtain ⟨token, rest, rfl, -, hadvance⟩ := EndsText.exists_cons hstop.ended hcurrent
    rw [hadvance] at hrest
    have hlength := hrest.length_le
    rw [List.length_cons] at hlength
    omega
  | cons h rest =>
    obtain ⟨hends, hends'⟩ := rest.ends hstop
    obtain ⟨next, behind, rfl⟩ := List.exists_cons_of_ne_nil hends.ne_nil
    obtain ⟨next', behind', rfl⟩ := List.exists_cons_of_ne_nil hends'.ne_nil
    exact rest

end Alike

/-! ## Parsers at one depth -/

/-- All of these parsers do the same on tokens that are alike. -/
structure Parsers.Look (last last' : List Token) (parsers : Parsers) : Prop where
  leave : parsers.Leave
  expr : Parse.Look last last' SameNaming parsers.expr parsers.expr
  unary : Parse.Look last last' SameNaming parsers.unary parsers.unary
  chain : ∀ tighter,
    Parse.Look last last' SameNaming (parsers.chain tighter) (parsers.chain tighter)
  chainRest : ∀ level tighter left left', SameNaming left left' →
    Parse.Look last last' SameNaming (parsers.chainRest level tighter left)
      (parsers.chainRest level tighter left')
  postfixRest : ∀ left left', SameNaming left left' →
    Parse.Look last last' SameNaming (parsers.postfixRest left) (parsers.postfixRest left')

/-- The runs have tokens that are alike, and trees of which both or neither are names, until the
first has got beyond `last`. -/
def alikeUpTo (hstop : Stop last last') : Coupling where
  Depths _ _ := True
  Tokens := Alike last last'
  Trees := SameNaming
  Failures _ _ := True
  last := last
  FewerLevels := False
  depths_succ _ := trivial
  outline_eq h := h.outline_current
  ends h := .inr (h.ends hstop)
  tokens_advance {tokens} _ h hcurrent := by
    by_cases hrest : last <:+ advance tokens
    · exact .inl (h.advance hstop hcurrent hrest)
    · exact .inr hrest
  failures_fail _ _ _ := trivial
  sameNaming h := h
  trees_atom {tokens tokens'} _ _ h hatom hatom' := by
    rcases atom?_of_outline h.outline_current (currentSpan tokens) (currentSpan tokens') with
      ⟨hnone, -⟩ | ⟨_, _, hsome, hsome', hname⟩
    · rw [hnone] at hatom
      cases hatom
    · rw [hsome] at hatom
      rw [hsome'] at hatom'
      rwa [← Option.some.inj hatom, ← Option.some.inj hatom']
  trees_member _ _ _ _ := rfl
  trees_index _ _ _ := rfl
  trees_call _ _ _ := rfl
  trees_unary _ _ _ := rfl
  trees_join _ _ connective := by cases connective <;> rfl

theorem look_of_links {hstop : Stop last last'} {parser parser' : Parser Expr}
    (h : (alikeUpTo hstop).Links SameNaming parser parser') :
    Parse.Look last last' SameNaming parser parser' := by
  intro tokens tokens' halike hrest
  have houtcomes := h tokens tokens' halike
  generalize parser tokens = outcome at hrest houtcomes ⊢
  generalize parser' tokens' = outcome' at houtcomes ⊢
  cases houtcomes with
  | ok hresult hrests => exact .ok hresult hrests
  | error => exact .error _ _
  | beyond hbeyond => exact absurd hrest hbeyond.passed
  | excused hexcused =>
    rcases hexcused with hbeyond | ⟨hfewer, -⟩
    · exact absurd hrest hbeyond.passed
    · exact hfewer.elim

/-- The parsers do the same on tokens that are alike, at every number of levels left. -/
theorem parsersAt_look (hstop : Stop last last') (left depth : Nat) :
    (parsersAt left depth).Look last last' := by
  have hlink : (alikeUpTo hstop).Link (parsersAt left depth) (parsersAt left depth) :=
    (alikeUpTo hstop).link_parsersAt trivial (.inl rfl)
  exact {
    leave := hlink.leave
    expr := look_of_links hlink.expr
    unary := look_of_links hlink.unary
    chain := fun tighter => look_of_links (hlink.chain tighter)
    chainRest := fun level tighter _ _ hname => look_of_links (hlink.chainRest level tighter hname)
    postfixRest := fun _ _ hname => look_of_links (hlink.postfixRest hname) }

/-! ## Texts -/

/-- Texts with tokens of the same sorts up to some place are alike up to there. -/
theorem exists_alike {before last tokens' : List Token} {token : Token}
    (h : (before ++ [token]).map (·.kind.outline) <+: tokens'.map (·.kind.outline)) :
    ∃ last', last' <:+ tokens' ∧ last' ≠ [] ∧
      Alike (token :: last) last' (before ++ token :: last) tokens' := by
  induction before generalizing tokens' with
  | nil =>
    obtain ⟨more, hmore⟩ := h
    cases tokens' with
    | nil => simp at hmore
    | cons token' tokens' =>
      have houtline : token.kind.outline = token'.kind.outline := by
        simp only [List.nil_append, List.map_cons, List.map_nil, List.cons_append,
          List.cons.injEq] at hmore
        exact hmore.1
      exact ⟨_, List.suffix_refl _, List.cons_ne_nil _ _, .here houtline⟩
  | cons first before ih =>
    cases tokens' with
    | nil => simp at h
    | cons first' tokens' =>
      simp only [List.cons_append, List.map_cons, List.cons_prefix_cons] at h
      obtain ⟨last', hsuffix, hne, halike⟩ := ih h.2
      exact ⟨last', hsuffix.trans (List.suffix_cons _ _), hne, .cons h.1 halike⟩

theorem ended_of_suffix {source : String} {last : List Token} (hne : last ≠ [])
    (h : last <:+ tokenize source) : Ended (last.map Token.kind) := by
  obtain ⟨before, hbefore⟩ := h
  have hended := ended_kinds source
  rw [kinds, ← hbefore, List.map_append] at hended
  obtain ⟨token, rest, rfl⟩ := List.exists_cons_of_ne_nil hne
  simpa [Ended, List.getLast?_append] using hended

/-- A text is no expression if it is alike to another that fails, up to the token at fault. -/
theorem parse_ne_ok_of_outline {source other : String} {fault : SyntaxFault} {depth : Nat}
    {before after : List Token} {token : Token}
    (hfailure : (State.ofSource source).next.1 = .error ⟨fault, depth, token :: after⟩)
    (htokens : tokenize source = before ++ token :: after)
    (houtline : (before ++ [token]).map (·.kind.outline) <+:
      (tokenize other).map (·.kind.outline)) (tree : Expr) :
    Expr.parse other ≠ .ok tree := by
  obtain ⟨last', hsuffix', hne', halike⟩ := exists_alike houtline
  rw [← htokens] at halike
  have hstop : Stop (token :: after) last' :=
    ⟨ended_of_suffix (List.cons_ne_nil _ _) ⟨before, htokens.symm⟩, ended_of_suffix hne' hsuffix'⟩
  have hlook := (parsersAt_look hstop maxNesting 0).expr _ _ halike
  intro hparse
  obtain ⟨hcurrent', rest', hread', hrest'⟩ := (parse_eq_ok_iff other tree).1 hparse
  rcases State.next_eq_error hfailure with
    ⟨hcurrent, -⟩ | hfails | ⟨tree', rest, hread, hrest, hleft⟩
  · apply hcurrent'
    rw [← TokenKind.outline_eq_endOfInput_iff, ← halike.outline_current,
      TokenKind.outline_eq_endOfInput_iff, hcurrent]
  · rw [hfails, hread'] at hlook
    cases hlook (List.suffix_refl _)
  · rw [SyntaxFailure.mk.injEq] at hleft
    obtain ⟨-, -, rfl⟩ := hleft
    rw [hread, hread'] at hlook
    cases hlook (List.suffix_refl _) with
    | ok _ hrests =>
      apply hrest
      rw [← TokenKind.outline_eq_endOfInput_iff, hrests.outline_current,
        TokenKind.outline_eq_endOfInput_iff, hrest']

end Parse

end DataExpr
