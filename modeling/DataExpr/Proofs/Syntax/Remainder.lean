import DataExpr.Expr.Parser
import DataExpr.Proofs.Syntax.Tokens

/-!
# The tokens that a parser leaves

A parser reads its tokens from the front and never passes the last.  So what it leaves, be
it behind what it read or from the token at fault on, are the last tokens of those it was
given, and there is at least one (`parsersAt_leave`).  In particular the tokens of a failure
start with a token of the text, and the fuel that arguments are read with is never too little
(`arguments_eq_of_length_le`).

There is one lemma for each part of the parser, and `Parsers.Leave` carries the deeper levels
of nesting.
-/

namespace DataExpr.Parse

/-! ## Tokens up to the end -/

theorem ne_nil_of_current_ne {tokens : List Token} (h : current tokens ≠ .endOfInput) :
    tokens ≠ [] := by
  rintro rfl
  exact h rfl

/-- The kinds end where a text ends. -/
def Ended (kinds : List TokenKind) : Prop :=
  kinds.getLast? = some .endOfInput

/-- The tokens of a text from some place on, of which its end is the last. -/
def EndsText (tokens : List Token) : Prop :=
  Ended (tokens.map Token.kind)

namespace EndsText

variable {tokens : List Token}

theorem ne_nil (h : EndsText tokens) : tokens ≠ [] := by
  rintro rfl
  simp [EndsText, Ended] at h

/-- A token that is not the last can be passed. -/
theorem exists_cons (h : EndsText tokens) (hcurrent : current tokens ≠ .endOfInput) :
    ∃ token rest, tokens = token :: rest ∧ EndsText rest ∧ advance tokens = rest := by
  match tokens with
  | [] => simp [EndsText, Ended] at h
  | [token] =>
    have hkind : token.kind = .endOfInput := by simpa [EndsText, Ended] using h
    exact absurd hkind hcurrent
  | token :: next :: rest =>
    exact ⟨token, next :: rest, rfl, by simpa [EndsText, Ended] using h, rfl⟩

theorem cons (h : EndsText tokens) (token : Token) : EndsText (token :: tokens) := by
  obtain ⟨next, rest, rfl⟩ := List.exists_cons_of_ne_nil h.ne_nil
  simpa [EndsText, Ended] using h

theorem suffix {rest : List Token} (h : EndsText tokens) (hsuffix : rest <:+ tokens)
    (hne : rest ≠ []) : EndsText rest := by
  obtain ⟨before, rfl⟩ := hsuffix
  obtain ⟨next, rest, rfl⟩ := List.exists_cons_of_ne_nil hne
  simpa [EndsText, Ended, List.getLast?_append] using h

end EndsText

/-! ## What an outcome leaves -/

/-- The tokens that an outcome leaves. -/
def remainder {α : Type} : Except SyntaxFailure (α × List Token) → List Token
  | .ok (_, rest) => rest
  | .error failure => failure.rest

@[simp] theorem remainder_ok {α : Type} (result : α) (rest : List Token) :
    remainder (.ok (result, rest)) = rest := rfl

@[simp] theorem remainder_error {α : Type} (failure : SyntaxFailure) :
    remainder (.error failure : Except SyntaxFailure (α × List Token)) = failure.rest := rfl

@[simp] theorem remainder_map {α β : Type} (f : α → β)
    (outcome : Except SyntaxFailure (α × List Token)) :
    remainder (outcome.map fun (result, rest) => (f result, rest)) = remainder outcome := by
  rcases outcome with failure | ⟨result, rest⟩ <;> rfl

/-- The first tokens are the last ones of the second, and there is at least one. -/
structure Remains (rest tokens : List Token) : Prop where
  ne_nil : rest ≠ []
  suffix : rest <:+ tokens

/-- Given at least one token, the parser leaves at least one of the last. -/
def Leaves {α : Type} (parser : Parser α) : Prop :=
  ∀ tokens, tokens ≠ [] → Remains (remainder (parser tokens)) tokens

namespace Remains

variable {tokens rest last : List Token}

theorem refl (h : tokens ≠ []) : Remains tokens tokens :=
  ⟨h, List.suffix_refl tokens⟩

theorem trans (hlast : Remains last rest) (hrest : Remains rest tokens) : Remains last tokens :=
  ⟨hlast.ne_nil, hlast.suffix.trans hrest.suffix⟩

theorem advance (h : tokens ≠ []) : Remains (advance tokens) tokens := by
  match tokens with
  | [_] => exact .refl h
  | token :: next :: tokens => exact ⟨List.cons_ne_nil _ _, List.suffix_cons _ _⟩

end Remains

/-! ## One parser behind another -/

section

variable {α : Type}

theorem Leaves.behind_advance {parser : Parser α} (h : Leaves parser) :
    Leaves fun tokens => parser (advance tokens) := by
  intro tokens hne
  have hadvance := Remains.advance hne
  exact (h _ hadvance.ne_nil).trans hadvance

/-- Two parsers one behind the other leave tokens if each does. -/
theorem Leaves.behind {first : Parser Expr} {next : Expr → Parser α} (hfirst : Leaves first)
    (hnext : ∀ result, Leaves (next result)) :
    Leaves fun tokens => match first tokens with
      | .error failure => .error failure
      | .ok (result, rest) => next result rest := by
  intro tokens hne
  have hleft := hfirst tokens hne
  dsimp only
  generalize first tokens = outcome at hleft ⊢
  rcases outcome with failure | ⟨result, rest⟩
  · exact hleft
  · exact (hnext result rest hleft.ne_nil).trans hleft

/-- A parser behind a sign that has to come leaves tokens if it does alone. -/
theorem Leaves.behind_sign (depth : Nat) (sign : Sign) {next : List Token → Parser α}
    (hnext : ∀ tokens, Leaves (next tokens)) :
    Leaves fun tokens => match expect depth sign tokens with
      | .error failure => .error failure
      | .ok rest => next tokens rest := by
  intro tokens hne
  by_cases hsign : current tokens = .sign sign
  · simp only [expect, if_pos hsign]
    exact (hnext tokens).behind_advance tokens hne
  · simp only [expect, if_neg hsign]
    exact .refl hne

/-- So does passing the sign alone. -/
theorem leaves_close (depth : Nat) (sign : Sign) (result : α) :
    Leaves fun tokens => (expect depth sign tokens).map fun rest => (result, rest) := by
  intro tokens hne
  by_cases hsign : current tokens = .sign sign
  · simp only [expect, if_pos hsign]
    exact .advance hne
  · simp only [expect, if_neg hsign]
    exact .refl hne

end

/-! ## Parsers at one depth -/

/-- All of these parsers leave tokens. -/
structure Parsers.Leave (parsers : Parsers) : Prop where
  expr : Leaves parsers.expr
  unary : Leaves parsers.unary
  chain : ∀ tighter, Leaves (parsers.chain tighter)
  chainRest : ∀ level tighter left, Leaves (parsers.chainRest level tighter left)
  postfixRest : ∀ left, Leaves (parsers.postfixRest left)

section

variable {depth : Nat} {deeper? : Option Parsers}

/-- Going deeper leaves tokens if the deeper parsers do. -/
theorem enter_leaves {α : Type} {body : Parsers → Parser α}
    (hdeeper : ∀ deeper ∈ deeper?, deeper.Leave)
    (hbody : ∀ deeper, deeper.Leave → Leaves (body deeper)) :
    Leaves (enter depth deeper? body) := by
  cases deeper? with
  | none => exact fun tokens h => .refl h
  | some deeper => exact hbody deeper (hdeeper deeper rfl)

theorem expr_leaves (hdeeper : ∀ deeper ∈ deeper?, deeper.Leave) : Leaves (expr depth deeper?) :=
  enter_leaves hdeeper fun _ hd => hd.chain levels

/-- Behind an argument stand a comma and others, or none. -/
theorem moreArguments_leaves {others : Parser (List Expr)} (hothers : Leaves others)
    (first : Expr) :
    Leaves fun tokens =>
      if current tokens = .sign .comma then
        (others (advance tokens)).map fun (others, rest) => (first :: others, rest)
      else if current tokens = .sign .rightParen then .ok ([first], tokens)
      else fail depth (.unexpected (current tokens)) tokens := by
  intro tokens h
  dsimp only
  split
  · rw [remainder_map]
    exact hothers.behind_advance tokens h
  · split <;> exact .refl h

theorem arguments_leaves {argument : Parser Expr} (hargument : Leaves argument) (fuel : Nat) :
    Leaves (arguments depth argument fuel) := by
  induction fuel with
  | zero => exact fun tokens h => .refl h
  | succ fuel ih =>
    intro tokens h
    rw [arguments]
    split
    · exact .refl h
    · exact hargument.behind (moreArguments_leaves ih) tokens h

/-- More fuel than there are tokens changes nothing: in front of every argument but the first
a comma is passed. -/
theorem arguments_eq_of_length_le {argument : Parser Expr} (hargument : Leaves argument)
    {tokens : List Token} (hends : EndsText tokens) {fuel fuel' : Nat}
    (hfuel : tokens.length ≤ fuel) (hfuel' : tokens.length ≤ fuel') :
    arguments depth argument fuel tokens = arguments depth argument fuel' tokens := by
  induction fuel generalizing fuel' tokens with
  | zero => exact absurd (List.length_eq_zero_iff.1 (Nat.le_zero.1 hfuel)) hends.ne_nil
  | succ fuel ih =>
    have hpos := List.length_pos_iff.2 hends.ne_nil
    obtain ⟨fuel', rfl⟩ : ∃ less, fuel' = less + 1 := ⟨fuel' - 1, by omega⟩
    have hleft := hargument tokens hends.ne_nil
    rw [arguments, arguments]
    generalize argument tokens = outcome at hleft ⊢
    rcases outcome with failure | ⟨first, rest⟩
    · rfl
    by_cases hcomma : current rest = .sign .comma
    · have hlength := hleft.suffix.length_le
      have hrest : EndsText rest := hends.suffix hleft.suffix hleft.ne_nil
      obtain ⟨comma, behind, rfl, hbehind, hadvance⟩ := hrest.exists_cons (by simp [hcomma])
      rw [remainder_ok, List.length_cons] at hlength
      have hothers : arguments depth argument fuel behind = arguments depth argument fuel' behind :=
        ih hbehind (by omega) (by omega)
      simp only [if_pos hcomma, hadvance, hothers]
    · simp only [if_neg hcomma]

theorem primary_leaves (hdeeper : ∀ deeper ∈ deeper?, deeper.Leave) :
    Leaves (primary depth deeper?) := by
  intro tokens h
  unfold primary
  split
  · exact .advance h
  split
  · have hinner : Leaves (expr depth deeper?) := expr_leaves hdeeper
    exact (hinner.behind (leaves_close depth .rightParen)).behind_advance tokens h
  · exact .refl h

/-! ### Postfix steps

Each step passes the sign that it is read at. -/

section

variable {deeper : Parsers} (hdeeper : deeper.Leave) {tokens : List Token} (h : tokens ≠ [])

include hdeeper h

theorem memberStep_remains (object : Expr) :
    Remains (remainder (memberStep depth object deeper tokens)) (advance tokens) := by
  have hdot := Remains.advance h
  unfold memberStep
  dsimp only
  split
  · exact (hdeeper.postfixRest _).behind_advance _ hdot.ne_nil
  · exact .refl hdot.ne_nil

theorem indexStep_remains (object : Expr) :
    Remains (remainder (indexStep depth object deeper tokens)) (advance tokens) := by
  have hkey := hdeeper.expr.behind fun key => Leaves.behind_sign (depth + 1) .rightBracket
    fun tokens => hdeeper.postfixRest (.index object key (object.span.to (currentSpan tokens)))
  exact hkey _ (Remains.advance h).ne_nil

theorem callStep_remains (text : String) (start : Span) :
    Remains (remainder (callStep depth (.name text start) deeper tokens)) (advance tokens) := by
  have harguments : Leaves (arguments (depth + 1) deeper.expr (advance tokens).length) :=
    arguments_leaves hdeeper.expr _
  have hvalues := harguments (advance tokens) (Remains.advance h).ne_nil
  unfold callStep
  dsimp only
  generalize arguments (depth + 1) deeper.expr _ (advance tokens) = outcome at hvalues ⊢
  rcases outcome with failure | ⟨values, rest⟩
  · exact hvalues
  · have hclosed := Leaves.behind_sign (depth + 1) .rightParen fun tokens =>
      hdeeper.postfixRest (.call text values (start.to (currentSpan tokens)))
    exact (hclosed rest hvalues.ne_nil).trans hvalues

end

theorem callStep_leaves {deeper : Parsers} (hdeeper : deeper.Leave) (callee : Expr) :
    Leaves (callStep depth callee deeper) := by
  intro tokens h
  cases callee with
  | name text start => exact (callStep_remains hdeeper h text start).trans (.advance h)
  | _ => exact .refl h

theorem postfixRest_leaves (hdeeper : ∀ deeper ∈ deeper?, deeper.Leave) (left : Expr) :
    Leaves (postfixRest depth deeper? left) := by
  intro tokens h
  unfold postfixRest
  split
  · exact enter_leaves hdeeper (fun _ hd _ h => (memberStep_remains hd h left).trans (.advance h))
      tokens h
  · exact enter_leaves hdeeper (fun _ hd _ h => (indexStep_remains hd h left).trans (.advance h))
      tokens h
  · exact enter_leaves hdeeper (fun _ hd => callStep_leaves hd left) tokens h
  · exact .refl h

theorem postfixChain_leaves (hdeeper : ∀ deeper ∈ deeper?, deeper.Leave) :
    Leaves (postfixChain depth deeper?) :=
  (primary_leaves hdeeper).behind (postfixRest_leaves hdeeper)

theorem unary_leaves (hdeeper : ∀ deeper ∈ deeper?, deeper.Leave) :
    Leaves (unary depth deeper?) := by
  intro tokens h
  unfold unary
  split
  · exact postfixChain_leaves hdeeper tokens h
  · rename_i op _
    have hoperand : Leaves (enter depth deeper? (·.unary)) :=
      enter_leaves hdeeper fun _ hd => hd.unary
    have hresult (operand : Expr) : Leaves fun rest =>
        .ok (Expr.unary op operand ((currentSpan tokens).to operand.span), rest) :=
      fun rest h => .refl h
    exact (hoperand.behind hresult).behind_advance tokens h

theorem chainRest_leaves (hdeeper : ∀ deeper ∈ deeper?, deeper.Leave) (level : Level)
    (tighter : List Level) (left : Expr) : Leaves (chainRest depth deeper? level tighter left) := by
  intro tokens h
  unfold chainRest
  split
  · exact .refl h
  · refine Leaves.behind_advance (enter_leaves hdeeper fun deeper hd => ?_) tokens h
    exact (hd.chain tighter).behind fun _ => hd.chainRest level tighter _

theorem chain_leaves (hdeeper : ∀ deeper ∈ deeper?, deeper.Leave) (tighter : List Level) :
    Leaves (chain depth deeper? tighter) := by
  induction tighter with
  | nil => exact unary_leaves hdeeper
  | cons level tighter ih => exact ih.behind (chainRest_leaves hdeeper level tighter)

theorem parsersAbove_leave (hdeeper : ∀ deeper ∈ deeper?, deeper.Leave) :
    (parsersAbove depth deeper?).Leave where
  expr := expr_leaves hdeeper
  unary := unary_leaves hdeeper
  chain := chain_leaves hdeeper
  chainRest := chainRest_leaves hdeeper
  postfixRest := postfixRest_leaves hdeeper

end

/-- The parsers leave tokens at every number of levels left. -/
theorem parsersAt_leave (left depth : Nat) : (parsersAt left depth).Leave := by
  induction left generalizing depth with
  | zero => exact parsersAbove_leave fun _ h => by simp at h
  | succ left ih =>
    refine parsersAbove_leave fun deeper h => ?_
    obtain rfl := Option.some.inj h
    exact ih (depth + 1)

theorem tokenize_ne_nil (source : String) : tokenize source ≠ [] := by
  obtain ⟨front, hkinds, -⟩ := kinds_eq_append source
  intro h
  rw [kinds, h] at hkinds
  simp at hkinds

/-- A text is no expression because there is nothing in it, because the parser of expressions
fails, or because something is left behind what that one reads. -/
theorem State.next_eq_error {source : String} {failure : SyntaxFailure}
    (h : (State.ofSource source).next.1 = .error failure) :
    current (tokenize source) = .endOfInput ∧ failure = ⟨.nothing, 0, tokenize source⟩ ∨
      (parsersAt maxNesting 0).expr (tokenize source) = .error failure ∨
      ∃ tree rest, (parsersAt maxNesting 0).expr (tokenize source) = .ok (tree, rest) ∧
        current rest ≠ .endOfInput ∧ failure = ⟨.unexpected (current rest), 0, rest⟩ := by
  simp only [State.ofSource, State.next, Nat.sub_zero] at h
  by_cases hcurrent : current (tokenize source) = .endOfInput
  · simp only [hcurrent, if_true, Except.error.injEq] at h
    exact .inl ⟨hcurrent, h.symm⟩
  rcases hexpr : (parsersAt maxNesting 0).expr (tokenize source) with other | ⟨tree, rest⟩
  · simp only [hexpr, hcurrent, if_false, Except.error.injEq] at h
    exact .inr (.inl (congrArg Except.error h))
  · by_cases hrest : current rest = .endOfInput
    · simp [hexpr, hcurrent, hrest] at h
    · simp only [hexpr, hcurrent, hrest, if_false, Except.error.injEq] at h
      exact .inr (.inr ⟨tree, rest, rfl, hrest, h.symm⟩)

/-- A text that is no expression fails at one of its tokens. -/
theorem State.remains_of_next_eq_error {source : String} {failure : SyntaxFailure}
    (h : (State.ofSource source).next.1 = .error failure) :
    Remains failure.rest (tokenize source) := by
  have htokens := tokenize_ne_nil source
  have hexpr := (parsersAt_leave maxNesting 0).expr (tokenize source) htokens
  rcases State.next_eq_error h with ⟨-, rfl⟩ | hfails | ⟨tree, rest, hread, -, rfl⟩
  · exact .refl htokens
  · rwa [hfails] at hexpr
  · rwa [hread] at hexpr

end DataExpr.Parse
