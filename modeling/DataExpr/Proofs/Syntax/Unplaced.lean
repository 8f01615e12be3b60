import DataExpr.Proofs.Syntax.Coupling

/-!
# Parsing without places

Every token knows where it stands, and every node of a tree which piece of the
text it covers.  The parser carries these spans along and never decides anything
by them.  This module says so: parsing tokens without their spans gives the tree
without its spans, the same tokens left, and the same fault
(`parsersAt_placeless`).

So the other modules on syntax look at kinds of tokens only (`bare`), and what
they prove about `Expr.unplaced` trees holds of the placed ones.

A run on tokens with their spans and one on the same tokens without them have in common
what `placesLeftOut` says, so this is a case of what holds of two runs of the parser.
-/

namespace DataExpr

mutual

/-- The expression with all its spans left out. -/
def Expr.unplaced : Expr → Expr
  | .literal value _ => .literal value {}
  | .undefined _ => .undefined {}
  | .name text _ => .name text {}
  | .this _ => .this {}
  | .member object property _ => .member object.unplaced property {}
  | .index object key _ => .index object.unplaced key.unplaced {}
  | .call callee arguments _ => .call callee (Expr.unplacedAll arguments) {}
  | .unary op operand _ => .unary op operand.unplaced {}
  | .binary op left right _ => .binary op left.unplaced right.unplaced {}
  | .logical op left right _ => .logical op left.unplaced right.unplaced {}

/-- The expressions with all their spans left out. -/
def Expr.unplacedAll : List Expr → List Expr
  | [] => []
  | first :: others => first.unplaced :: Expr.unplacedAll others

end

@[simp] theorem Expr.span_unplaced (tree : Expr) : tree.unplaced.span = {} := by
  cases tree <;> rfl

theorem Expr.unplacedAll_eq_map (trees : List Expr) :
    Expr.unplacedAll trees = trees.map Expr.unplaced := by
  induction trees with
  | nil => rfl
  | cons first others ih => rw [unplacedAll, ih, List.map_cons]

namespace Parse

/-- Tokens of these kinds that stand nowhere. -/
def bare (kinds : List TokenKind) : List Token :=
  kinds.map fun kind => ⟨kind, {}⟩

@[simp] theorem bare_cons (kind : TokenKind) (kinds : List TokenKind) :
    bare (kind :: kinds) = ⟨kind, {}⟩ :: bare kinds := rfl

@[simp] theorem currentSpan_bare (kinds : List TokenKind) : currentSpan (bare kinds) = {} := by
  cases kinds <;> rfl

/-- The tokens with their spans left out. -/
def unplacedTokens (tokens : List Token) : List Token :=
  bare (tokens.map Token.kind)

/-- What a parser gives, without spans; `f` leaves them out of the result. -/
def unplacedOutcome {α : Type} (f : α → α) :
    Except SyntaxFailure (α × List Token) → Except SyntaxFailure (α × List Token)
  | .ok (result, rest) => .ok (f result, unplacedTokens rest)
  | .error failure => .error { failure with rest := unplacedTokens failure.rest }

/-- The parser gives the same without spans; `f` leaves them out of its results. -/
def Placeless {α : Type} (f : α → α) (parser : Parser α) : Prop :=
  ∀ tokens, parser (unplacedTokens tokens) = unplacedOutcome f (parser tokens)

/-! ## Tokens -/

@[simp] theorem current_unplacedTokens (tokens : List Token) :
    current (unplacedTokens tokens) = current tokens := by
  cases tokens <;> rfl

@[simp] theorem currentSpan_unplacedTokens (tokens : List Token) :
    currentSpan (unplacedTokens tokens) = {} :=
  currentSpan_bare _

@[simp] theorem advance_unplacedTokens (tokens : List Token) :
    advance (unplacedTokens tokens) = unplacedTokens (advance tokens) := by
  match tokens with
  | [] => rfl
  | [_] => rfl
  | _ :: _ :: _ => rfl

@[simp] theorem length_unplacedTokens (tokens : List Token) :
    (unplacedTokens tokens).length = tokens.length := by
  simp [unplacedTokens, bare]

@[simp] theorem to_empty : Span.to {} {} = {} := rfl

@[simp] theorem atom?_empty (kind : TokenKind) (span : Span) :
    atom? kind {} = (atom? kind span).map Expr.unplaced := by
  unfold atom?
  split <;> rfl

theorem Connective.join_unplaced (connective : Connective) (left right : Expr) :
    connective.join left.unplaced right.unplaced = (connective.join left right).unplaced := by
  cases connective <;> simp [Connective.join, Expr.unplaced]

/-! ## Parsers -/

/-- All of these parsers give the same without spans. -/
structure Parsers.Placeless (parsers : Parsers) : Prop where
  expr : Parse.Placeless Expr.unplaced parsers.expr
  unary : Parse.Placeless Expr.unplaced parsers.unary
  chain : ∀ tighter, Parse.Placeless Expr.unplaced (parsers.chain tighter)
  chainRest : ∀ level tighter left tokens,
    parsers.chainRest level tighter left.unplaced (unplacedTokens tokens) =
      unplacedOutcome Expr.unplaced (parsers.chainRest level tighter left tokens)
  postfixRest : ∀ left tokens,
    parsers.postfixRest left.unplaced (unplacedTokens tokens) =
      unplacedOutcome Expr.unplaced (parsers.postfixRest left tokens)

/-- The second run has what the first has, without spans. -/
def placesLeftOut : Coupling where
  Depths depth depth' := depth = depth'
  Tokens tokens tokens' := unplacedTokens tokens = tokens'
  Trees tree tree' := tree.unplaced = tree'
  Failures failure failure' := { failure with rest := unplacedTokens failure.rest } = failure'
  last := []
  FewerLevels := False
  depths_succ h := congrArg (· + 1) h
  outline_eq := by
    rintro tokens _ rfl
    rw [current_unplacedTokens]
  ends := by
    rintro tokens _ rfl
    exact .inl (length_unplacedTokens tokens).symm
  tokens_advance := by
    rintro tokens _ rfl -
    exact .inl (advance_unplacedTokens tokens).symm
  failures_fail := by
    rintro depth _ tokens _ rfl rfl fault
    rw [current_unplacedTokens]
  sameNaming := by
    rintro tree _ rfl
    cases tree <;> rfl
  trees_atom := by
    rintro tokens _ tree tree' rfl hatom hatom'
    rw [current_unplacedTokens, currentSpan_unplacedTokens,
      atom?_empty _ (currentSpan tokens), hatom] at hatom'
    exact Option.some.inj hatom'
  trees_member := by
    rintro tokens _ tree _ property property' rfl rfl hproperty hproperty'
    rw [current_unplacedTokens, hproperty] at hproperty'
    rw [Expr.unplaced, Option.some.inj hproperty', Expr.span_unplaced, currentSpan_unplacedTokens,
      to_empty]
  trees_index := by
    rintro tokens _ tree _ key _ rfl rfl rfl
    rw [Expr.unplaced, Expr.span_unplaced, currentSpan_unplacedTokens, to_empty]
  trees_call := by
    rintro tokens _ text text' start start' values values' rfl hname hvalues
    obtain ⟨rfl, rfl⟩ := Expr.name.inj hname
    have hmap : List.Forall₂ Eq (values.map Expr.unplaced) values' :=
      List.forall₂_map_left_iff.2 hvalues
    rw [List.forall₂_eq_eq_eq] at hmap
    rw [Expr.unplaced, Expr.unplacedAll_eq_map, hmap, currentSpan_unplacedTokens, to_empty]
  trees_unary := by
    rintro tokens _ tree _ rfl rfl op
    rw [Expr.unplaced, Expr.span_unplaced, currentSpan_unplacedTokens, to_empty]
  trees_join := by
    rintro left _ right _ rfl rfl connective
    exact (connective.join_unplaced left right).symm

theorem placeless_of_outcomes {outcome outcome' : Except SyntaxFailure (Expr × List Token)}
    (h : placesLeftOut.Outcomes placesLeftOut.Trees outcome outcome') :
    outcome' = unplacedOutcome Expr.unplaced outcome := by
  cases h with
  | ok hresult hrest => rw [unplacedOutcome, hresult, hrest]
  | error h => rw [unplacedOutcome, h]
  | beyond h => exact absurd List.nil_suffix h.passed
  | excused h =>
    rcases h with h | ⟨h, -⟩
    · exact absurd List.nil_suffix h.passed
    · exact h.elim

/-- No parser depends on where its tokens stand. -/
theorem parsersAt_placeless (left depth : Nat) : (parsersAt left depth).Placeless := by
  have hlink : placesLeftOut.Link (parsersAt left depth) (parsersAt left depth) :=
    placesLeftOut.link_parsersAt rfl (.inl rfl)
  exact {
    expr := fun _ => placeless_of_outcomes (hlink.expr _ _ rfl)
    unary := fun _ => placeless_of_outcomes (hlink.unary _ _ rfl)
    chain := fun tighter _ => placeless_of_outcomes (hlink.chain tighter _ _ rfl)
    chainRest := fun level tighter _ _ =>
      placeless_of_outcomes (hlink.chainRest level tighter rfl _ _ rfl)
    postfixRest := fun _ _ => placeless_of_outcomes (hlink.postfixRest rfl _ _ rfl) }

end Parse

end DataExpr
