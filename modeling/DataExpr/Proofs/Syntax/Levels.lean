import DataExpr.Proofs.Syntax.Phrase

/-!
# The parser of a category

The parser keeps its operators in a table of levels and recurses on the levels of
nesting that are left.  The grammar names its categories.  This module connects the
two, for the proofs that follow.

* `Tier.levels` is the part of the parser's table from a tier on.  Its first level
  holds the operators that the grammar gives the tier (`level_connective?`), and
  `atom?_eq_some_iff`, `unaryOp?_eq_some_iff` and `propertyName?_eq_some_iff` compare
  the other tables.
* `Parse.parserOf` is the parser of a category's phrases, with so many levels of
  nesting left at some depth.
* `enter_deeperAt_zero` and `enter_deeperAt_succ` say what going one level deeper is.
-/

namespace DataExpr

open Parse

/-! ## Tables -/

namespace Tier

/-- The place of a tier among the tiers, from zero. -/
def rank : Tier → Nat
  | .disjunction => 0
  | .conjunction => 1
  | .equality => 2
  | .comparison => 3
  | .sum => 4
  | .product => 5

/-- The operators of a tier in the parser's table. -/
def level (tier : Tier) : Parse.Level :=
  Parse.levels.getD tier.rank []

/-- The levels of a tier and all tighter ones in the parser's table. -/
def levels (tier : Tier) : List Parse.Level :=
  Parse.levels.drop tier.rank

theorem level_connective? (tier : Tier) (sign : Sign) :
    tier.level.connective? (.sign sign) = tier.operator? sign := by
  cases tier <;> cases sign <;> rfl

/-- Only signs are operators. -/
theorem exists_sign_of_connective? {tier : Tier} {kind : TokenKind} {connective : Connective}
    (h : tier.level.connective? kind = some connective) :
    ∃ sign, kind = .sign sign ∧ tier.operator? sign = some connective := by
  cases kind with
  | sign sign => exact ⟨sign, rfl, by rwa [← level_connective?]⟩
  | _ => simp [Parse.Level.connective?] at h

end Tier

/-- The levels of operators that a phrase of the category may have outside
parentheses. -/
def Category.levels : Category → List Parse.Level
  | .chain tier => tier.levels
  | _ => []

theorem Tier.levels_eq_cons (tier : Tier) : tier.levels = tier.level :: tier.operand.levels := by
  cases tier <;> rfl

/-- What holds of signed phrases, and of a chain if it does of the chain's operands,
holds of every chain. -/
theorem Category.chain_induction {motive : Category → Prop} (hsigned : motive .signed)
    (hchain : ∀ tier : Tier, motive tier.operand → motive (.chain tier)) (tier : Tier) :
    motive (.chain tier) := by
  have hproduct := hchain .product hsigned
  have hsum := hchain .sum hproduct
  have hcomparison := hchain .comparison hsum
  have hequality := hchain .equality hcomparison
  have hconjunction := hchain .conjunction hequality
  cases tier with
  | disjunction => exact hchain .disjunction hconjunction
  | conjunction => exact hconjunction
  | equality => exact hequality
  | comparison => exact hcomparison
  | sum => exact hsum
  | product => exact hproduct

namespace Parse

theorem atom?_eq_some_iff (kind : TokenKind) (tree : Expr) :
    atom? kind {} = some tree ↔ Atom kind tree := by
  constructor
  · intro h
    unfold atom? at h
    split at h <;> first | (obtain rfl := Option.some.inj h; constructor) | simp at h
  · rintro (_ | _) <;> rfl

theorem unaryOp?_eq_some_iff (kind : TokenKind) (op : UnaryOp) :
    unaryOp? kind = some op ↔ ∃ sign, kind = .sign sign ∧ SignedBy sign op := by
  constructor
  · intro h
    unfold unaryOp? at h
    split at h <;> first
      | (obtain rfl := Option.some.inj h; exact ⟨_, rfl, by constructor⟩)
      | simp at h
  · rintro ⟨_, rfl, _ | _⟩ <;> rfl

theorem propertyName?_eq_some_iff (kind : TokenKind) (property : String) :
    kind.propertyName? = some property ↔ NamesProperty kind property := by
  constructor
  · intro h
    unfold TokenKind.propertyName? at h
    split at h <;> first | (obtain rfl := Option.some.inj h; constructor) | simp at h
  · rintro (_ | _) <;> rfl

/-- Without spans, the parser joins trees as the grammar does. -/
theorem Connective.join_eq_node (connective : Connective) {left right : Expr}
    (hleft : left.span = {}) (hright : right.span = {}) :
    connective.join left right = connective.node left right := by
  cases connective <;> simp [Connective.join, Connective.node, hleft, hright]

/-! ## Levels of nesting -/

/-- The parsers one level deeper, if any level is left. -/
def deeperAt : (left depth : Nat) → Option Parsers
  | 0, _ => none
  | left + 1, depth => some (parsersAt left (depth + 1))

theorem parsersAt_eq (left depth : Nat) :
    parsersAt left depth = parsersAbove depth (deeperAt left depth) := by
  cases left <;> rfl

@[simp] theorem parsersAt_expr (left depth : Nat) :
    (parsersAt left depth).expr = expr depth (deeperAt left depth) := by
  rw [parsersAt_eq]; rfl

@[simp] theorem parsersAt_unary (left depth : Nat) :
    (parsersAt left depth).unary = unary depth (deeperAt left depth) := by
  rw [parsersAt_eq]; rfl

@[simp] theorem parsersAt_chain (left depth : Nat) :
    (parsersAt left depth).chain = chain depth (deeperAt left depth) := by
  rw [parsersAt_eq]; rfl

@[simp] theorem parsersAt_chainRest (left depth : Nat) :
    (parsersAt left depth).chainRest = chainRest depth (deeperAt left depth) := by
  rw [parsersAt_eq]; rfl

@[simp] theorem parsersAt_postfixRest (left depth : Nat) :
    (parsersAt left depth).postfixRest = postfixRest depth (deeperAt left depth) := by
  rw [parsersAt_eq]; rfl

/-- Without a level left, going deeper fails. -/
theorem enter_deeperAt_zero {α : Type} (depth : Nat) (body : Parsers → Parser α)
    (tokens : List Token) :
    enter depth (deeperAt 0 depth) body tokens = .error ⟨.tooDeep, depth + 1, tokens⟩ :=
  rfl

/-- With a level left, going deeper leaves one level less. -/
theorem enter_deeperAt_succ {α : Type} (left depth : Nat) (body : Parsers → Parser α)
    (tokens : List Token) :
    enter depth (deeperAt (left + 1) depth) body tokens =
      body (parsersAt left (depth + 1)) tokens :=
  rfl

/-- Whatever is read deeper used up a level. -/
theorem exists_of_enter_eq_ok {α : Type} {left depth : Nat} {body : Parsers → Parser α}
    {tokens : List Token} {result : α × List Token}
    (h : enter depth (deeperAt left depth) body tokens = .ok result) :
    ∃ less, left = less + 1 ∧ body (parsersAt less (depth + 1)) tokens = .ok result := by
  cases left with
  | zero => rw [enter_deeperAt_zero] at h; simp at h
  | succ less => exact ⟨less, rfl, h⟩

/-! ## Categories -/

/-- The parser of a category's phrases, with so many levels left at a depth. -/
def parserOf (category : Category) (left depth : Nat) : Parser Expr :=
  match category with
  | .chain tier => chain depth (deeperAt left depth) tier.levels
  | .signed => unary depth (deeperAt left depth)
  | .stepped => postfixChain depth (deeperAt left depth)
  | .primary => primary depth (deeperAt left depth)

theorem parserOf_operand (tier : Tier) (left depth : Nat) :
    parserOf tier.operand left depth = chain depth (deeperAt left depth) tier.operand.levels := by
  cases tier <;> rfl

/-- A chain is an operand and what comes behind it. -/
theorem parserOf_chain (tier : Tier) (left depth : Nat) (tokens : List Token) :
    parserOf (.chain tier) left depth tokens =
      match parserOf tier.operand left depth tokens with
      | .error failure => .error failure
      | .ok (first, rest) =>
        chainRest depth (deeperAt left depth) tier.level tier.operand.levels first rest := by
  rw [parserOf, tier.levels_eq_cons, parserOf_operand]
  rfl

/-- A whole expression is a chain one level deeper. -/
theorem expr_eq_enter (left depth : Nat) (tokens : List Token) :
    expr depth (deeperAt left depth) tokens =
      enter depth (deeperAt left depth)
        (fun deeper => deeper.chain Tier.disjunction.levels) tokens :=
  rfl

end Parse

end DataExpr
