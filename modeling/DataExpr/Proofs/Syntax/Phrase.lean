import DataExpr.Expr.Parser
import DataExpr.Proofs.Syntax.Unplaced

/-!
# The grammar of expressions

The grammar over kinds of tokens, written down without the parser.  From the
loosest phrases to the tightest:

* a chain of a tier is operands of the next tighter category with operators of the
  tier between them, grouped to the left;
* a signed phrase is any number of `!`, `-` and `+` in front of a stepped one;
* a stepped phrase is a primary one and any number of steps `.name`, `[key]` and
  `(arguments)` behind it, the last only behind a name;
* a primary phrase is a single token or an expression in parentheses.

A `Phrase` is a derivation.  Its category and the tree it builds are in its type,
and `Phrase.tokens` is the text that it derives.  Trees are without spans here,
because the grammar knows kinds of tokens only.

`Phrase.nesting` is the number of levels that a reader has open at once if it opens
one for every operator or step of a chain until the chain ends, and one for every
inner expression.  `Tier` and the tables beside it say which sign stands for which
operator; the lemmas at the end compare them with the parser's.
-/

namespace DataExpr

open Parse (Connective)

/-- The levels of operators between operands, the loosest first. -/
inductive Tier where
  | disjunction
  | conjunction
  | equality
  | comparison
  | sum
  | product
  deriving DecidableEq, Repr

/-- What a phrase is. -/
inductive Category where
  /-- Operands with the operators of a tier between them. -/
  | chain (tier : Tier)
  /-- Operators in front of an operand. -/
  | signed
  /-- Postfix steps behind an operand. -/
  | stepped
  /-- A single token, or an expression in parentheses. -/
  | primary
  deriving DecidableEq, Repr

/-- The category of whole expressions. -/
abbrev Category.expression : Category := .chain .disjunction

namespace Tier

/-- What the operators of a tier stand between. -/
def operand : Tier → Category
  | .disjunction => .chain .conjunction
  | .conjunction => .chain .equality
  | .equality => .chain .comparison
  | .comparison => .chain .sum
  | .sum => .chain .product
  | .product => .signed

/-- The operator of a tier that a sign stands for. -/
def operator? : Tier → Sign → Option Connective
  | .disjunction, .orOr => some (.logical .or)
  | .conjunction, .andAnd => some (.logical .and)
  | .equality, .eqEq => some (.binary .looseEq)
  | .equality, .notEq => some (.binary .looseNe)
  | .equality, .eqEqEq => some (.binary .strictEq)
  | .equality, .notEqEq => some (.binary .strictNe)
  | .comparison, .less => some (.binary .less)
  | .comparison, .lessEq => some (.binary .lessEq)
  | .comparison, .greater => some (.binary .greater)
  | .comparison, .greaterEq => some (.binary .greaterEq)
  | .sum, .plus => some (.binary .add)
  | .sum, .minus => some (.binary .sub)
  | .product, .star => some (.binary .mul)
  | .product, .slash => some (.binary .div)
  | .product, .percent => some (.binary .rem)
  | _, _ => none

end Tier

/-- The node that an operator makes of two trees. -/
def Parse.Connective.node (connective : Connective) (left right : Expr) : Expr :=
  match connective with
  | .binary op => .binary op left right {}
  | .logical op => .logical op left right {}

/-- The operator that a sign stands for in front of an operand. -/
inductive SignedBy : Sign → UnaryOp → Prop where
  | not : SignedBy .bang .not
  | negate : SignedBy .minus .negate
  | plus : SignedBy .plus .plus

/-- The names behind a dot: identifiers and reserved words. -/
inductive NamesProperty : TokenKind → String → Prop where
  | name (text : String) : NamesProperty (.name text) text
  | keyword (word : Keyword) : NamesProperty (.keyword word) word.text

/-- The tokens that are expressions by themselves, with their trees. -/
inductive Atom : TokenKind → Expr → Prop where
  | number (n : Float) : Atom (.number n) (.literal (.number n) {})
  | string (text : String) : Atom (.string text) (.literal (.text text) {})
  | yes : Atom (.keyword .true) (.literal (.bool true) {})
  | no : Atom (.keyword .false) (.literal (.bool false) {})
  | null : Atom (.keyword .null) (.literal .null {})
  | undefined : Atom (.keyword .undefined) (.undefined {})
  | this : Atom (.keyword .this) (.this {})
  | name (text : String) : Atom (.name text) (.name text {})

mutual

/-- A derivation of a tree as a phrase of a category. -/
inductive Phrase : Category → Expr → Type where
  /-- A chain of one operand. -/
  | operand {tier : Tier} {tree : Expr} (only : Phrase tier.operand tree) :
      Phrase (.chain tier) tree
  /-- A chain with one more operator and operand. -/
  | join {tier : Tier} {left right : Expr} {connective : Connective}
      (first : Phrase (.chain tier) left) (sign : Sign)
      (hsign : tier.operator? sign = some connective) (last : Phrase tier.operand right) :
      Phrase (.chain tier) (connective.node left right)
  /-- An operator in front of an operand. -/
  | apply {tree : Expr} {op : UnaryOp} (sign : Sign) (hsign : SignedBy sign op)
      (body : Phrase .signed tree) : Phrase .signed (.unary op tree {})
  /-- An operand without one. -/
  | unsigned {tree : Expr} (body : Phrase .stepped tree) : Phrase .signed tree
  /-- An operand without steps. -/
  | start {tree : Expr} (body : Phrase .primary tree) : Phrase .stepped tree
  /-- The step `.name`. -/
  | member {tree : Expr} {property : String} (object : Phrase .stepped tree) (kind : TokenKind)
      (hkind : NamesProperty kind property) : Phrase .stepped (.member tree property {})
  /-- The step `[key]`. -/
  | index {tree inner : Expr} (object : Phrase .stepped tree)
      (key : Phrase (.chain .disjunction) inner) : Phrase .stepped (.index tree inner {})
  /-- The step `(arguments)`, behind a name. -/
  | call {text : String} {trees : List Expr} (callee : Phrase .stepped (.name text {}))
      (arguments : Arguments trees) : Phrase .stepped (.call text trees {})
  /-- A single token. -/
  | atom {tree : Expr} (kind : TokenKind) (hkind : Atom kind tree) : Phrase .primary tree
  /-- An expression in parentheses. -/
  | group {tree : Expr} (inner : Phrase (.chain .disjunction) tree) : Phrase .primary tree

/-- A derivation of expressions with commas between them.  Another comma may come
behind the last. -/
inductive Arguments : List Expr → Type where
  | nothing : Arguments []
  | last {tree : Expr} (argument : Phrase (.chain .disjunction) tree) : Arguments [tree]
  | more {tree : Expr} {trees : List Expr} (argument : Phrase (.chain .disjunction) tree)
      (others : Arguments trees) : Arguments (tree :: trees)

end

mutual

/-- The kinds of tokens that a phrase derives. -/
def Phrase.tokens {category : Category} {tree : Expr} : Phrase category tree → List TokenKind
  | .operand only => only.tokens
  | .join first sign _ last => first.tokens ++ .sign sign :: last.tokens
  | .apply sign _ body => .sign sign :: body.tokens
  | .unsigned body => body.tokens
  | .start body => body.tokens
  | .member object kind _ => object.tokens ++ [.sign .dot, kind]
  | .index object key =>
      object.tokens ++ .sign .leftBracket :: (key.tokens ++ [.sign .rightBracket])
  | .call callee arguments =>
      callee.tokens ++ .sign .leftParen :: (arguments.tokens ++ [.sign .rightParen])
  | .atom kind _ => [kind]
  | .group inner => .sign .leftParen :: (inner.tokens ++ [.sign .rightParen])

/-- The kinds of tokens that arguments derive. -/
def Arguments.tokens {trees : List Expr} : Arguments trees → List TokenKind
  | .nothing => []
  | .last argument => argument.tokens
  | .more argument others => argument.tokens ++ .sign .comma :: others.tokens

end

/-- How many operators or steps the outermost chain of a phrase has. -/
def Phrase.steps {category : Category} {tree : Expr} : Phrase category tree → Nat
  | .join first _ _ _ => first.steps + 1
  | .member object _ _ => object.steps + 1
  | .index object _ => object.steps + 1
  | .call callee _ => callee.steps + 1
  | _ => 0

mutual

/-- How many levels are open at once while a phrase is read. -/
def Phrase.nesting {category : Category} {tree : Expr} : Phrase category tree → Nat
  | .operand only => only.nesting
  | .join first _ _ last => max first.nesting (first.steps + 1 + last.nesting)
  | .apply _ _ body => 1 + body.nesting
  | .unsigned body => body.nesting
  | .start body => body.nesting
  | .member object _ _ => max object.nesting (object.steps + 1)
  | .index object key => max object.nesting (object.steps + 1 + (1 + key.nesting))
  | .call callee arguments => max callee.nesting (callee.steps + 1 + arguments.nesting)
  | .atom _ _ => 0
  | .group inner => 1 + inner.nesting

/-- How many levels are open at once while arguments are read. -/
def Arguments.nesting {trees : List Expr} : Arguments trees → Nat
  | .nothing => 0
  | .last argument => 1 + argument.nesting
  | .more argument others => max (1 + argument.nesting) others.nesting

end

/-- The trees of the grammar are without spans. -/
theorem Phrase.span_eq {category : Category} {tree : Expr} (phrase : Phrase category tree) :
    tree.span = {} := by
  match phrase with
  | .operand only => exact only.span_eq
  | @Phrase.join _ _ _ connective _ _ _ _ => cases connective <;> rfl
  | .unsigned body => exact body.span_eq
  | .start body => exact body.span_eq
  | .apply _ _ _ | .member _ _ _ | .index _ _ | .call _ _ => rfl
  | .atom _ hkind => cases hkind <;> rfl
  | .group inner => exact inner.span_eq

/-! ## Phrases without operators -/

/-- A stepped phrase is an expression without operators. -/
def Phrase.withoutOperators {tree : Expr} (phrase : Phrase .stepped tree) :
    Phrase .expression tree :=
  .operand (.operand (.operand (.operand (.operand (.operand (.unsigned phrase))))))

@[simp] theorem Phrase.tokens_withoutOperators {tree : Expr} (phrase : Phrase .stepped tree) :
    phrase.withoutOperators.tokens = phrase.tokens := by
  simp only [withoutOperators, tokens]

@[simp] theorem Phrase.nesting_withoutOperators {tree : Expr} (phrase : Phrase .stepped tree) :
    phrase.withoutOperators.nesting = phrase.nesting := by
  simp only [withoutOperators, nesting]

/-- A step `.name` opens one level. -/
theorem Phrase.exists_member {tree : Expr} {property : String} {kind : TokenKind}
    (object : Phrase .stepped tree) (h : NamesProperty kind property) :
    ∃ phrase : Phrase .stepped (.member tree property {}),
      phrase.tokens = object.tokens ++ [.sign .dot, kind] ∧ phrase.steps = object.steps + 1 ∧
        phrase.nesting ≤ max object.nesting (object.steps + 2) := by
  refine ⟨.member object kind h, rfl, rfl, ?_⟩
  show max object.nesting (object.steps + 1) ≤ _
  omega

/-- A step `[key]` opens another level in its brackets. -/
theorem Phrase.exists_index {tree inner : Expr} {kind : TokenKind}
    (object : Phrase .stepped tree) (h : Atom kind inner) :
    ∃ phrase : Phrase .stepped (.index tree inner {}),
      phrase.tokens = object.tokens ++ [.sign .leftBracket, kind, .sign .rightBracket] ∧
        phrase.steps = object.steps + 1 ∧
        phrase.nesting ≤ max object.nesting (object.steps + 2) :=
  ⟨.index object (withoutOperators (.start (.atom kind h))), rfl, rfl, Nat.le_refl _⟩

/-! ## How phrases begin -/

/-- Whether a phrase of a category may begin with a token. -/
def Category.mayStart : Category → TokenKind → Bool
  | .stepped, .sign sign | .primary, .sign sign => sign = .leftParen
  | _, .sign sign => sign = .leftParen || sign = .bang || sign = .minus || sign = .plus
  | _, .endOfInput | _, .error _ => false
  | _, _ => true

theorem Tier.mayStart_operand (tier : Tier) (kind : TokenKind) :
    tier.operand.mayStart kind = (Category.chain tier).mayStart kind := by
  cases tier <;> cases kind <;> rfl

theorem Category.mayStart_signed_of_stepped {kind : TokenKind}
    (h : Category.stepped.mayStart kind = true) : Category.signed.mayStart kind = true := by
  cases kind <;> simp_all [Category.mayStart]

/-- Every phrase has a first token, one that phrases of its category may begin
with. -/
theorem Phrase.exists_first {category : Category} {tree : Expr} (phrase : Phrase category tree) :
    ∃ kind rest, phrase.tokens = kind :: rest ∧ category.mayStart kind = true := by
  match phrase with
  | @Phrase.operand tier _ only =>
    obtain ⟨kind, rest, htokens, hstart⟩ := only.exists_first
    exact ⟨kind, rest, by simp [Phrase.tokens, htokens], by rwa [← Tier.mayStart_operand]⟩
  | .join first sign _ last =>
    obtain ⟨kind, rest, htokens, hstart⟩ := first.exists_first
    exact ⟨kind, rest ++ .sign sign :: last.tokens, by simp [Phrase.tokens, htokens], hstart⟩
  | .apply sign hsign body =>
    refine ⟨.sign sign, body.tokens, by simp [Phrase.tokens], ?_⟩
    cases hsign <;> rfl
  | .unsigned body =>
    obtain ⟨kind, rest, htokens, hstart⟩ := body.exists_first
    exact ⟨kind, rest, by simp [Phrase.tokens, htokens],
      Category.mayStart_signed_of_stepped hstart⟩
  | .start body =>
    obtain ⟨kind, rest, htokens, hstart⟩ := body.exists_first
    refine ⟨kind, rest, by simp [Phrase.tokens, htokens], ?_⟩
    cases kind <;> exact hstart
  | .member object kind' _ =>
    obtain ⟨kind, rest, htokens, hstart⟩ := object.exists_first
    exact ⟨kind, rest ++ [.sign .dot, kind'], by simp [Phrase.tokens, htokens], hstart⟩
  | .index object key =>
    obtain ⟨kind, rest, htokens, hstart⟩ := object.exists_first
    exact ⟨kind, _, by rw [Phrase.tokens, htokens, List.cons_append], hstart⟩
  | .call callee arguments =>
    obtain ⟨kind, rest, htokens, hstart⟩ := callee.exists_first
    exact ⟨kind, _, by rw [Phrase.tokens, htokens, List.cons_append], hstart⟩
  | .atom kind hkind =>
    refine ⟨kind, [], by simp [Phrase.tokens], ?_⟩
    cases hkind <;> rfl
  | .group inner => exact ⟨_, _, by rw [Phrase.tokens], rfl⟩

end DataExpr
