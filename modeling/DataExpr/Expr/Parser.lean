import DataExpr.Error
import DataExpr.Expr.Basic
import DataExpr.Expr.Lexer

/-!
# Expressions from tokens

The parser of expressions.  From the loosest to the tightest, the operators are
`||`, `&&`, equality, comparison, addition, multiplication, prefix operators, and
the postfix steps `.name`, `[key]` and `(arguments)`.  Operators between operands
group to the left.  Only a name can be called.

Nesting is limited: an expression in parentheses, brackets or arguments is one
level deeper than what is around it, and so is everything behind another operator
or postfix step of a chain.  At most `maxNesting` levels may be open.

The parsers of one level call those of the next, so `parsersAt` is a recursion on
the number of levels that are left.  A parser takes the tokens still to be read
and gives back its result with the rest; a failure tells what is wrong, which
tokens were left, and how many levels were open.
-/

namespace DataExpr

/-- How many levels of nesting an expression may have. -/
def maxNesting : Nat := 256

/-- Why tokens make no expression. -/
inductive SyntaxFault where
  /-- There is nothing but the end of the text. -/
  | nothing
  /-- A token stands where none of its kind can. -/
  | unexpected (found : TokenKind)
  /-- A certain sign is missing. -/
  | missingSign (expected : Sign) (found : TokenKind)
  /-- Behind a dot stands no name. -/
  | missingProperty (found : TokenKind)
  /-- Something other than a name is called. -/
  | calleeNotName
  /-- There are too many levels of nesting. -/
  | tooDeep
  deriving DecidableEq

/-- The fault in words.  A text that is no token speaks for itself. -/
def SyntaxFault.message : SyntaxFault → String
  | .nothing => "expected an expression"
  | .unexpected (.error fault) => fault.message
  | .unexpected found => "unexpected " ++ found.describe
  | .missingSign expected found =>
      "expected " ++ (TokenKind.sign expected).describe ++ ", found " ++ found.describe
  | .missingProperty found => "expected property name after '.', found " ++ found.describe
  | .calleeNotName => "only helper functions can be called"
  | .tooDeep => "expression nested too deeply"

/-- Where and why a parser stopped. -/
structure SyntaxFailure where
  /-- What is wrong. -/
  fault : SyntaxFault
  /-- How many levels of nesting were open. -/
  depth : Nat
  /-- The tokens left, the one at fault first. -/
  rest : List Token
  deriving DecidableEq

namespace Parse

/-- A parser: from the tokens left, a result and the tokens left after it. -/
abbrev Parser (α : Type) := List Token → Except SyntaxFailure (α × List Token)

/-! ## Tokens left -/

/-- The kind of the token that comes next. -/
def current (tokens : List Token) : TokenKind :=
  match tokens with
  | [] => .endOfInput
  | token :: _ => token.kind

/-- Where the token that comes next stands. -/
def currentSpan (tokens : List Token) : Span :=
  match tokens with
  | [] => {}
  | token :: _ => token.span

/-- The tokens behind the next one.  The last token is never passed. -/
def advance : List Token → List Token
  | _ :: token :: tokens => token :: tokens
  | tokens => tokens

/-- Fails at the next token. -/
def fail {α : Type} (depth : Nat) (fault : SyntaxFault) : Parser α :=
  fun tokens => .error ⟨fault, depth, tokens⟩

/-- Passes a sign that has to come next. -/
def expect (depth : Nat) (sign : Sign) (tokens : List Token) :
    Except SyntaxFailure (List Token) :=
  if current tokens = .sign sign then .ok (advance tokens)
  else .error ⟨.missingSign sign (current tokens), depth, tokens⟩

/-! ## Operators -/

/-- An operator between two operands. -/
inductive Connective where
  /-- One that needs both. -/
  | binary (op : BinaryOp)
  /-- One that may leave the right one aside. -/
  | logical (op : LogicalOp)
  deriving DecidableEq, Repr

/-- The expression that an operator makes of two. -/
def Connective.join (connective : Connective) (left right : Expr) : Expr :=
  let span := left.span.to right.span
  match connective with
  | .binary op => .binary op left right span
  | .logical op => .logical op left right span

/-- Operators that bind equally strongly. -/
abbrev Level := List (Sign × Connective)

/-- All operators between operands, the loosest level first. -/
def levels : List Level :=
  [ [(.orOr, .logical .or)]
  , [(.andAnd, .logical .and)]
  , [(.eqEq, .binary .looseEq), (.notEq, .binary .looseNe), (.eqEqEq, .binary .strictEq),
      (.notEqEq, .binary .strictNe)]
  , [(.less, .binary .less), (.lessEq, .binary .lessEq), (.greater, .binary .greater),
      (.greaterEq, .binary .greaterEq)]
  , [(.plus, .binary .add), (.minus, .binary .sub)]
  , [(.star, .binary .mul), (.slash, .binary .div), (.percent, .binary .rem)] ]

/-- The operator of a level that a token is. -/
def Level.connective? (level : Level) (kind : TokenKind) : Option Connective :=
  match kind with
  | .sign sign => level.lookup sign
  | _ => none

/-- The prefix operator that a token is. -/
def unaryOp? : TokenKind → Option UnaryOp
  | .sign .bang => some .not
  | .sign .minus => some .negate
  | .sign .plus => some .plus
  | _ => none

/-- The expression that a single token is. -/
def atom? (token : TokenKind) (span : Span) : Option Expr :=
  match token with
  | .number n => some (.literal (.number n) span)
  | .string text => some (.literal (.text text) span)
  | .keyword .true => some (.literal (.bool true) span)
  | .keyword .false => some (.literal (.bool false) span)
  | .keyword .null => some (.literal .null span)
  | .keyword .undefined => some (.undefined span)
  | .keyword .this => some (.this span)
  | .name text => some (.name text span)
  | _ => none

/-! ## Parsers at one depth -/

/-- The parsers that a chain or an inner expression goes on with. -/
structure Parsers where
  /-- A whole expression. -/
  expr : Parser Expr
  /-- An operand of the tightest level. -/
  unary : Parser Expr
  /-- An operand of the level above the given ones. -/
  chain : List Level → Parser Expr
  /-- The rest of a chain of one level, whose operands are of the tighter ones. -/
  chainRest : Level → List Level → Expr → Parser Expr
  /-- The rest of a chain of postfix steps. -/
  postfixRest : Expr → Parser Expr

section

variable (depth : Nat) (deeper? : Option Parsers)

/-- Goes one level deeper, unless none is left. -/
def enter {α : Type} (body : Parsers → Parser α) : Parser α :=
  match deeper? with
  | some deeper => body deeper
  | none => fail (depth + 1) .tooDeep

/-- A whole expression. -/
def expr : Parser Expr :=
  enter depth deeper? fun deeper => deeper.chain levels

/-- Expressions with commas between them, up to a closing parenthesis.  A comma
may stand before it. -/
def arguments (argument : Parser Expr) : Nat → Parser (List Expr)
  | 0, tokens => fail depth (.unexpected (current tokens)) tokens
  | fuel + 1, tokens =>
      if current tokens = .sign .rightParen then .ok ([], tokens)
      else
        match argument tokens with
        | .error failure => .error failure
        | .ok (first, tokens) =>
            if current tokens = .sign .comma then
              (arguments argument fuel (advance tokens)).map fun (others, rest) =>
                (first :: others, rest)
            else if current tokens = .sign .rightParen then .ok ([first], tokens)
            else fail depth (.unexpected (current tokens)) tokens

/-- A single token, or an expression in parentheses. -/
def primary : Parser Expr := fun tokens =>
  match atom? (current tokens) (currentSpan tokens) with
  | some atom => .ok (atom, advance tokens)
  | none =>
      if current tokens = .sign .leftParen then
        match expr depth deeper? (advance tokens) with
        | .error failure => .error failure
        | .ok (inner, tokens) => (expect depth .rightParen tokens).map fun rest => (inner, rest)
      else
        fail depth (.unexpected (current tokens)) tokens

/-- The step `.name` behind an expression, read at its dot. -/
def memberStep (object : Expr) (deeper : Parsers) : Parser Expr := fun tokens =>
  let tokens := advance tokens
  match (current tokens).propertyName? with
  | some property =>
      deeper.postfixRest (.member object property (object.span.to (currentSpan tokens)))
        (advance tokens)
  | none => fail (depth + 1) (.missingProperty (current tokens)) tokens

/-- The step `[key]` behind an expression, read at its opening bracket. -/
def indexStep (object : Expr) (deeper : Parsers) : Parser Expr := fun tokens =>
  match deeper.expr (advance tokens) with
  | .error failure => .error failure
  | .ok (key, tokens) =>
      match expect (depth + 1) .rightBracket tokens with
      | .error failure => .error failure
      | .ok rest =>
          deeper.postfixRest (.index object key (object.span.to (currentSpan tokens))) rest

/-- The step `(arguments)` behind an expression, read at its opening
parenthesis. -/
def callStep (callee : Expr) (deeper : Parsers) : Parser Expr := fun tokens =>
  match callee with
  | .name text start =>
      let tokens := advance tokens
      match arguments (depth + 1) deeper.expr tokens.length tokens with
      | .error failure => .error failure
      | .ok (values, tokens) =>
          match expect (depth + 1) .rightParen tokens with
          | .error failure => .error failure
          | .ok rest =>
              deeper.postfixRest (.call text values (start.to (currentSpan tokens))) rest
  | _ => fail (depth + 1) .calleeNotName tokens

/-- The postfix steps behind an expression. -/
def postfixRest (left : Expr) : Parser Expr := fun tokens =>
  match current tokens with
  | .sign .dot => enter depth deeper? (memberStep depth left) tokens
  | .sign .leftBracket => enter depth deeper? (indexStep depth left) tokens
  | .sign .leftParen => enter depth deeper? (callStep depth left) tokens
  | _ => .ok (left, tokens)

/-- A primary expression and the postfix steps behind it. -/
def postfixChain : Parser Expr := fun tokens =>
  match primary depth deeper? tokens with
  | .error failure => .error failure
  | .ok (first, tokens) => postfixRest depth deeper? first tokens

/-- Prefix operators and what they apply to. -/
def unary : Parser Expr := fun tokens =>
  match unaryOp? (current tokens) with
  | none => postfixChain depth deeper? tokens
  | some op =>
      match enter depth deeper? (·.unary) (advance tokens) with
      | .error failure => .error failure
      | .ok (operand, rest) =>
          .ok (.unary op operand ((currentSpan tokens).to operand.span), rest)

/-- The rest of a chain of operators of one level. -/
def chainRest (level : Level) (tighter : List Level) (left : Expr) : Parser Expr := fun tokens =>
  match level.connective? (current tokens) with
  | none => .ok (left, tokens)
  | some connective =>
      enter depth deeper?
        (fun deeper tokens =>
          match deeper.chain tighter tokens with
          | .error failure => .error failure
          | .ok (right, tokens) =>
              deeper.chainRest level tighter (connective.join left right) tokens)
        (advance tokens)

/-- A chain of operators of the first of some levels, whose operands are of the
others. -/
def chain : List Level → Parser Expr
  | [], tokens => unary depth deeper? tokens
  | level :: tighter, tokens =>
      match chain tighter tokens with
      | .error failure => .error failure
      | .ok (first, tokens) => chainRest depth deeper? level tighter first tokens

/-- All parsers at one depth. -/
def parsersAbove : Parsers where
  expr := expr depth deeper?
  unary := unary depth deeper?
  chain := chain depth deeper?
  chainRest := chainRest depth deeper?
  postfixRest := postfixRest depth deeper?

end

/-- The parsers at a depth below which `left` levels are left. -/
def parsersAt : (left depth : Nat) → Parsers
  | 0, depth => parsersAbove depth none
  | left + 1, depth => parsersAbove depth (some (parsersAt left (depth + 1)))

/-- How far a text has been parsed. -/
structure State where
  /-- Levels of nesting left open by a failure. -/
  depth : Nat
  /-- Tokens left. -/
  tokens : List Token
  deriving DecidableEq

/-- The state before anything of a text is parsed. -/
def State.ofSource (source : String) : State :=
  ⟨0, tokenize source⟩

/-- Parses all tokens left as one expression.  After a failure, levels stay open
and the tokens at fault stay where they are. -/
def State.next (state : State) : Except SyntaxFailure Expr × State :=
  if current state.tokens = .endOfInput then
    (.error ⟨.nothing, state.depth, state.tokens⟩, state)
  else
    match (parsersAt (maxNesting - state.depth) state.depth).expr state.tokens with
    | .error failure => (.error failure, ⟨failure.depth, failure.rest⟩)
    | .ok (tree, rest) =>
        if current rest = .endOfInput then (.ok tree, ⟨state.depth, rest⟩)
        else (.error ⟨.unexpected (current rest), state.depth, rest⟩, ⟨state.depth, rest⟩)

/-- The error about a piece of an expression's text. -/
def errorAt (source : String) (span : Span) (message : String) : Error :=
  { cause := .malformed message span.line span.column (span.sourceLine source) }

/-- The error that a failure is. -/
def toError (failure : SyntaxFailure) (source : String) : Error :=
  errorAt source (currentSpan failure.rest) failure.fault.message

end Parse

/-- The expression that a text is. -/
def Expr.parse (source : String) : Except Error Expr :=
  ((Parse.State.ofSource source).next.1).mapError (Parse.toError · source)

end DataExpr
