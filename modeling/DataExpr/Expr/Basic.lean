import DataExpr.Expr.Span
import DataExpr.Value.Basic

/-!
# Expressions

The tree of an expression.  Every node knows which piece of the text it covers.

`Expr.firstFreeName?` is the leftmost name that an expression looks up outside the
arguments of calls.  An expression without one needs nothing but its `this`.
-/

namespace DataExpr

/-- An operator in front of its operand. -/
inductive UnaryOp where
  | not
  | negate
  | plus
  deriving DecidableEq, Repr

/-- How the operator is written. -/
def UnaryOp.text : UnaryOp → String
  | .not => "!"
  | .negate => "-"
  | .plus => "+"

/-- An operator between two operands, both of which it needs. -/
inductive BinaryOp where
  | add
  | sub
  | mul
  | div
  | rem
  | less
  | lessEq
  | greater
  | greaterEq
  | looseEq
  | looseNe
  | strictEq
  | strictNe
  deriving DecidableEq, Repr

/-- How the operator is written. -/
def BinaryOp.text : BinaryOp → String
  | .add => "+"
  | .sub => "-"
  | .mul => "*"
  | .div => "/"
  | .rem => "%"
  | .less => "<"
  | .lessEq => "<="
  | .greater => ">"
  | .greaterEq => ">="
  | .looseEq => "=="
  | .looseNe => "!="
  | .strictEq => "==="
  | .strictNe => "!=="

/-- An operator that may leave its right operand aside. -/
inductive LogicalOp where
  | and
  | or
  deriving DecidableEq, Repr

/-- How the operator is written. -/
def LogicalOp.text : LogicalOp → String
  | .and => "&&"
  | .or => "||"

/-- An expression. -/
inductive Expr where
  /-- A value written out. -/
  | literal (value : Value) (span : Span)
  /-- The absence of a value. -/
  | undefined (span : Span)
  /-- A name. -/
  | name (text : String) (span : Span)
  /-- The context itself. -/
  | this (span : Span)
  /-- A property with a fixed name. -/
  | member (object : Expr) (property : String) (span : Span)
  /-- A property whose name is computed. -/
  | index (object key : Expr) (span : Span)
  /-- A helper called with arguments. -/
  | call (callee : String) (arguments : List Expr) (span : Span)
  /-- An operator with one operand. -/
  | unary (op : UnaryOp) (operand : Expr) (span : Span)
  /-- An operator with two operands. -/
  | binary (op : BinaryOp) (left right : Expr) (span : Span)
  /-- An operator that may leave its right operand aside. -/
  | logical (op : LogicalOp) (left right : Expr) (span : Span)
  deriving Inhabited

namespace Expr

/-- The piece of text that the expression covers. -/
def span : Expr → Span
  | .literal _ span | .undefined span | .name _ span | .this span => span
  | .member _ _ span | .index _ _ span | .call _ _ span => span
  | .unary _ _ span | .binary _ _ _ span | .logical _ _ _ span => span

/-- Whether the expression is a value written out, or the absence of one. -/
def isLiteral : Expr → Bool
  | .literal .. | .undefined _ => true
  | _ => false

/-- The first name that the expression looks up, a callee being one, with the
piece of text that shows it.  Arguments of calls are not searched. -/
def firstFreeName? : Expr → Option (String × Span)
  | .literal .. | .undefined _ | .this _ => none
  | .name text span => some (text, span)
  | .call callee _ span => some (callee, span)
  | .member object _ _ => object.firstFreeName?
  | .unary _ operand _ => operand.firstFreeName?
  | .index object key _ => object.firstFreeName?.or key.firstFreeName?
  | .binary _ left right _ | .logical _ left right _ =>
      left.firstFreeName?.or right.firstFreeName?

end Expr

end DataExpr
