import DataExpr.Evaluator.Registry
import DataExpr.Expr.Parser

/-!
# Evaluation

Evaluates expressions against a context value.  The keys of a mapping are bound as
names, `this` is the context itself, and calls go to the helpers of the evaluator.

Two kinds of failure are told apart.  An expression whose text is at fault, or
that names something where the context binds no names at all, fails for the
caller.  Every other failure is noted and gives way to the caller's fallback.

Evaluation is a recursion on the number of levels that are left.  A node uses one
level for its parts, and a helper uses one for the expressions it evaluates, so
the limit spans helpers that call each other.
-/

namespace DataExpr

/-- The settings of an evaluator. -/
structure EvaluatorConfig where
  /-- How deep evaluation may go, the outermost node being at depth zero. -/
  maxDepth : Nat := 256
  /-- Whether the keys of a mapping are bound as names. -/
  bindContextKeys : Bool := true
  deriving DecidableEq, Repr

/-- Settings under which only `this` and helpers can be seen. -/
def EvaluatorConfig.thisOnly : EvaluatorConfig :=
  { bindContextKeys := false }

/-- Helpers and settings for evaluation. -/
structure Evaluator where
  /-- The helpers that expressions can call. -/
  helpers : Registry := .standard
  /-- The settings. -/
  config : EvaluatorConfig := {}

/-- What an expression can see of its context. -/
structure Scope where
  /-- The context itself. -/
  this : Value
  /-- What is bound to names, if names are bound at all. -/
  bindings? : Option (Entries Value)

/-- The value bound to a name. -/
def Scope.get? (scope : Scope) (name : String) : Option Value :=
  scope.bindings?.bind (Entries.get? · name)

/-! ## Properties -/

/-- A property of a sequence: its length, or an item by canonical position. -/
def sequenceProperty (items : List Value) (key : String) : Operand :=
  if key = "length" then some (.ofNat items.length)
  else (Decimal.readIndex? key).bind fun i => items[i]?

/-- A property of a text, counted in UTF-16 units: its length, or the text of one
unit by canonical position. -/
def textProperty (text : String) (key : String) : Operand :=
  let units := Text.units text
  if key = "length" then some (.ofNat units.length)
  else
    ((Decimal.readIndex? key).bind fun i => units[i]?).map fun unit =>
      .text (String.singleton (Text.charOfUnit unit))

/-- A property of a pattern. -/
def patternProperty (pattern : Pattern) (key : String) : Operand :=
  match key with
  | "source" => some (.text pattern.source)
  | "flags" => some (.text pattern.flags)
  | "global" => some (.bool (pattern.hasFlag 'g'))
  | "ignoreCase" => some (.bool (pattern.hasFlag 'i'))
  | "multiline" => some (.bool (pattern.hasFlag 'm'))
  | _ => none

/-- A property of an operand.  Null and nothing have none, and reading one is an
error; what a value does not have is nothing. -/
def property (target : Operand) (key : String) : Except Error Operand :=
  match target with
  | none => .error { cause := .missingTarget key "undefined" }
  | some .null => .error { cause := .missingTarget key "null" }
  | some (.mapping entries) => .ok (Entries.get? entries key)
  | some (.sequence items) => .ok (sequenceProperty items key)
  | some (.text text) => .ok (textProperty text key)
  | some (.pattern pattern) => .ok (patternProperty pattern key)
  | some (.bool _) | some (.number _) | some (.date _) => .ok none

/-! ## Operators -/

/-- The value of a prefix operator. -/
def UnaryOp.apply (op : UnaryOp) (operand : Operand) : Value :=
  match op with
  | .not => .bool (!operand.isTruthy)
  | .negate => .number (-operand.toNumber)
  | .plus => .number operand.toNumber

/-- The sum of two numbers, or two texts joined. -/
def addOperands (left right : Operand) : Value :=
  if left.concatenates || right.concatenates then .text (left.toText ++ right.toText)
  else .number (left.toNumber + right.toNumber)

/-- The value of an operator between two operands. -/
def BinaryOp.apply (op : BinaryOp) (left right : Operand) : Value :=
  match op with
  | .add => addOperands left right
  | .sub => .number (left.toNumber - right.toNumber)
  | .mul => .number (left.toNumber * right.toNumber)
  | .div => .number (left.toNumber / right.toNumber)
  | .rem => .number (Decimal.remainder left.toNumber right.toNumber)
  | .less => .bool (left.compare? right = some .lt)
  | .lessEq => .bool (left.compare? right = some .lt ∨ left.compare? right = some .eq)
  | .greater => .bool (left.compare? right = some .gt)
  | .greaterEq => .bool (left.compare? right = some .gt ∨ left.compare? right = some .eq)
  | .looseEq => .bool (left.looseEqual right)
  | .looseNe => .bool (!left.looseEqual right)
  | .strictEq => .bool (left.strictEqual right)
  | .strictNe => .bool (!left.strictEqual right)

/-- Whether the left operand decides the value of a logical operator. -/
def LogicalOp.isDecidedBy (op : LogicalOp) (left : Operand) : Bool :=
  match op with
  | .and => !left.isTruthy
  | .or => left.isTruthy

namespace Evaluator

/-! ## Names -/

/-- What an expression sees of a context. -/
def scope (ev : Evaluator) (context : Value) : Scope :=
  ⟨context, if ev.config.bindContextKeys then context.asMapping? else none⟩

/-- The value of a name. -/
def lookup (ev : Evaluator) (scope : Scope) (name : String) : Except Error Operand :=
  match scope.get? name with
  | some value => .ok (some value)
  | none =>
      if ev.helpers.has name then
        .error { cause := .helperFailed name "helpers can only be called" }
      else
        .error { cause := .undefinedName name }

/-- The helper that a call reaches.  A bound name hides the helper. -/
def callee (ev : Evaluator) (scope : Scope) (name : String) : Except Error Helper :=
  if (scope.get? name).isSome then .error { cause := .notCallable name }
  else
    match ev.helpers.get? name with
    | some helper => .ok helper
    | none => .error { cause := .undefinedName name }

/-! ## Texts and trees -/

/-- Whether an expression may use names against this context. -/
def allowsNames : Value → Bool
  | .sequence _ | .mapping _ | .date _ | .pattern _ => true
  | _ => false

/-- The tree of an expression's text that is to be evaluated against a
context. -/
def prepare (source : String) (context : Value) : Except Error Expr :=
  match Expr.parse source with
  | .error error => .error (error.inSource source)
  | .ok tree =>
      match if allowsNames context then none else tree.firstFreeName? with
      | some (name, span) =>
          let message :=
            name ++ " cannot be resolved against a " ++ context.kind.name ++ " context"
          .error ((Parse.errorAt source span message).inSource source)
      | none => .ok tree

/-- Events for the keys that no name can spell. -/
def noteUnbindable (scope : Scope) : Logged Unit :=
  Logged.note <|
    ((Entries.keys (scope.bindings?.getD [])).filter (!isIdentifier ·)).map .unbindableKey

/-- Puts the fallback in place of a failure, which is noted. -/
def recover (source : String) (fallback? : Option Value) (x : Eval Operand) : Eval Operand :=
  ExceptT.mk do
    match ← x.run with
    | .ok value => return .ok value
    | .error error =>
        let event :=
          if fallback?.isSome then Event.usedFallback source error.message
          else Event.evaluationFailed source error.message
        Logged.note [event]
        return .ok fallback?

/-- Evaluates the text of an expression, given how trees are evaluated. -/
def evaluateBy (ev : Evaluator) (evalTree : Scope → Expr → Eval Operand) (source : String)
    (context : Value) (fallback? : Option Value) : Eval Operand := do
  let tree ← Eval.ofExcept (prepare source context)
  let scope := ev.scope context
  Eval.ofLogged (noteUnbindable scope)
  recover source fallback? (evalTree scope tree)

/-- Evaluates a tree with `left` levels left, the level of its root included. -/
def eval (ev : Evaluator) : (left : Nat) → Scope → Expr → Eval Operand
  | 0, _, _ => throw { cause := .tooDeep ev.config.maxDepth }
  | left + 1, scope, expr =>
      match expr with
      | .literal value _ => return some value
      | .undefined _ => return none
      | .this _ => return some scope.this
      | .name text _ => Eval.ofExcept (ev.lookup scope text)
      | .member object key _ => do
          let target ← ev.eval left scope object
          Eval.ofExcept (property target key)
      | .index object key _ => do
          let target ← ev.eval left scope object
          let key ← ev.eval left scope key
          Eval.ofExcept (property target key.toText)
      | .call name arguments _ => do
          let helper ← Eval.ofExcept (ev.callee scope name)
          let values ← arguments.mapM fun argument => do
            let operand ← ev.eval left scope argument
            return operand.getD .null
          let call : Call :=
            { name
              depth := ev.config.maxDepth - left
              maxDepth := ev.config.maxDepth
              helperNames := ev.helpers.names
              evaluate := ev.evaluateBy (ev.eval left) }
          (helper values call).mapError (·.inHelper name)
      | .unary op operand _ => do
          let value ← ev.eval left scope operand
          return some (op.apply value)
      | .binary op first second _ => do
          let a ← ev.eval left scope first
          let b ← ev.eval left scope second
          return some (op.apply a b)
      | .logical op first second _ => do
          let a ← ev.eval left scope first
          if op.isDecidedBy a then return a else ev.eval left scope second

/-- Evaluates a tree against a context.  Failures are the caller's. -/
def evaluateTree (ev : Evaluator) (tree : Expr) (context : Value) : Eval Operand :=
  ev.eval (ev.config.maxDepth + 1) (ev.scope context) tree

/-- Evaluates the text of an expression against a context, with a fallback for
failures. -/
def evaluate (ev : Evaluator) (source : String) (context : Value)
    (fallback? : Option Value) : Eval Operand :=
  ev.evaluateBy (ev.eval (ev.config.maxDepth + 1)) source context fallback?

end Evaluator

/-- Evaluates the text of an expression with the standard helpers and
settings. -/
def evaluate (source : String) (context : Value) (fallback? : Option Value) : Eval Operand :=
  ({} : Evaluator).evaluate source context fallback?

end DataExpr
