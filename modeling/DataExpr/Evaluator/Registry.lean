import DataExpr.Error
import DataExpr.Logged
import DataExpr.Operand

/-!
# Helpers

The functions that an expression can call.  A helper gets the values of its
arguments together with a `Call`: what it may know of the evaluation around it,
and the only way for it to evaluate expressions of its own.

A `Registry` files helpers under their names.  It is plain data, handed to an
evaluator; nothing is looked up anywhere else.
-/

namespace DataExpr

/-- A computation that may note events and may fail.  Events before a failure are
kept. -/
abbrev Eval (α : Type) := ExceptT Error Logged α

namespace Eval

variable {α β : Type}

/-- How the computation ends, its events left aside. -/
def result (x : Eval α) : Except Error α := x.run.value

/-- The events of the computation. -/
def events (x : Eval α) : List Event := x.run.events

/-- A computation that notes nothing. -/
def ofExcept (r : Except Error α) : Eval α := ExceptT.mk (pure r)

/-- A computation that cannot fail. -/
def ofLogged (x : Logged α) : Eval α := ExceptT.lift x

/-- Changes the error of a computation that fails. -/
def mapError (f : Error → Error) (x : Eval α) : Eval α :=
  ExceptT.mk ((Except.mapError f ·) <$> x.run)

@[simp] theorem result_pure (a : α) : (pure a : Eval α).result = .ok a := rfl

@[simp] theorem result_throw (e : Error) : (throw e : Eval α).result = .error e := rfl

@[simp] theorem result_ofExcept (r : Except Error α) : (ofExcept r).result = r := rfl

@[simp] theorem result_mapError (f : Error → Error) (x : Eval α) :
    (x.mapError f).result = x.result.mapError f := rfl

@[simp] theorem result_ofLogged (x : Logged α) : (ofLogged x).result = .ok x.value := rfl

@[simp] theorem result_bind (x : Eval α) (f : α → Eval β) :
    (x >>= f).result = x.result >>= fun a => (f a).result := by
  simp only [result, bind, ExceptT.bind, ExceptT.mk, ExceptT.run, ExceptT.bindCont, Logged.bind]
  cases Logged.value x <;> rfl

end Eval

/-- What a helper knows of the evaluation that called it. -/
structure Call where
  /-- The name by which the helper was called. -/
  name : String
  /-- How deep in the evaluation the call stands. -/
  depth : Nat
  /-- How deep evaluation may go. -/
  maxDepth : Nat
  /-- The names of all helpers, in order. -/
  helperNames : List String
  /-- Evaluates an expression against a context, one level deeper than the call.
  The fallback takes the place of a failure. -/
  evaluate : (source : String) → (context : Value) → (fallback? : Option Value) → Eval Operand

/-- A function that expressions can call.  Arguments that are nothing arrive as
null. -/
abbrev Helper := List Value → Call → Eval Operand

/-- Helpers under their names. -/
structure Registry where
  /-- The helpers by name. -/
  helpers : Entries Helper := []

namespace Registry

/-- No helpers. -/
def empty : Registry := {}

/-- The helper with a name. -/
def get? (registry : Registry) (name : String) : Option Helper :=
  Entries.get? registry.helpers name

/-- Whether there is a helper with a name. -/
def has (registry : Registry) (name : String) : Bool :=
  (registry.get? name).isSome

/-- Adds a helper, in place of any other with the name. -/
def register (registry : Registry) (name : String) (helper : Helper) : Registry :=
  ⟨Entries.insert registry.helpers name helper⟩

/-- Adds all helpers of another registry. -/
def extend (registry other : Registry) : Registry :=
  other.helpers.foldl (fun registry (name, helper) => registry.register name helper) registry

/-- All names, in the order of their characters. -/
def names (registry : Registry) : List String :=
  (Entries.keys registry.helpers).mergeSort fun a b => a ≤ b

/-- How many helpers there are. -/
def size (registry : Registry) : Nat :=
  registry.helpers.length

/-- The names of all helpers in quotes, as a set. -/
def describe (registry : Registry) : String :=
  "\x7b" ++ ", ".intercalate (registry.names.map Text.quote) ++ "\x7d"

/-- `getObjectValue(path, object, fallback?)` evaluates an expression against an
object. -/
def getObjectValue : Helper := fun arguments call =>
  call.evaluate (Operand.toText arguments.head?) (arguments[1]?.getD .null) arguments[2]?

/-- The helpers that every expression can use. -/
def standard : Registry :=
  empty.register "getObjectValue" getObjectValue

end Registry

end DataExpr
