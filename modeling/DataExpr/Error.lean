/-!
# Errors

What can go wrong with an expression, where it went wrong, and how that is put
into words.

A `Cause` says what happened and nothing else; `Cause.message` is its wording.
An `Origin` says which expression was at fault and through which helper calls the
error came.  Only causes of the kind `malformed` belong to an expression's text;
all others arise while it is evaluated.
-/

namespace DataExpr

/-- What went wrong. -/
inductive Cause where
  /-- The text of an expression is at fault, at a line and column of it; the whole
  line is kept. -/
  | malformed (message : String) (line column : Nat) (sourceLine : String)
  /-- A name stands for nothing. -/
  | undefinedName (name : String)
  /-- An operation was given a value of a kind it cannot work on. -/
  | kindMismatch (operation actual : String)
  /-- A property of nothing was read; the target is the word for this nothing. -/
  | missingTarget (property target : String)
  /-- Something was called that is a value. -/
  | notCallable (name : String)
  /-- A helper refused its arguments or was misused. -/
  | helperFailed (helper message : String)
  /-- Evaluation went deeper than the limit. -/
  | tooDeep (limit : Nat)
  /-- A pattern could not be made. -/
  | badPattern (message : String)
  deriving DecidableEq, Repr

namespace Cause

/-- Whether the text of an expression is at fault. -/
def isMalformed : Cause → Bool
  | .malformed .. => true
  | _ => false

/-- The cause in words. -/
def message : Cause → String
  | .malformed message line column _ =>
      "compile error at " ++ Nat.repr line ++ ":" ++ Nat.repr column ++ ": " ++ message
  | .undefinedName name => name ++ " is not defined"
  | .kindMismatch operation actual =>
      "type mismatch: cannot apply " ++ operation ++ " to " ++ actual
  | .missingTarget property target =>
      "cannot read property '" ++ property ++ "' of " ++ target
  | .notCallable name => name ++ " is not a function"
  | .helperFailed helper message => "helper " ++ helper ++ " failed: " ++ message
  | .tooDeep limit => "maximum evaluation depth (" ++ Nat.repr limit ++ ") exceeded"
  | .badPattern message => "invalid pattern: " ++ message

end Cause

/-- Where an error came from. -/
structure Origin where
  /-- The text of the expression. -/
  source? : Option String := none
  /-- The line in that text. -/
  line? : Option Nat := none
  /-- The column in that line. -/
  column? : Option Nat := none
  /-- The helpers that the error passed through, innermost first. -/
  frames : List String := []
  deriving DecidableEq, Repr

namespace Origin

/-- Puts one more helper behind those the error passed through. -/
def addFrame (origin : Origin) (helper : String) : Origin :=
  { origin with frames := origin.frames ++ [helper] }

/-- The origin in words.  A position is told only if line and column are both known,
and only together with the text it belongs to. -/
def describe (origin : Origin) : String :=
  let place :=
    match origin.source?, origin.line?, origin.column? with
    | some source, some line, some column =>
        "in `" ++ source ++ "` at " ++ Nat.repr line ++ ":" ++ Nat.repr column
    | some source, _, _ => "in `" ++ source ++ "`"
    | none, _, _ => ""
  let frames := origin.frames.map fun frame => "  in " ++ frame ++ "\n"
  if frames.isEmpty then place else place ++ "\n" ++ String.join frames

end Origin

/-- A cause together with its origin, as far as that is known. -/
structure Error where
  /-- What went wrong. -/
  cause : Cause
  /-- Where it came from. -/
  origin? : Option Origin := none
  deriving DecidableEq, Repr

namespace Error

/-- Whether the text of an expression is at fault. -/
def isMalformed (error : Error) : Bool :=
  error.cause.isMalformed

/-- The error in words. -/
def message (error : Error) : String :=
  error.cause.message

/-- Says which expression the error is about.  An error in the expression's text
also gets its position. -/
def inSource (error : Error) (source : String) : Error :=
  let origin : Origin :=
    match error.cause with
    | .malformed _ line column _ =>
        { source? := some source, line? := some line, column? := some column }
    | _ => { source? := some source }
  { error with origin? := some origin }

/-- Records that the error came out of a helper.  If the helper came upon a
malformed expression then it is the helper that failed, because the expression
around it is well-formed. -/
def inHelper (error : Error) (helper : String) : Error :=
  let cause :=
    match error.cause with
    | .malformed .. => .helperFailed helper error.cause.message
    | cause => cause
  { cause, origin? := some ((error.origin?.getD {}).addFrame helper) }

end Error

end DataExpr
