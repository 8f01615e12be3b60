import DataExpr.Calendar.Notation
import DataExpr.Decimal.Numeral
import DataExpr.Query.Config
import DataExpr.Value.Basic

/-!
# Types of decoded texts

The values of a query are texts.  Inference takes a text for the number, truth
value or date that it spells, tried in this order, and leaves all others as they
are.
-/

namespace DataExpr

/-- A text with the type it was taken for. -/
inductive TypedText where
  /-- A finite decimal number. -/
  | number (n : Float)
  /-- A truth value. -/
  | boolean (b : Bool)
  /-- A date, with or without a time. -/
  | date (instant : Calendar.Instant)
  /-- A text that is nothing else. -/
  | text (s : String)

namespace TypedText

/-- The value that a typed text is. -/
def toValue : TypedText → Value
  | .number n => .number n
  | .boolean b => .bool b
  | .date instant => .date instant
  | .text s => .text s

/-- Reads a finite decimal number.  White space around it does not matter; there
is no other way of writing numbers. -/
def readNumber? (text : String) : Option Float :=
  let cs := Text.trim text.toList
  if cs.all Decimal.isNumeralChar then (Decimal.readFloat? cs).filter Float.isFinite else none

/-- Reads `true` or `false` in any mixture of cases. -/
def readBool? (text : String) : Option Bool :=
  let cs := text.toList.map Char.toLower
  if cs = "true".toList then some true
  else if cs = "false".toList then some false
  else none

/-- Reads a truth value, taking a default for what is none. -/
def boolOr (text : String) (default : Bool) : Bool :=
  (readBool? text).getD default

/-- The type that a text is taken for. -/
def infer (config : QueryConfig) (text : String) : TypedText :=
  if !config.inferTypes then .text text
  else
    match readNumber? text, readBool? text with
    | some n, _ => .number n
    | none, some b => .boolean b
    | none, none =>
        match if config.inferDates then Calendar.readDate? text else none with
        | some instant => .date instant
        | none => .text text

end TypedText

/-- The value that a text is taken for. -/
def typedValue (text : String) : Value :=
  (TypedText.infer {} text).toValue

end DataExpr
