import DataExpr.Calendar.Instant
import DataExpr.Decimal.Binary
import DataExpr.Pattern.Basic
import DataExpr.Value.Entries

/-!
# Values

The values that expressions work on and queries carry: null, booleans, numbers,
texts, dates, patterns, sequences, and mappings with text keys in a fixed order.

`Kind` is the coarse classification of values.  It tells apart what a plain test
for "an object" would lump together.
-/

namespace DataExpr

/-- A value. -/
inductive Value where
  /-- No value. -/
  | null
  /-- A truth value. -/
  | bool (b : Bool)
  /-- A double-precision number. -/
  | number (n : Float)
  /-- A text. -/
  | text (s : String)
  /-- A point in time. -/
  | date (instant : Calendar.Instant)
  /-- A regular expression. -/
  | pattern (p : Pattern)
  /-- Values in order. -/
  | sequence (items : List Value)
  /-- Values under text keys, in order. -/
  | mapping (entries : List (String × Value))
  deriving Inhabited

/-- What sort of value a value is. -/
inductive Kind where
  | null
  | array
  | date
  | regex
  | object
  | boolean
  | number
  | string
  deriving DecidableEq, Repr

namespace Kind

/-- The name of a kind. -/
def name : Kind → String
  | .null => "null"
  | .array => "array"
  | .date => "date"
  | .regex => "regex"
  | .object => "object"
  | .boolean => "boolean"
  | .number => "number"
  | .string => "string"

/-- Whether values of this kind are containers or look like them: all kinds but
booleans, numbers and texts. -/
def isObjectLike : Kind → Bool
  | .null | .array | .date | .regex | .object => true
  | .boolean | .number | .string => false

/-- Whether values of this kind are booleans, numbers or texts. -/
def isPrimitive : Kind → Bool
  | .boolean | .number | .string => true
  | .null | .array | .date | .regex | .object => false

end Kind

namespace Value

/-- The kind of a value. -/
def kind : Value → Kind
  | .null => .null
  | .bool _ => .boolean
  | .number _ => .number
  | .text _ => .string
  | .date _ => .date
  | .pattern _ => .regex
  | .sequence _ => .array
  | .mapping _ => .object

/-- The number that counts something. -/
def ofNat (n : Nat) : Value :=
  .number (Decimal.ofNat n)

/-- A mapping from pairs; a repeated key keeps its first place and takes its
last value. -/
def ofPairs (pairs : List (String × Value)) : Value :=
  .mapping (Entries.ofPairs pairs)

/-- Whether the value is null. -/
def isNull : Value → Bool
  | .null => true
  | _ => false

/-- Whether the value counts as true.  Null, `false`, the number zero, `NaN` and
the empty text do not; containers, dates and patterns always do. -/
def isTruthy : Value → Bool
  | .null => false
  | .bool b => b
  | .number n => !(n == 0) && !n.isNaN
  | .text s => !s.isEmpty
  | .date _ | .pattern _ | .sequence _ | .mapping _ => true

/-- What a mapping has under a key; other values have nothing. -/
def get? (value : Value) (key : String) : Option Value :=
  match value with
  | .mapping entries => Entries.get? entries key
  | _ => none

/-- Whether the value reports a failed request: a mapping in which a status
code, an error and a message are all set. -/
def isErrorObject (value : Value) : Bool :=
  ["statusCode", "error", "message"].all fun field => (value.get? field).any isTruthy

/-! ## Access by kind -/

/-- The truth value of a boolean. -/
def asBool? : Value → Option Bool
  | .bool b => some b
  | _ => none

/-- The number of a number. -/
def asNumber? : Value → Option Float
  | .number n => some n
  | _ => none

/-- The text of a text. -/
def asText? : Value → Option String
  | .text s => some s
  | _ => none

/-- The instant of a date. -/
def asDate? : Value → Option Calendar.Instant
  | .date instant => some instant
  | _ => none

/-- The pattern of a pattern. -/
def asPattern? : Value → Option Pattern
  | .pattern p => some p
  | _ => none

/-- The items of a sequence. -/
def asSequence? : Value → Option (List Value)
  | .sequence items => some items
  | _ => none

/-- The entries of a mapping. -/
def asMapping? : Value → Option (Entries Value)
  | .mapping entries => some entries
  | _ => none

/-! ## Well-formed values -/

mutual

/-- No mapping in the value has a key twice. -/
def WellFormed : Value → Prop
  | .sequence items => itemsWellFormed items
  | .mapping entries => Entries.Unique entries ∧ entriesWellFormed entries
  | _ => True

/-- All items are well-formed. -/
def itemsWellFormed : List Value → Prop
  | [] => True
  | item :: items => item.WellFormed ∧ itemsWellFormed items

/-- All values of the entries are well-formed. -/
def entriesWellFormed : List (String × Value) → Prop
  | [] => True
  | (_, item) :: entries => item.WellFormed ∧ entriesWellFormed entries

end

end Value

end DataExpr
