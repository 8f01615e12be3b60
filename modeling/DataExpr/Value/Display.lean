import DataExpr.Decimal.Layout
import DataExpr.Text.Printable
import DataExpr.Value.Basic

/-!
# The text of a value

Two texts of a value: `Value.display` is the plain one, which a value contributes
when texts are joined and when it is written into a query, and `Value.describe`
shows the structure, with texts in quotes.
-/

namespace DataExpr

/-- Numbers are shown with their shortest digits, a tie going away from zero.
Decimal exponents from -6 to 20 are written positionally, and whole numbers
without a point. -/
def numberLayout : Decimal.Layout where
  leastPositional := -6
  greatestPositional := 20
  pointAlways := false
  tie := .awayFromZero

/-- The text of a number.  Zero has no sign. -/
def formatNumber (n : Float) : String :=
  match Decimal.Binary.ofFloat? n with
  | some b => if b.mantissa = 0 then "0" else numberLayout.write b
  | none => if n.isNaN then "NaN" else if 0 < n then "Infinity" else "-Infinity"

/-- The text of a truth value. -/
def formatBool (b : Bool) : String :=
  if b then "true" else "false"

namespace Value

mutual

/-- The plain text of a value.  A sequence is its items with commas between them,
null items left empty; a mapping shows nothing of its contents. -/
def display : Value → String
  | .null => "null"
  | .bool b => formatBool b
  | .number n => formatNumber n
  | .text s => s
  | .date instant => instant.text
  | .pattern p => p.text
  | .sequence items => ",".intercalate (displayItems items)
  | .mapping _ => "[object Object]"

/-- The texts that the items of a sequence contribute to its text. -/
def displayItems : List Value → List String
  | [] => []
  | .null :: items => "" :: displayItems items
  | item :: items => item.display :: displayItems items

end

mutual

/-- The text that shows how a value is made up. -/
def describe : Value → String
  | .null => "null"
  | .bool b => formatBool b
  | .number n => formatNumber n
  | .text s => Text.quote s
  | .date instant => "Date(" ++ instant.text ++ ")"
  | .pattern p => p.text
  | .sequence items => "[" ++ ", ".intercalate (describeItems items) ++ "]"
  | .mapping entries => "\x7b" ++ ", ".intercalate (describeEntries entries) ++ "\x7d"

/-- The texts of the items of a sequence. -/
def describeItems : List Value → List String
  | [] => []
  | item :: items => item.describe :: describeItems items

/-- The texts of the entries of a mapping. -/
def describeEntries : List (String × Value) → List String
  | [] => []
  | (key, item) :: entries => (Text.quote key ++ ": " ++ item.describe) :: describeEntries entries

end

end Value

end DataExpr
