import DataExpr.Value.Display

/-!
# Values written as JSON

The compact JSON text of a value.  JSON has no dates and patterns, so both are
written as the texts they display; numbers that JSON cannot hold are written as
null.  A whole number that a double holds with certainty is written without a
point.
-/

namespace DataExpr.Json

/-- Numbers that are not written as integers have their shortest digits, a tie
going to the even digit.  Decimal exponents from -5 to 15 are written
positionally, always with a point. -/
def fractionLayout : Decimal.Layout where
  leastPositional := -5
  greatestPositional := 15
  pointAlways := true
  tie := .toEven

/-- An integer in decimal digits. -/
def writeInt (n : Int) : String :=
  if n < 0 then "-" ++ Nat.repr n.natAbs else Nat.repr n.natAbs

/-- A number.  The sign of zero is lost. -/
def writeNumber (n : Float) : String :=
  match Decimal.Binary.ofFloat? n with
  | none => "null"
  | some b =>
      match b.toInt? with
      | some i => if i.natAbs < Decimal.exactLimit then writeInt i else fractionLayout.write b
      | none => fractionLayout.write b

/-- A character as it stands in a JSON string.  Quotes, backslashes and control
characters are escaped, the latter with a letter where there is one. -/
def escapeChar (c : Char) : List Char :=
  match c with
  | '"' => ['\\', '"']
  | '\\' => ['\\', '\\']
  | '\x08' => ['\\', 'b']
  | '\x0c' => ['\\', 'f']
  | '\n' => ['\\', 'n']
  | '\r' => ['\\', 'r']
  | '\t' => ['\\', 't']
  | c =>
      if c.toNat < 0x20 then
        ['\\', 'u', '0', '0', Nat.digitChar (c.toNat / 16), Nat.digitChar (c.toNat % 16)]
      else [c]

/-- A JSON string. -/
def writeText (text : String) : String :=
  String.ofList ('"' :: (text.toList.flatMap escapeChar ++ ['"']))

mutual

/-- The JSON text of a value. -/
def write : Value → String
  | .null => "null"
  | .bool b => formatBool b
  | .number n => writeNumber n
  | .text s => writeText s
  | .date instant => writeText instant.text
  | .pattern p => writeText p.text
  | .sequence items => "[" ++ ",".intercalate (writeItems items) ++ "]"
  | .mapping entries => "\x7b" ++ ",".intercalate (writeEntries entries) ++ "\x7d"

/-- The JSON texts of the items of a sequence. -/
def writeItems : List Value → List String
  | [] => []
  | item :: items => write item :: writeItems items

/-- The members of a JSON object. -/
def writeEntries : List (String × Value) → List String
  | [] => []
  | (key, item) :: entries => (writeText key ++ ":" ++ write item) :: writeEntries entries

end

end DataExpr.Json
