import DataExpr.Decimal.Numeral
import DataExpr.Value.Basic

/-!
# Values read from JSON

Reads a JSON text as a value.  A text is refused when containers are nested more
than `maxNesting` deep.  A key that comes twice in an object keeps its first place
and takes its last value.

Integers that fit in 64 bits are read exactly and become the nearest doubles.
JSON does not say how any other numeral becomes a double.  Readers differ in how
often they round, and one that does so twice can miss the nearest double.  So the
reader of such numerals is an argument, `double?`, of which nothing is assumed
here; it also refuses what is out of range.  `read?` rounds once.

Scanners take the characters still to be read and give back a result with the
rest, or nothing.
-/

namespace DataExpr.Json

/-- How many containers may be open at the same time. -/
def maxNesting : Nat := 127

/-- Whether a character is white space between JSON tokens. -/
def isJsonBlank (c : Char) : Bool :=
  c == ' ' || c == '\n' || c == '\t' || c == '\r'

/-- Skips white space. -/
def skipBlanks (cs : List Char) : List Char :=
  cs.dropWhile isJsonBlank

/-- What follows the given characters. -/
def after? (expected : String) (cs : List Char) : Option (List Char) :=
  let chars := expected.toList
  if chars.isPrefixOf cs then some (cs.drop chars.length) else none

/-! ## Strings -/

/-- The number that four hexadecimal digits denote. -/
def readUnit? : List Char → Option (Nat × List Char)
  | a :: b :: c :: d :: cs => (Decimal.readRadix? 16 [a, b, c, d]).map fun unit => (unit, cs)
  | _ => none

/-- The character of a pair of surrogates. -/
def charOfPair (high low : Nat) : Char :=
  Char.ofNat (0x10000 + (high - 0xd800) * 0x400 + (low - 0xdc00))

/-- The character after `\u`.  Half of a surrogate pair needs its other half in a
second escape. -/
def readCodeEscape? (cs : List Char) : Option (Char × List Char) :=
  match readUnit? cs with
  | none => none
  | some (unit, cs) =>
      if 0xd800 ≤ unit ∧ unit < 0xdc00 then
        match cs with
        | '\\' :: 'u' :: cs =>
            match readUnit? cs with
            | some (low, cs) =>
                if 0xdc00 ≤ low ∧ low < 0xe000 then some (charOfPair unit low, cs) else none
            | none => none
        | _ => none
      else if 0xdc00 ≤ unit ∧ unit < 0xe000 then none
      else some (Char.ofNat unit, cs)

/-- The character an escape stands for, read behind its backslash. -/
def readEscape? : List Char → Option (Char × List Char)
  | '"' :: cs => some ('"', cs)
  | '\\' :: cs => some ('\\', cs)
  | '/' :: cs => some ('/', cs)
  | 'b' :: cs => some ('\x08', cs)
  | 'f' :: cs => some ('\x0c', cs)
  | 'n' :: cs => some ('\n', cs)
  | 'r' :: cs => some ('\r', cs)
  | 't' :: cs => some ('\t', cs)
  | 'u' :: cs => readCodeEscape? cs
  | _ => none

/-- The characters of a string up to its closing quote, at most `fuel` of
them. -/
def readChars? : Nat → List Char → Option (List Char × List Char)
  | 0, _ => none
  | _ + 1, [] => none
  | _ + 1, '"' :: cs => some ([], cs)
  | fuel + 1, '\\' :: cs =>
      match readEscape? cs with
      | some (c, cs) => (readChars? fuel cs).map fun (text, rest) => (c :: text, rest)
      | none => none
  | fuel + 1, c :: cs =>
      if c.toNat < 0x20 then none
      else (readChars? fuel cs).map fun (text, rest) => (c :: text, rest)

/-- The text of a string whose opening quote has been read. -/
def readText? (cs : List Char) : Option (String × List Char) :=
  (readChars? (cs.length + 1) cs).map fun (text, rest) => (String.ofList text, rest)

/-! ## Numbers -/

/-- The longest numeral at the front: digits, a fraction, an exponent. -/
def splitNumeral (cs : List Char) : List Char × List Char :=
  (cs.takeWhile Decimal.isNumeralChar, cs.dropWhile Decimal.isNumeralChar)

/-- Whether an unsigned numeral is one in JSON: no leading zero, and digits on
both sides of a point and in an exponent. -/
def isJsonNumeral (cs : List Char) : Bool :=
  let whole := cs.takeWhile Char.isDigit
  let rest := cs.dropWhile Char.isDigit
  let wholeOk :=
    match whole with
    | [] => false
    | ['0'] => true
    | c :: _ => c ≠ '0'
  let fractionOk :=
    match rest with
    | '.' :: c :: _ => c.isDigit
    | '.' :: [] => false
    | _ => true
  wholeOk && fractionOk && (Decimal.Numeral.ofChars? cs).isSome

/-- The integer that a numeral denotes, if it fits in 64 bits.  Behind a minus sign
one of them is the sign, and there is no negative zero. -/
def integer? : List Char → Option Int
  | '-' :: digits =>
      let n := Decimal.natOfDigits digits
      if digits.all Char.isDigit ∧ 0 < n ∧ n ≤ Nat.pow 2 63 then some (-n) else none
  | digits =>
      let n := Decimal.natOfDigits digits
      if digits.all Char.isDigit ∧ n < Nat.pow 2 64 then some n else none

/-- A numeral without its minus sign. -/
def unsigned : List Char → List Char
  | '-' :: cs => cs
  | cs => cs

/-- The number that a numeral denotes.  An integer becomes the nearest double, and
anything else is what `double?` says. -/
def number? (double? : List Char → Option Float) (numeral : List Char) : Option Float :=
  if isJsonNumeral (unsigned numeral) then
    match integer? numeral with
    | some i => some (Decimal.ofInt i)
    | none => double? numeral
  else none

/-- Reads a number. -/
def readNumber? (double? : List Char → Option Float) (cs : List Char) :
    Option (Float × List Char) :=
  let (numeral, rest) := splitNumeral cs
  (number? double? numeral).map fun n => (n, rest)

/-- The double nearest to a numeral, unless it is out of range. -/
def nearestDouble? (numeral : List Char) : Option Float :=
  (Decimal.readFloat? numeral).filter fun n => !n.isInf

/-! ## Values -/

/-- The items of an array up to its closing bracket, each read by `value?`. -/
def readItems? (value? : List Char → Option (Value × List Char)) :
    Nat → List Char → Option (List Value × List Char)
  | 0, _ => none
  | fuel + 1, cs =>
      match value? cs with
      | none => none
      | some (item, cs) =>
          match skipBlanks cs with
          | ',' :: cs =>
              (readItems? value? fuel cs).map fun (items, rest) => (item :: items, rest)
          | ']' :: cs => some ([item], cs)
          | _ => none

/-- The members of an object up to its closing brace, the value of each read by
`value?`. -/
def readMembers? (value? : List Char → Option (Value × List Char)) :
    Nat → List Char → Option (List (String × Value) × List Char)
  | 0, _ => none
  | fuel + 1, cs =>
      match skipBlanks cs with
      | '"' :: cs =>
          match readText? cs with
          | none => none
          | some (key, cs) =>
              match skipBlanks cs with
              | ':' :: cs =>
                  match value? cs with
                  | none => none
                  | some (item, cs) =>
                      match skipBlanks cs with
                      | ',' :: cs =>
                          (readMembers? value? fuel cs).map fun (members, rest) =>
                            ((key, item) :: members, rest)
                      | '\x7d' :: cs => some ([(key, item)], cs)
                      | _ => none
              | _ => none
      | _ => none

/-- Reads a value that is no container. -/
def readScalar? (double? : List Char → Option Float) (cs : List Char) :
    Option (Value × List Char) :=
  match cs with
  | '"' :: cs => (readText? cs).map fun (text, rest) => (.text text, rest)
  | 'n' :: _ => (after? "null" cs).map fun rest => (.null, rest)
  | 't' :: _ => (after? "true" cs).map fun rest => (.bool true, rest)
  | 'f' :: _ => (after? "false" cs).map fun rest => (.bool false, rest)
  | cs => (readNumber? double? cs).map fun (n, rest) => (.number n, rest)

/-- Reads a container whose opening character has been read as `opening`, its
contents by `value?`. -/
def readContainer? (value? : List Char → Option (Value × List Char)) (opening : Char)
    (cs : List Char) : Option (Value × List Char) :=
  if opening = '[' then
    match skipBlanks cs with
    | ']' :: cs => some (.sequence [], cs)
    | cs => (readItems? value? (cs.length + 1) cs).map fun (items, rest) => (.sequence items, rest)
  else
    match skipBlanks cs with
    | '\x7d' :: cs => some (.mapping [], cs)
    | cs =>
        (readMembers? value? (cs.length + 1) cs).map fun (members, rest) =>
          (Value.ofPairs members, rest)

/-- Reads a value with at most `nesting` containers inside one another. -/
def readValue? (double? : List Char → Option Float) :
    Nat → List Char → Option (Value × List Char)
  | 0, cs =>
      match skipBlanks cs with
      | '[' :: _ | '\x7b' :: _ => none
      | cs => readScalar? double? cs
  | nesting + 1, cs =>
      match skipBlanks cs with
      | '[' :: cs => readContainer? (readValue? double? nesting) '[' cs
      | '\x7b' :: cs => readContainer? (readValue? double? nesting) '\x7b' cs
      | cs => readScalar? double? cs

/-- The value of a JSON text whose numerals, integers apart, are read by `double?`. -/
def readWith? (double? : List Char → Option Float) (text : String) : Option Value :=
  match readValue? double? maxNesting text.toList with
  | some (value, rest) => if (skipBlanks rest).isEmpty then some value else none
  | none => none

/-- The value of a JSON text, every number being rounded once. -/
def read? (text : String) : Option Value :=
  readWith? nearestDouble? text

end DataExpr.Json
