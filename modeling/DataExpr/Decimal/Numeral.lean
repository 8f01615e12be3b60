import DataExpr.Decimal.Digits
import DataExpr.Decimal.Binary

/-!
# Decimal numerals

The grammar of decimal numerals, shared by everything that reads a number from
text: an optional sign, digits with at most one point among or beside them, and
an optional exponent.  At least one digit stands outside the exponent.

A numeral denotes `mantissa · 10 ^ exponent` exactly, and `toFloat` is the double
nearest to that, so the only rounding is the last step.  What may stand around a
numeral, and which numerals a reader refuses, is each reader's own rule.
-/

namespace DataExpr.Decimal

/-- The parts of an unsigned decimal numeral, exponent already read. -/
structure Numeral where
  /-- Digits before the point. -/
  whole : List Char
  /-- Digits after the point. -/
  fraction : List Char
  /-- The power of ten that scales the rest. -/
  exponent : Int
  deriving DecidableEq, Repr

namespace Numeral

/-- The digits read as one natural number, the point left out. -/
def mantissa (n : Numeral) : Nat :=
  natOfDigits (n.whole ++ n.fraction)

/-- The power of ten in which the mantissa counts. -/
def scale (n : Numeral) : Int :=
  n.exponent - n.fraction.length

/-- A number of `10 ^ 400` or more is beyond the doubles, and one below
`10 ^ -400` is nearest to zero. -/
def widestScale : Int := 400

/-- The double nearest to the numeral.  A numeral out of range on either side is
settled by its number of digits before any power of ten is formed. -/
def toFloat (n : Numeral) : Float :=
  let digits : Int := (Nat.toDigits 10 n.mantissa).length
  if n.mantissa = 0 then 0
  else if widestScale < digits + n.scale then 1 / 0
  else if digits + n.scale < -widestScale then 0
  else if n.scale = 0 then ofNat n.mantissa
  else Float.ofScientific n.mantissa (n.scale < 0) n.scale.natAbs

/-- Reads an exponent: the letter, an optional sign, and digits to the end.
Nothing at all is the exponent zero. -/
def exponentOfChars? : List Char → Option Int
  | [] => some 0
  | c :: cs =>
      if c = 'e' ∨ c = 'E' then
        let (negative, digits) :=
          match cs with
          | '-' :: digits => (true, digits)
          | '+' :: digits => (false, digits)
          | digits => (false, digits)
        if !digits.isEmpty ∧ digits.all Char.isDigit then
          some (if negative then -(natOfDigits digits : Int) else natOfDigits digits)
        else none
      else none

/-- Reads an unsigned numeral that is the whole text. -/
def ofChars? (cs : List Char) : Option Numeral :=
  let whole := cs.takeWhile Char.isDigit
  let rest := cs.dropWhile Char.isDigit
  let (fraction, rest) :=
    match rest with
    | '.' :: rest => (rest.takeWhile Char.isDigit, rest.dropWhile Char.isDigit)
    | rest => ([], rest)
  if whole.isEmpty ∧ fraction.isEmpty then none
  else (exponentOfChars? rest).map fun exponent => ⟨whole, fraction, exponent⟩

end Numeral

/-- Reads a numeral with an optional sign as the nearest double. -/
def readFloat? : List Char → Option Float
  | '-' :: cs => (Numeral.ofChars? cs).map fun n => -n.toFloat
  | '+' :: cs => (Numeral.ofChars? cs).map Numeral.toFloat
  | cs => (Numeral.ofChars? cs).map Numeral.toFloat

/-- The characters that decimal numerals are made of. -/
def isNumeralChar (c : Char) : Bool :=
  c.isDigit || c == '.' || c == 'e' || c == 'E' || c == '+' || c == '-'

end DataExpr.Decimal
