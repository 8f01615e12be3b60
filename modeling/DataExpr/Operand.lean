import DataExpr.Decimal.Numeral
import DataExpr.Text.Basic
import DataExpr.Value.Display
import DataExpr.Value.Equality

/-!
# Operands

What operators make of their operands.  An operand is a value or nothing, and
nothing is what an undefined expression gives.

Each operator converts its operands to what it works on: numbers, texts or truth
values.  Ordering has two regimes: operands that are both texts or shown as texts
are compared by their UTF-16 units, and all others by their numbers.
-/

namespace DataExpr

/-- A value, or nothing. -/
abbrev Operand := Option Value

/-! ## Numbers in texts -/

/-- Reads digits behind a radix prefix.  They carry no sign and denote less than
`2 ^ 64`. -/
def numberOfDigits (base : Nat) (digits : List Char) : Float :=
  match Decimal.readRadix? base digits with
  | some n => if n < Nat.pow 2 64 then Decimal.ofNat n else 0 / 0
  | none => 0 / 0

/-- The number that a text means.  White space around it does not matter, and
the empty text means zero.  `0x`, `0o` and `0b` announce digits of another base.
What is no number otherwise means `NaN`. -/
def numberOfText (text : String) : Float :=
  match Text.trim text.toList with
  | [] => 0
  | '0' :: 'x' :: digits | '0' :: 'X' :: digits => numberOfDigits 16 digits
  | '0' :: 'o' :: digits | '0' :: 'O' :: digits => numberOfDigits 8 digits
  | '0' :: 'b' :: digits | '0' :: 'B' :: digits => numberOfDigits 2 digits
  | cs =>
      if cs = "Infinity".toList ∨ cs = "+Infinity".toList then 1 / 0
      else if cs = "-Infinity".toList then -(1 / 0)
      else if cs.all Decimal.isNumeralChar then (Decimal.readFloat? cs).getD (0 / 0)
      else 0 / 0

/-- The number zero or one that a truth value stands for. -/
def numberOfBool (b : Bool) : Float :=
  if b then 1 else 0

/-- Orders two numbers.  `NaN` has no order. -/
def compareNumbers (a b : Float) : Option Ordering :=
  if a < b then some .lt
  else if b < a then some .gt
  else if a == b then some .eq
  else none

namespace Operand

/-- Whether the operand counts as true. -/
def isTruthy (operand : Operand) : Bool :=
  operand.any Value.isTruthy

/-- The number an operand means. -/
def toNumber : Operand → Float
  | none => 0 / 0
  | some .null => 0
  | some (.bool b) => numberOfBool b
  | some (.number n) => n
  | some (.text s) => numberOfText s
  | some (.date instant) => Decimal.ofInt instant.toMillis
  | some value => numberOfText value.display

/-- The text an operand means, also when it selects a property. -/
def toText : Operand → String
  | none => "undefined"
  | some value => value.display

/-- Whether addition joins texts when this operand is one of the two. -/
def concatenates : Operand → Bool
  | some (.text _) | some (.sequence _) | some (.mapping _) => true
  | some (.pattern _) | some (.date _) => true
  | _ => false

/-- Whether the operand is ordered by its text. -/
def comparesAsText : Operand → Bool
  | some (.text _) | some (.sequence _) | some (.mapping _) | some (.pattern _) => true
  | _ => false

/-- Orders two operands, unless one of them means `NaN`. -/
def compare? (left right : Operand) : Option Ordering :=
  if left.comparesAsText && right.comparesAsText then
    some (Text.compareUnits (Text.units left.toText) (Text.units right.toText))
  else
    compareNumbers left.toNumber right.toNumber

/-- Strict equality: deep equality of values.  Nothing is equal to nothing
only. -/
def strictEqual : Operand → Operand → Bool
  | none, none => true
  | some a, some b => a.deepEqual b
  | _, _ => false

/-- Whether a value is a number or a text, which loose equality does not convert when
kinds differ. -/
def isNumberOrText : Value → Bool
  | .number _ | .text _ => true
  | _ => false

/-- How many conversions a value may go through. -/
def conversions (value : Value) : Nat :=
  if isNumberOrText value then 0 else 1

/-- Loose equality of two values that are not null.  Where kinds differ, one side is
converted at a time: a truth value to its number, then what stands beside a number
or a text to its own text. -/
def valuesLooselyEqual (a b : Value) : Bool :=
  if a.kind = b.kind then a.deepEqual b
  else
    match a, b with
    | .bool t, b => valuesLooselyEqual (.number (numberOfBool t)) b
    | a, .bool t => valuesLooselyEqual a (.number (numberOfBool t))
    | .number n, .text s | .text s, .number n => n == numberOfText s
    | a, b =>
        -- Here at most one side is a number or a text, because the kinds differ.
        if isNumberOrText a ∧ ¬isNumberOrText b then
          valuesLooselyEqual a (.text b.display)
        else if ¬isNumberOrText a ∧ isNumberOrText b then
          valuesLooselyEqual (.text a.display) b
        else false
termination_by conversions a + conversions b
decreasing_by
  · exact Nat.add_lt_add_right Nat.zero_lt_one _
  · exact Nat.add_lt_add_left Nat.zero_lt_one _
  · rename_i hone
    rw [conversions, conversions, conversions, if_neg hone.2]
    exact Nat.add_lt_add_left Nat.zero_lt_one _
  · rename_i hone
    rw [conversions, conversions, conversions, if_neg hone.1]
    exact Nat.add_lt_add_right Nat.zero_lt_one _

/-- Loose equality.  Null and nothing are equal to each other and to nothing
else. -/
def looseEqual (left right : Operand) : Bool :=
  match left, right with
  | none, none | none, some .null | some .null, none | some .null, some .null => true
  | none, _ | some .null, _ | _, none | _, some .null => false
  | some a, some b => valuesLooselyEqual a b

end Operand

end DataExpr
