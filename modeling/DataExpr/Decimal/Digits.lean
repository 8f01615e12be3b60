/-!
# Digits

Natural numbers written with digits of a base up to sixteen, and the two ways
a text can name a position in a sequence.

* `readRadix?` reads digits of a given base and nothing else.
* `readPosition?` reads a decimal position the lenient way: a leading plus sign
  and leading zeros do no harm.
* `readIndex?` accepts only the one canonical spelling of a position.

Positions are below `positionLimit`.  Signs and fractions belong to
`DataExpr.Decimal.Numeral`.
-/

namespace DataExpr.Decimal

/-- The number a digit stands for in the given base, letters in either case. -/
def digitValue? (base : Nat) (c : Char) : Option Nat :=
  let digit? :=
    if '0' ≤ c ∧ c ≤ '9' then some (c.toNat - '0'.toNat)
    else if 'a' ≤ c ∧ c ≤ 'f' then some (c.toNat - 'a'.toNat + 10)
    else if 'A' ≤ c ∧ c ≤ 'F' then some (c.toNat - 'A'.toNat + 10)
    else none
  digit?.filter (· < base)

/-- The number that digits denote after `high`, the number already read. -/
def readRadixFrom? (base : Nat) : Nat → List Char → Option Nat
  | high, [] => some high
  | high, c :: cs =>
      match digitValue? base c with
      | some d => readRadixFrom? base (high * base + d) cs
      | none => none

/-- The number that a nonempty text of digits denotes in the given base. -/
def readRadix? (base : Nat) (digits : List Char) : Option Nat :=
  if digits.isEmpty then none else readRadixFrom? base 0 digits

/-- The number that decimal digits denote. -/
def natOfDigits (digits : List Char) : Nat :=
  Nat.ofDigitChars 10 digits 0

/-- Positions fit in 64 bits. -/
def positionLimit : Nat := Nat.pow 2 64

/-- Reads a position: digits with any leading zeros, after at most one plus
sign. -/
def readPosition? (text : String) : Option Nat :=
  let digits :=
    match text.toList with
    | '+' :: digits => digits
    | digits => digits
  if !digits.isEmpty ∧ digits.all Char.isDigit ∧ natOfDigits digits < positionLimit then
    some (natOfDigits digits)
  else
    none

/-- Reads a position in its canonical spelling: no sign and no leading zero. -/
def readIndex? (text : String) : Option Nat :=
  (readPosition? text).filter fun i => Nat.repr i = text

end DataExpr.Decimal
