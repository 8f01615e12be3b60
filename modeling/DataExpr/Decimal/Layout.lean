import DataExpr.Decimal.Shortest

/-!
# Number layouts

How the digits of a number are set out.  A `Layout` records the decisions of one
output format, and `Layout.write` applies them to the shortest digits of a
double.  Formats differ in where positional notation ends, in how whole numbers
look, and in which way a tie between two shortest decimals goes; each format's
record stands in the module that writes that format.
-/

namespace DataExpr.Decimal

/-- The decisions of a number format.  The decimal exponent of a number is that
of its first digit. -/
structure Layout where
  /-- Least decimal exponent written positionally. -/
  leastPositional : Int
  /-- Greatest decimal exponent written positionally. -/
  greatestPositional : Int
  /-- Whether a whole number in positional notation ends in `.0`. -/
  pointAlways : Bool
  /-- How ties between shortest decimals go. -/
  tie : Tie
  deriving DecidableEq, Repr

namespace Layout

/-- Digits with the point in its place and zeros where digits are missing. -/
def positional (layout : Layout) (d : Significant) : List Char :=
  let count := d.digits.length
  if d.point ≤ 0 then
    '0' :: '.' :: (List.replicate (-d.point).toNat '0' ++ d.digits)
  else if d.point < count then
    d.digits.take d.point.toNat ++ '.' :: d.digits.drop d.point.toNat
  else
    d.digits ++ List.replicate (d.point.toNat - count) '0' ++
      (if layout.pointAlways then ['.', '0'] else [])

/-- One digit before the point, and the exponent with its sign. -/
def scientific (d : Significant) : List Char :=
  let exponent := d.point - 1
  let sign := if exponent < 0 then '-' else '+'
  let fraction :=
    match d.digits.tail with
    | [] => []
    | digits => '.' :: digits
  d.digits.take 1 ++ fraction ++ 'e' :: sign :: Nat.toDigits 10 exponent.natAbs

/-- The text of a positive number. -/
def writeDigits (layout : Layout) (d : Significant) : List Char :=
  if layout.leastPositional ≤ d.point - 1 ∧ d.point - 1 ≤ layout.greatestPositional then
    layout.positional d
  else
    scientific d

/-- The text of a binary fraction other than zero. -/
def write (layout : Layout) (b : Binary) : String :=
  let magnitude := layout.writeDigits (shortestDigits layout.tie b)
  String.ofList (if b.negative then '-' :: magnitude else magnitude)

end Layout

end DataExpr.Decimal
