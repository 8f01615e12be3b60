import DataExpr.Decimal.Binary

/-!
# Shortest decimals

The fewest decimal digits that read back as a given double, and of those the
ones nearest to it.

A double stands for every real number that rounds to it: an interval that
reaches halfway to its two neighbours and holds its ends exactly when the
mantissa is even.  For one digit, then two, and so on, the value's two neighbours
on the grid of that many digits are tried; the first grid with a point in the
interval gives the digits.  All of it is exact arithmetic on natural numbers.
-/

namespace DataExpr.Decimal

/-- Which of two equally near decimals is taken. -/
inductive Tie where
  /-- The one with the even last digit. -/
  | toEven
  /-- The one farther from zero. -/
  | awayFromZero
  deriving DecidableEq, Repr

/-- The decimal `0.d₁d₂… · 10 ^ point`, where `d₁d₂…` are `digits`. -/
structure Significant where
  /-- Digits of the magnitude, the first and the last not zero. -/
  digits : List Char
  /-- How many places the point stands to the right of the first digit. -/
  point : Int
  deriving DecidableEq, Repr

namespace Shortest

/-- The reals that round to one double, as multiples of `1 / denominator`. -/
structure Interval where
  /-- Lower end. -/
  low : Nat
  /-- The double itself. -/
  middle : Nat
  /-- Upper end. -/
  high : Nat
  /-- Whether the ends belong to the interval. -/
  closed : Bool
  /-- What the other numbers are divided by. -/
  denominator : Nat

/-- The interval of a positive double.  Below a power of two the doubles are
twice as dense, so there the lower end is half as far away. -/
def interval (b : Binary) : Interval :=
  let below := if b.mantissa = Nat.pow 2 52 ∧ b.exponent ≠ Binary.leastExponent then 1 else 2
  let quarter := b.exponent - 2
  let unit := Nat.pow 2 quarter.toNat
  { low := (4 * b.mantissa - below) * unit
    middle := 4 * b.mantissa * unit
    high := (4 * b.mantissa + 2) * unit
    closed := b.mantissa % 2 = 0
    denominator := Nat.pow 2 (-quarter).toNat }

/-- Whether the interval holds `n / denominator`. -/
def Interval.holds (i : Interval) (n : Nat) : Bool :=
  if i.closed then i.low ≤ n ∧ n ≤ i.high else i.low < n ∧ n < i.high

/-- The interval measured in units of `10 ^ exponent`. -/
def Interval.inUnits (i : Interval) (exponent : Int) : Interval :=
  let up := Nat.pow 10 (-exponent).toNat
  { i with
    low := i.low * up
    middle := i.middle * up
    high := i.high * up
    denominator := i.denominator * Nat.pow 10 exponent.toNat }

/-- The multiple of `10 ^ exponent` in the interval that is nearest to the
double, if the grid of those multiples meets the interval at all. -/
def onGrid? (tie : Tie) (i : Interval) (exponent : Int) : Option Nat :=
  let i := i.inUnits exponent
  let below := i.middle / i.denominator
  let above := below + 1
  match i.holds (below * i.denominator), i.holds (above * i.denominator) with
  | true, false => some below
  | false, true => some above
  | false, false => none
  | true, true =>
      let twice := 2 * i.middle
      let halfway := (below + above) * i.denominator
      if twice < halfway then some below
      else if halfway < twice then some above
      else
        match tie with
        | .awayFromZero => some above
        | .toEven => some (if below % 2 = 0 then below else above)

/-- The place of the point in a positive double: the least `k` for which the
value is below `10 ^ k`, found from its power of two. -/
def point (b : Binary) (i : Interval) : Int :=
  let k := ((b.mantissa.log2 : Int) + b.exponent) * 30103 / 100000 + 1
  let scaled := i.inUnits k
  if scaled.middle < scaled.denominator then k else k + 1

/-- Tries grids of more and more digits, `fuel` of them. -/
def search (tie : Tie) (i : Interval) (point : Int) : Nat → Nat → Option (Nat × Int)
  | 0, _ => none
  | fuel + 1, count =>
      match onGrid? tie i (point - count) with
      | some n => some (n, point - count)
      | none => search tie i point fuel (count + 1)

/-- Seventeen digits always read back. -/
def mostDigits : Nat := 17

end Shortest

/-- The shortest digits of a positive binary fraction that is a double. -/
def shortestDigits (tie : Tie) (b : Binary) : Significant :=
  let i := Shortest.interval b
  let point := Shortest.point b i
  let (n, exponent) :=
    (Shortest.search tie i point Shortest.mostDigits 1).getD (0, 0)
  let digits := Nat.toDigits 10 n
  ⟨(digits.reverse.dropWhile (· = '0')).reverse, exponent + digits.length⟩

end DataExpr.Decimal
