/-!
# Doubles as binary fractions

A finite double is `±mantissa · 2 ^ exponent`.  `Binary.ofFloat?` takes that
form from the bits and `Binary.toFloat` puts it back; neither rounds, so
everything in between is arithmetic on natural numbers.

`toFloat` is meant for values that a double holds exactly.  Decimal text is
read in `DataExpr.Decimal.Numeral`, which rounds.
-/

namespace DataExpr.Decimal

/-- The number `±mantissa · 2 ^ exponent`; the sign of zero is kept. -/
structure Binary where
  /-- Whether the sign is minus. -/
  negative : Bool
  /-- The magnitude, in units of `2 ^ exponent`. -/
  mantissa : Nat
  /-- The power of two that the mantissa counts. -/
  exponent : Int
  deriving DecidableEq, Repr

namespace Binary

/-- The exponent of the smallest positive double. -/
def leastExponent : Int := -1074

/-- The value of a finite double, and nothing for `NaN` and the infinities.
The mantissa of a normal double has 53 bits. -/
def ofFloat? (x : Float) : Option Binary :=
  let bits := x.toBits.toNat
  let negative := bits / Nat.pow 2 63 == 1
  let biased : Nat := bits / Nat.pow 2 52 % Nat.pow 2 11
  let fraction := bits % Nat.pow 2 52
  if biased = 2047 then none
  else if biased = 0 then some ⟨negative, fraction, leastExponent⟩
  else some ⟨negative, fraction + Nat.pow 2 52, (biased : Int) + leastExponent - 1⟩

/-- The same magnitude with a mantissa of 53 bits, or with the least exponent
where that would be smaller. -/
def normalize (b : Binary) : Binary :=
  let exponent := max (b.exponent + (b.mantissa.log2 : Int) - 52) leastExponent
  if exponent ≤ b.exponent then
    { b with mantissa := b.mantissa * Nat.pow 2 (b.exponent - exponent).toNat, exponent }
  else
    { b with mantissa := b.mantissa / Nat.pow 2 (exponent - b.exponent).toNat, exponent }

/-- The bits of the double with this value. -/
def toBits (b : Binary) : Nat :=
  let sign := if b.negative then Nat.pow 2 63 else 0
  if b.mantissa = 0 then sign
  else
    let n := b.normalize
    if n.mantissa < Nat.pow 2 52 then sign + n.mantissa
    else sign + (n.exponent - leastExponent + 1).toNat * Nat.pow 2 52 + (n.mantissa - Nat.pow 2 52)

/-- The double with this value. -/
def toFloat (b : Binary) : Float :=
  Float.ofBits (UInt64.ofNat b.toBits)

/-- The integer a binary fraction is equal to, if there is one. -/
def toInt? (b : Binary) : Option Int :=
  let magnitude? :=
    if 0 ≤ b.exponent then some (b.mantissa * Nat.pow 2 b.exponent.toNat)
    else
      let unit := Nat.pow 2 (-b.exponent).toNat
      if b.mantissa % unit = 0 then some (b.mantissa / unit) else none
  magnitude?.map fun n => if b.negative then -(n : Int) else n

/-- The remainder of the division truncated toward zero: it has the sign of
the dividend and is smaller than the divisor.  The divisor is not zero. -/
def remainder (a b : Binary) : Binary :=
  let exponent := min a.exponent b.exponent
  let dividend := a.mantissa * Nat.pow 2 (a.exponent - exponent).toNat
  let divisor := b.mantissa * Nat.pow 2 (b.exponent - exponent).toNat
  ⟨a.negative, dividend % divisor, exponent⟩

end Binary

/-! ## Arithmetic on doubles -/

/-- The natural numbers below this are doubles exactly, and so are all smaller
ones. -/
def exactLimit : Nat := Nat.pow 2 53

/-- The double nearest to a natural number. -/
def ofNat (n : Nat) : Float :=
  if n < exactLimit then (Binary.mk false n 0).toFloat else Float.ofScientific n false 0

/-- The double nearest to an integer. -/
def ofInt (n : Int) : Float :=
  if n < 0 then -ofNat n.natAbs else ofNat n.natAbs

/-- The truncated remainder of two doubles.  There is none of an infinity or by
zero, and an infinite divisor leaves a finite dividend as it is. -/
def remainder (x y : Float) : Float :=
  match Binary.ofFloat? x, Binary.ofFloat? y with
  | some a, some b => if b.mantissa = 0 then 0 / 0 else (a.remainder b).toFloat
  | some _, none => if y.isNaN then y else x
  | none, _ => 0 / 0

end DataExpr.Decimal
