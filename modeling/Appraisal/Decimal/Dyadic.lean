/-!
# The exact value of a floating-point number

Every finite double is a whole number times a power of two. Decimal text is chosen by comparing
such values exactly, in natural numbers.
-/

namespace Appraisal.Decimal

/-- The magnitude `mantissa * 2 ^ exponent`. -/
structure Dyadic where
  mantissa : Nat
  exponent : Int
  deriving DecidableEq, Repr

namespace Dyadic

/-- The magnitude that the 52 fraction bits and the 11 exponent bits of a finite double stand for;
the sign bit is not looked at. -/
def ofBits (bits : Nat) : Dyadic :=
  let fraction : Nat := bits % Nat.pow 2 52
  let scale : Nat := bits / Nat.pow 2 52 % Nat.pow 2 11
  if scale = 0 then ⟨fraction, -1074⟩ else ⟨Nat.pow 2 52 + fraction, (scale : Int) - 1075⟩

def ofFloat (x : Float) : Dyadic :=
  ofBits x.toBits.toNat

/-- Whether the next double below is only half as far away as the next one above. -/
def narrowBelow (d : Dyadic) : Bool :=
  d.mantissa = Nat.pow 2 52 && d.exponent ≠ -1074

def numerator (d : Dyadic) : Nat :=
  d.mantissa * Nat.pow 2 d.exponent.toNat

def denominator (d : Dyadic) : Nat :=
  Nat.pow 2 (-d.exponent).toNat

theorem denominator_pos (d : Dyadic) : 0 < d.denominator :=
  Nat.pow_pos (by decide)

end Dyadic

/-- The sign bit, which also tells `-0` from `0`. -/
def isNegative (x : Float) : Bool :=
  Nat.pow 2 63 ≤ x.toBits.toNat

/-- How an exact half between two neighbours is settled. -/
inductive Tie where
  | toEven
  | up
  deriving DecidableEq, Repr

/-- `numerator / denominator` rounded to the nearest whole number. -/
def roundDiv (tie : Tie) (numerator denominator : Nat) : Nat :=
  let q := numerator / denominator
  let r := numerator % denominator
  if 2 * r < denominator then q
  else if denominator < 2 * r then q + 1
  else match tie with
    | .up => q + 1
    | .toEven => if q % 2 = 0 then q else q + 1

/-- The decimal exponent of the leading digit of a positive value: `10 ^ e ≤ value < 10 ^ (e + 1)`.
The binary logarithm, times `log 2`, is at most one too small. -/
def magnitude (d : Dyadic) : Int :=
  let guess := ((Nat.log2 d.mantissa : Int) + d.exponent) * 30103 / 100000
  let next := guess + 1
  if Nat.pow 10 next.toNat * d.denominator ≤ d.numerator * Nat.pow 10 (-next).toNat then next
  else guess

end Appraisal.Decimal
