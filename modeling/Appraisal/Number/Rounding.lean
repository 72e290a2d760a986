/-!
# Rounding to whole numbers

Whole parts are taken through the 64-bit integers: from `2 ^ 52` on every double is whole already,
and below that the conversion is exact. The sign of zero is kept.
-/

namespace Appraisal.Number

/-- The whole part, rounded toward zero. -/
def wholePart (x : Float) : Float :=
  if x.abs < 4503599627370496.0 then
    let magnitude := x.abs.toUInt64.toFloat
    if x.toBits.toNat < Nat.pow 2 63 then magnitude else -magnitude
  else x

/-- The part behind the point, with the sign of the number. -/
def fraction (x : Float) : Float :=
  x - wholePart x

def floor (x : Float) : Float :=
  let t := wholePart x
  if x < t then t - 1 else t

def ceiling (x : Float) : Float :=
  let t := wholePart x
  if t < x then t + 1 else t

/-- The nearest whole number, a half going away from zero. -/
def roundHalfAway (x : Float) : Float :=
  let t := wholePart x
  if (x - t).abs < 0.5 then t
  else if x < 0 then t - 1
  else if 0 < x then t + 1
  else x

/-- The nearest whole number, a half going up. The distance to the floor is exact, while adding one
half first would round up the number just below one half. -/
def roundHalfUp (x : Float) : Float :=
  let below := floor x
  if x - below ≥ 0.5 then below + 1 else below

/-- The larger of two numbers; the other one if one is undefined, the first if they are equal. -/
def larger (a b : Float) : Float :=
  if a.isNaN then b else if a < b then b else a

/-- The smaller of two numbers; the other one if one is undefined, the first if they are equal. -/
def smaller (a b : Float) : Float :=
  if a.isNaN then b else if b < a then b else a

/-- A number moved into the range from `low` to `high`; an undefined one stays undefined. -/
def clamp (low high x : Float) : Float :=
  let raised := if x < low then low else x
  if high < raised then high else raised

/-- The whole part as an integer from 0 to `2 ^ 64 - 1`, the nearer end outside, 0 if undefined. -/
def toNatural (x : Float) : Nat :=
  x.toUInt64.toNat

/-- The whole part as an integer of 64 bits with sign, the nearer end outside, 0 if undefined. -/
def toInteger (x : Float) : Int :=
  if x < 0 then -(min (toNatural (-x)) (Nat.pow 2 63) : Nat)
  else (min (toNatural x) (Nat.pow 2 63 - 1) : Nat)

/-- The base to the exponent. A zero exponent and a unit base give 1, whatever the other one is. -/
def power (base exponent : Float) : Float :=
  if exponent == 0 || base == 1 then 1
  else if base.isNaN || exponent.isNaN then 0 / 0
  else Float.pow base exponent

/-- The position of the number with these bits in the order of all doubles, in which `-0` comes
before `0`, and the undefined numbers stand at the two ends. -/
def patternKey (bits : UInt64) : Int :=
  let bits : Nat := bits.toNat
  if bits < Nat.pow 2 63 then bits else (Nat.pow 2 63 : Nat) - 1 - (bits : Int)

def patternLe (a b : UInt64) : Bool :=
  patternKey a ≤ patternKey b

/-- The order of all doubles. The undefined number is last. -/
def totalLe (a b : Float) : Bool :=
  patternLe a.toBits b.toBits

end Appraisal.Number
