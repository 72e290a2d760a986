import Appraisal.Decimal.Dyadic

/-!
# The shortest decimal that reads back

A double stands for every real number that rounds to it, an interval around its exact value whose
ends belong to it when the mantissa is even. Among the decimals in that interval the ones with the
fewest digits are looked for, first with one digit, then with two, and of those the nearest is
taken. Seventeen digits always suffice.
-/

namespace Appraisal.Decimal

/-- The number `digits * 10 ^ exponent`. -/
structure Scaled where
  digits : Nat
  exponent : Int
  deriving DecidableEq, Repr

namespace Scaled

/-- The number of decimal digits. -/
def width (s : Scaled) : Nat :=
  (Nat.toDigits 10 s.digits).length

/-- The decimal exponent of the leading digit. -/
def leading (s : Scaled) : Int :=
  s.exponent + s.width - 1

/-- Takes `fuel` zeros at most from the end of the digits. -/
def stripZeros : Nat → Scaled → Scaled
  | 0, s => s
  | fuel + 1, s =>
    if s.digits % 10 = 0 ∧ s.digits ≠ 0 then stripZeros fuel ⟨s.digits / 10, s.exponent + 1⟩ else s

end Scaled

/-- The reals that round to a positive double, and its exact value, over the common denominator
`unit`. -/
structure Interval where
  low : Nat
  value : Nat
  high : Nat
  unit : Nat
  closed : Bool

/-- The halfway points to the two neighbouring doubles. -/
def Interval.ofDyadic (d : Dyadic) : Interval :=
  let scale := Nat.pow 2 d.exponent.toNat
  { low := (4 * d.mantissa - if d.narrowBelow then 1 else 2) * scale
    value := 4 * d.mantissa * scale
    high := (4 * d.mantissa + 2) * scale
    unit := 4 * d.denominator
    closed := d.mantissa % 2 = 0 }

def Interval.contains (i : Interval) (point : Nat) : Bool :=
  if i.closed then i.low ≤ point && point ≤ i.high else i.low < point && point < i.high

/-- Of the two points next to the value on the grid `10 ^ exponent`, the one that reads back and
is nearer; `none` if neither reads back. -/
def onGrid? (tie : Tie) (i : Interval) (exponent : Int) : Option Scaled :=
  let up := Nat.pow 10 (-exponent).toNat
  let fine : Interval :=
    { low := i.low * up, value := i.value * up, high := i.high * up, unit := i.unit
      closed := i.closed }
  let step := i.unit * Nat.pow 10 exponent.toNat
  let below := fine.value / step
  let nearest := roundDiv tie fine.value step
  let other := if nearest = below then below + 1 else below
  if fine.contains (nearest * step) then some ⟨nearest, exponent⟩
  else if fine.contains (other * step) then some ⟨other, exponent⟩
  else none

/-- The shortest decimal of a positive finite double. -/
def shortest (tie : Tie) (d : Dyadic) : Scaled :=
  let i := Interval.ofDyadic d
  let top := magnitude d
  let found := (List.range 17).findSome? fun (n : Nat) => onGrid? tie i (top - n)
  match found with
  | some s => s.stripZeros 400
  | none => ⟨d.numerator * Nat.pow 10 1074 / d.denominator, -1074⟩

end Appraisal.Decimal
