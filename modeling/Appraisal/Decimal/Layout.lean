import Appraisal.Decimal.Shortest

/-!
# Number texts

The ways in which numbers are written: in documents (`json`), in messages (`message`), with a fixed
number of places (`fixed`) and in scientific form (`scientific`). `Style` says where the
spellings of the first two differ.
-/

namespace Appraisal.Decimal

/-- The choices that a shortest number text leaves open. -/
structure Style where
  tie : Tie
  /-- The leading exponents written without an exponent part. -/
  positional : Int → Bool
  /-- Whether a whole number written without an exponent part ends in `.0`. -/
  pointZero : Bool

/-- Documents write exponents from -5 to 15 in full, and a half goes to the even digit. -/
def Style.document : Style := ⟨.toEven, fun e => -5 ≤ e && e ≤ 15, true⟩

/-- Messages never use an exponent, and a half goes up. -/
def Style.message : Style := ⟨.up, fun _ => true, false⟩

def zeros (n : Nat) : List Char :=
  List.replicate n '0'

/-- Digits with a point that leaves `places` of them behind it, at least one before it. -/
def withPoint (digits : List Char) (places : Nat) : List Char :=
  let padded := zeros (places + 1 - digits.length) ++ digits
  let whole := padded.length - places
  if places = 0 then padded else padded.take whole ++ '.' :: padded.drop whole

def positionalText (pointZero : Bool) (s : Scaled) : List Char :=
  let digits := Nat.toDigits 10 s.digits
  if 0 ≤ s.exponent then
    digits ++ zeros s.exponent.toNat ++ (if pointZero then ['.', '0'] else [])
  else withPoint digits (-s.exponent).toNat

def exponentText (e : Int) : List Char :=
  if 0 ≤ e then '+' :: Nat.toDigits 10 e.toNat else '-' :: Nat.toDigits 10 (-e).toNat

def scientificText (s : Scaled) : List Char :=
  let digits := Nat.toDigits 10 s.digits
  withPoint digits (digits.length - 1) ++ 'e' :: exponentText s.leading

def magnitudeText (style : Style) (x : Float) : List Char :=
  let d := Dyadic.ofFloat x
  let s : Scaled := if d.mantissa = 0 then ⟨0, 0⟩ else shortest style.tie d
  if style.positional s.leading then positionalText style.pointZero s else scientificText s

def signed (x : Float) (magnitude : List Char) : String :=
  String.ofList (if isNegative x then '-' :: magnitude else magnitude)

/-- The shortest text of a finite number that reads back to it. -/
def Style.render (style : Style) (x : Float) : String :=
  signed x (magnitudeText style x)

/-- A number inside a message. -/
def message (x : Float) : String :=
  if x.isNaN then "NaN"
  else if x.isFinite then Style.message.render x
  else signed x ['i', 'n', 'f']

/-- A number with `places` digits behind the point, its exact value rounded with ties to even. -/
def fixed (places : Nat) (x : Float) : String :=
  if x.isNaN then "NaN"
  else if x.isFinite then
    let d := Dyadic.ofFloat x
    let n := roundDiv .toEven (d.numerator * Nat.pow 10 places) d.denominator
    signed x (withPoint (Nat.toDigits 10 n) places)
  else signed x ['i', 'n', 'f']

/-- A number with one digit before and `places` digits behind the point, and the power of ten that
it is multiplied by. The exact value is rounded with ties to even. -/
def scientific (places : Nat) (x : Float) : String :=
  if x.isNaN then "NaN"
  else if x.isFinite then
    let d := Dyadic.ofFloat x
    let top := if d.mantissa = 0 then 0 else magnitude d
    let unit := top - places
    let n := roundDiv .toEven (d.numerator * Nat.pow 10 (-unit).toNat)
      (d.denominator * Nat.pow 10 unit.toNat)
    let (n, top) := if n = Nat.pow 10 (places + 1) then (Nat.pow 10 places, top + 1) else (n, top)
    let digits := Nat.toDigits 10 n
    signed x (withPoint (zeros (places + 1 - digits.length) ++ digits) places
      ++ 'e' :: (toString top).toList)
  else signed x ['i', 'n', 'f']

end Appraisal.Decimal
