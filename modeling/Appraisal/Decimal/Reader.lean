/-!
# Reading decimals

A decimal is an optional sign, digits with at most one point among them, and an optional power of
ten. It stands for the nearest double.
-/

namespace Appraisal.Decimal

def isDigit (c : Char) : Bool :=
  '0' ≤ c && c ≤ '9'

/-- The number that the digits stand for. -/
def digitsValue (digits : List Char) : Nat :=
  digits.foldl (fun n c => 10 * n + (c.toNat - '0'.toNat)) 0

/-- The double nearest to `digits * 10 ^ exponent`. Beyond the range of doubles the power of ten is
not computed. -/
def nearest (digits : Nat) (exponent : Int) : Float :=
  let top := (Nat.log2 digits : Int) * 30103 / 100000 + exponent
  if digits = 0 then 0
  else if 400 < top then 1 / 0
  else if top < -400 then 0
  else if 0 ≤ exponent then Float.ofScientific (digits * Nat.pow 10 exponent.toNat) false 0
  else Float.ofScientific digits true (-exponent).toNat

/-- Digits with at most one point, at least one digit in all. -/
def readPlain? (cs : List Char) : Option (Nat × Int) :=
  let whole := cs.takeWhile isDigit
  match cs.dropWhile isDigit with
  | [] => if whole.isEmpty then none else some (digitsValue whole, 0)
  | '.' :: fraction =>
    if fraction.all isDigit && !(whole.isEmpty && fraction.isEmpty) then
      some (digitsValue (whole ++ fraction), -(fraction.length : Int))
    else none
  | _ => none

/-- An optional sign and at least one digit. -/
def readExponent? : List Char → Option Int
  | '-' :: cs => if cs.isEmpty || !cs.all isDigit then none else some (-(digitsValue cs : Int))
  | '+' :: cs => if cs.isEmpty || !cs.all isDigit then none else some (digitsValue cs)
  | cs => if cs.isEmpty || !cs.all isDigit then none else some (digitsValue cs)

def isExponentMark (c : Char) : Bool :=
  c = 'e' || c = 'E'

def readUnsigned? (cs : List Char) : Option Float := do
  let (digits, scale) ← readPlain? (cs.takeWhile (!isExponentMark ·))
  match cs.dropWhile (!isExponentMark ·) with
  | [] => return nearest digits scale
  | _ :: power => return nearest digits (scale + (← readExponent? power))

/-- Infinity and the undefined number by name, in any case of letters. -/
def readNamed? (cs : List Char) : Option Float :=
  match String.ofList (cs.map Char.toLower) with
  | "inf" | "infinity" => some (1 / 0)
  | "nan" => some (0 / 0)
  | _ => none

/-- Reads a whole text as a number. -/
def read? (s : String) : Option Float :=
  let magnitude? (cs : List Char) := readUnsigned? cs <|> readNamed? cs
  match s.toList with
  | '-' :: cs => (magnitude? cs).map (- ·)
  | '+' :: cs => magnitude? cs
  | cs => magnitude? cs

end Appraisal.Decimal
