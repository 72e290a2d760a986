import Appraisal.Number.Rounding

/-!
# Grouped whole numbers

Amounts are shown as whole numbers with a comma before every three digits from the right. The
largest magnitude that is shown is the largest number of 64 bits.
-/

namespace Appraisal.Number

/-- Digits with a comma wherever a multiple of three of them is left. -/
def groupDigits : List Char → List Char
  | [] => []
  | c :: cs =>
    if cs.length % 3 = 0 ∧ cs ≠ [] then c :: ',' :: groupDigits cs else c :: groupDigits cs

/-- An amount rounded to a whole number, a half away from zero. -/
def grouped (x : Float) : String :=
  if x.isFinite then
    let rounded := roundHalfAway x
    let digits := groupDigits (Nat.toDigits 10 (toNatural rounded.abs))
    String.ofList (if rounded < 0 then '-' :: digits else digits)
  else "n/a"

end Appraisal.Number
