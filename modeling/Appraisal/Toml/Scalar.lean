import Appraisal.Json.Token

/-!
# Scalars of TOML

Numbers and texts as TOML writes them. Underscores may stand between digits, integers have 64 bits,
and a text between double quotes may hold escapes.
-/

namespace Appraisal.Toml

open Text (Parsed)

/-- Digits with single underscores between them, without the underscores. -/
def grouped? (isDigit : Char → Bool) : List Char → Option (List Char)
  | [] => none
  | [c] => if isDigit c then some [c] else none
  | c :: '_' :: cs => if isDigit c then (grouped? isDigit cs).map (c :: ·) else none
  | c :: cs => if isDigit c then (grouped? isDigit cs).map (c :: ·) else none

/-- Decimal digits that start with `0` only if it is the only one. -/
def whole? (cs : List Char) : Option (List Char) := do
  let digits ← grouped? Decimal.isDigit cs
  if digits.length = 1 ∨ digits.head? ≠ some '0' then some digits else none

/-- Digits of a base of at most 16. -/
def inBase? (base : Nat) (cs : List Char) : Option Int := do
  let values ← (← grouped? Char.isAlphanum cs).mapM Json.hexValue?
  if values.all (· < base) then some (values.foldl (fun n d => base * n + d) 0 : Nat) else none

def integer? (cs : List Char) : Option Int := do
  let n ← match cs with
    | '0' :: 'x' :: cs => inBase? 16 cs
    | '0' :: 'o' :: cs => inBase? 8 cs
    | '0' :: 'b' :: cs => inBase? 2 cs
    | '-' :: cs => (whole? cs).map fun digits => -(Decimal.digitsValue digits : Int)
    | '+' :: cs => (whole? cs).map fun digits => (Decimal.digitsValue digits : Int)
    | cs => (whole? cs).map fun digits => (Decimal.digitsValue digits : Int)
  if -(Nat.pow 2 63 : Int) ≤ n ∧ n < Nat.pow 2 63 then some n else none

def exponent? : List Char → Option Int
  | '-' :: cs => (grouped? Decimal.isDigit cs).map fun digits => -(Decimal.digitsValue digits : Int)
  | '+' :: cs => (grouped? Decimal.isDigit cs).map fun digits => (Decimal.digitsValue digits : Int)
  | cs => (grouped? Decimal.isDigit cs).map fun digits => (Decimal.digitsValue digits : Int)

/-- Digits around a point, or before an exponent, or both; with neither they are an integer. -/
def unsigned? (cs : List Char) : Option Float := do
  if !cs.any fun c => c = '.' || Decimal.isExponentMark c then none
  let mantissa := cs.takeWhile (!Decimal.isExponentMark ·)
  let whole ← whole? (mantissa.takeWhile (· ≠ '.'))
  let fraction ← match mantissa.dropWhile (· ≠ '.') with
    | [] => some []
    | _ :: fraction => grouped? Decimal.isDigit fraction
  let exponent ← match cs.dropWhile (!Decimal.isExponentMark ·) with
    | [] => some 0
    | _ :: power => exponent? power
  return Decimal.nearest (Decimal.digitsValue (whole ++ fraction)) (exponent - fraction.length)

def named? : List Char → Option Float
  | ['i', 'n', 'f'] => some (1 / 0)
  | ['n', 'a', 'n'] => some (0 / 0)
  | _ => none

/-- A number that is not negative. Beyond the largest one only `inf` is written. -/
def magnitude? (cs : List Char) : Option Float :=
  match unsigned? cs with
  | some x => if x.isFinite then some x else none
  | none => named? cs

/-- A number with or without a sign. Below the smallest one there is minus infinity. -/
def real? : List Char → Option Float
  | '-' :: cs => (unsigned? cs <|> named? cs).map (- ·)
  | '+' :: cs => magnitude? cs
  | cs => magnitude? cs

/-- A word that is no text. -/
def word? (cs : List Char) : Option Json :=
  match String.ofList cs with
  | "true" => some (.bool true)
  | "false" => some (.bool false)
  | _ => (integer? cs).map Json.integer <|> (real? cs).map Json.real

/-- The characters that may stand in texts and comments. -/
def isPrintable (c : Char) : Bool :=
  c = '\t' || (0x20 ≤ c.toNat && c.toNat ≠ 0x7F)

def escapedChar? : Char → Option Char
  | '"' => some '"'
  | '\\' => some '\\'
  | 'b' => some '\x08'
  | 'f' => some '\x0c'
  | 'n' => some '\n'
  | 'r' => some '\r'
  | 't' => some '\t'
  | _ => none

def charOf? (code : Nat) : Option Char :=
  if code.isValidChar then some (Char.ofNat code) else none

/-- One character of a text between double quotes. -/
def textChar? (cs : List Char) : Option (Parsed Char cs) :=
  match cs with
  | '\\' :: 'u' :: a :: b :: c :: d :: rest => do
    some (.spanning (← charOf? (← Json.hexUnit? a b c d)) '\\' ['u', a, b, c, d] rest)
  | '\\' :: 'U' :: a :: b :: c :: d :: e :: f :: g :: h :: rest => do
    let code := (← Json.hexUnit? a b c d) * 65536 + (← Json.hexUnit? e f g h)
    some (.spanning (← charOf? code) '\\' ['U', a, b, c, d, e, f, g, h] rest)
  | '\\' :: c :: rest => do some (.spanning (← escapedChar? c) '\\' [c] rest)
  | c :: rest => if isPrintable c && c ≠ '\\' then some (.spanning c c [] rest) else none
  | [] => none

/-- The characters up to the closing double quote. -/
def textBody? (cs : List Char) : Option (Parsed (List Char) cs) :=
  match cs with
  | '"' :: rest => some (.spanning [] '"' [] rest)
  | cs => do
    let first ← textChar? cs
    have := first.shorter
    let others ← textBody? first.rest
    return (others.map (first.value :: ·)).widen (Nat.le_of_lt first.shorter)
termination_by cs.length

/-- The characters up to the closing single quote, where nothing is escaped. -/
def literalBody? (cs : List Char) : Option (Parsed (List Char) cs) :=
  match cs with
  | [] => none
  | '\'' :: rest => some (.spanning [] '\'' [] rest)
  | c :: rest => do
    let others ← literalBody? rest
    if isPrintable c then some ((others.map (c :: ·)).behind c) else none

/-- A text between quotes at the front. -/
def text? (cs : List Char) : Option (Parsed String cs) :=
  match cs with
  | '"' :: rest => (textBody? rest).map fun p => (p.map String.ofList).behind '"'
  | '\'' :: rest => (literalBody? rest).map fun p => (p.map String.ofList).behind '\''
  | _ => none

end Appraisal.Toml
