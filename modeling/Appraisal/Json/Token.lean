import Appraisal.Json.Basic
import Appraisal.Decimal.Reader
import Appraisal.Text.Parsed

/-!
# The words of JSON text

Text is first cut into brackets, marks, strings and scalars. A whole number outside the 64-bit
ranges is read as a real, and so is `-0`; a number beyond the range of the reals is refused.
-/

namespace Appraisal.Json

open Text (Parsed)

inductive Token where
  | openArray
  | closeArray
  | openObject
  | closeObject
  | comma
  | colon
  | string (value : String)
  | scalar (value : Json)

def isBlank (c : Char) : Bool :=
  c = ' ' || c = '\n' || c = '\t' || c = '\r'

def hexValue? (c : Char) : Option Nat :=
  if '0' ≤ c ∧ c ≤ '9' then some (c.toNat - '0'.toNat)
  else if 'a' ≤ c ∧ c ≤ 'f' then some (c.toNat - 'a'.toNat + 10)
  else if 'A' ≤ c ∧ c ≤ 'F' then some (c.toNat - 'A'.toNat + 10)
  else none

def hexUnit? (a b c d : Char) : Option Nat := do
  return (((← hexValue? a) * 16 + (← hexValue? b)) * 16 + (← hexValue? c)) * 16 + (← hexValue? d)

def escapedChar? : Char → Option Char
  | '"' => some '"'
  | '\\' => some '\\'
  | '/' => some '/'
  | 'b' => some '\x08'
  | 'f' => some '\x0c'
  | 'n' => some '\n'
  | 'r' => some '\r'
  | 't' => some '\t'
  | _ => none

def isHighSurrogate (n : Nat) : Bool := 0xD800 ≤ n && n < 0xDC00

def isLowSurrogate (n : Nat) : Bool := 0xDC00 ≤ n && n < 0xE000

def joinSurrogates (high low : Nat) : Char :=
  Char.ofNat (0x10000 + (high - 0xD800) * 0x400 + (low - 0xDC00))

/-- One character of a string, plain or escaped. A character beyond the first plane is escaped as
two halves, which must stand next to each other. -/
def stringChar? (cs : List Char) : Option (Parsed Char cs) :=
  match cs with
  | '\\' :: 'u' :: a :: b :: c :: d :: '\\' :: 'u' :: e :: f :: g :: h :: rest => do
    let unit ← hexUnit? a b c d
    if isHighSurrogate unit then
      let low ← hexUnit? e f g h
      if isLowSurrogate low then
        some (.spanning (joinSurrogates unit low) '\\'
          ['u', a, b, c, d, '\\', 'u', e, f, g, h] rest)
      else none
    else if isLowSurrogate unit then none
    else some (.spanning (Char.ofNat unit) '\\' ['u', a, b, c, d]
      ('\\' :: 'u' :: e :: f :: g :: h :: rest))
  | '\\' :: 'u' :: a :: b :: c :: d :: rest => do
    let unit ← hexUnit? a b c d
    if isHighSurrogate unit || isLowSurrogate unit then none
    else some (.spanning (Char.ofNat unit) '\\' ['u', a, b, c, d] rest)
  | '\\' :: c :: rest => do some (.spanning (← escapedChar? c) '\\' [c] rest)
  | c :: rest => if c.toNat < 0x20 || c = '\\' then none else some (.spanning c c [] rest)
  | [] => none

/-- The characters up to the closing quote. -/
def stringBody? (cs : List Char) : Option (Parsed (List Char) cs) :=
  match cs with
  | '"' :: rest => some (.spanning [] '"' [] rest)
  | cs => do
    let first ← stringChar? cs
    have := first.shorter
    let others ← stringBody? first.rest
    return (others.map (first.value :: ·)).widen (Nat.le_of_lt first.shorter)
termination_by cs.length

/-- A run of digits that is `0` or does not start with it. -/
def isWholeNumber : List Char → Bool
  | [] => false
  | ['0'] => true
  | '0' :: _ => false
  | cs => cs.all Decimal.isDigit

/-- Digits, then a point with digits behind it or nothing. -/
def isPlainNumber (cs : List Char) : Bool :=
  isWholeNumber (cs.takeWhile (· ≠ '.')) &&
    match cs.dropWhile (· ≠ '.') with
    | [] => true
    | _ :: fraction => !fraction.isEmpty && fraction.all Decimal.isDigit

def ofReal? (x : Float) : Option Json :=
  if x.isFinite then some (real x) else none

def negate : Json → Json
  | integer n => integer (-n)
  | real x => real (-x)
  | j => j

/-- A number without sign; `largest` bounds the whole numbers. -/
def magnitude? (largest : Nat) (cs : List Char) : Option Json := do
  if isWholeNumber cs then
    let n := Decimal.digitsValue cs
    if n ≤ largest then some (integer n) else ofReal? (Decimal.nearest n 0)
  else if isPlainNumber (cs.takeWhile (!Decimal.isExponentMark ·)) then
    ofReal? (← Decimal.readUnsigned? cs)
  else none

def number? : List Char → Option Json
  | ['-', '0'] => some (real (-0.0))
  | '-' :: cs => (magnitude? (Nat.pow 2 63) cs).map negate
  | cs => magnitude? (Nat.pow 2 64 - 1) cs

def isNumberChar (c : Char) : Bool :=
  Decimal.isDigit c || c = '-' || c = '+' || c = '.' || c = 'e' || c = 'E'

def word? (cs : List Char) : Option Json :=
  match String.ofList cs with
  | "null" => some null
  | "true" => some (bool true)
  | "false" => some (bool false)
  | _ => none

def mark? : Char → Option Token
  | '[' => some .openArray
  | ']' => some .closeArray
  | '\x7b' => some .openObject
  | '\x7d' => some .closeObject
  | ',' => some .comma
  | ':' => some .colon
  | _ => none

/-- The words of a text, `none` if a part of it is no word. -/
def tokens? (cs : List Char) : Option (List Token) :=
  match cs with
  | [] => some []
  | c :: cs =>
    if isBlank c then tokens? cs
    else match mark? c with
    | some mark => (tokens? cs).map (mark :: ·)
    | none =>
      if c = '"' then
        match stringBody? cs with
        | some text =>
          have := text.shorter
          (tokens? text.rest).map (.string (String.ofList text.value) :: ·)
        | none => none
      else if isNumberChar c then
        have := Text.length_dropWhile_le isNumberChar cs
        match number? (c :: cs.takeWhile isNumberChar) with
        | some j => (tokens? (cs.dropWhile isNumberChar)).map (.scalar j :: ·)
        | none => none
      else
        have := Text.length_dropWhile_le Char.isAlpha cs
        match word? (c :: cs.takeWhile Char.isAlpha) with
        | some j => (tokens? (cs.dropWhile Char.isAlpha)).map (.scalar j :: ·)
        | none => none
termination_by cs.length

end Appraisal.Json
