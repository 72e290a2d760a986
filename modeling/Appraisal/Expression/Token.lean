import Appraisal.Expression.SyntaxError
import Appraisal.Decimal.Reader
import Appraisal.Text.Blank
import Appraisal.Text.Parsed

/-!
# Tokens of expressions

Blanks separate tokens and are dropped. A number is a run of digits and points; a name is a run of
ASCII letters, digits and underscores that does not start with a digit.
-/

namespace Appraisal.Expression

inductive Token where
  | number (value : Float)
  | name (text : String)
  | plus
  | minus
  | star
  | slash
  | openParen
  | closeParen
  | comma
  | percent

def symbol? : Char → Option Token
  | '+' => some .plus
  | '-' => some .minus
  | '*' => some .star
  | '/' => some .slash
  | '(' => some .openParen
  | ')' => some .closeParen
  | ',' => some .comma
  | '%' => some .percent
  | _ => none

def isNumeralChar (c : Char) : Bool :=
  c.isDigit || c = '.'

/-- A character of a name. -/
def isWordChar (c : Char) : Bool :=
  c.isAlphanum || c = '_'

def isNameStart (c : Char) : Bool :=
  c.isAlpha || c = '_'

def readNumeral? (numeral : List Char) : Option Float :=
  (Decimal.readPlain? numeral).map fun (digits, exponent) => Decimal.nearest digits exponent

/-- The tokens of `cs`, which stands at byte `offset` of the whole text. -/
def tokenizeFrom (offset : Nat) (cs : List Char) : Except SyntaxError (List Token) :=
  match cs with
  | [] => .ok []
  | c :: rest =>
    if Text.isBlank c then tokenizeFrom (offset + c.utf8Size) rest
    else match symbol? c with
    | some token => (tokenizeFrom (offset + 1) rest).map (token :: ·)
    | none =>
      if isNumeralChar c then
        let numeral := c :: rest.takeWhile isNumeralChar
        have := Text.length_dropWhile_le isNumeralChar rest
        if ((rest.dropWhile isNumeralChar).head?).any isWordChar then
          .error (.numberRunsOn offset)
        else match readNumeral? numeral with
        | some value =>
          (tokenizeFrom (offset + numeral.length) (rest.dropWhile isNumeralChar)).map
            (.number value :: ·)
        | none => .error (.malformedNumber (String.ofList numeral) offset)
      else if isNameStart c then
        let name := c :: rest.takeWhile isWordChar
        have := Text.length_dropWhile_le isWordChar rest
        (tokenizeFrom (offset + name.length) (rest.dropWhile isWordChar)).map
          (.name (String.ofList name) :: ·)
      else .error (.unexpectedCharacter c offset)
termination_by cs.length

def tokenize (text : String) : Except SyntaxError (List Token) :=
  tokenizeFrom 0 text.toList

end Appraisal.Expression
