import Appraisal.Json.Basic
import Appraisal.Decimal.Layout

/-!
# Writing JSON

The compact form has no blanks; the readable one indents by two columns. In strings only the quote,
the backslash and the control characters are escaped.
-/

namespace Appraisal.Json

def hexDigit (n : Nat) : Char :=
  (Nat.digitChar (n % 16))

/-- One character of a string between quotes. -/
def escape (c : Char) : List Char :=
  match c with
  | '"' => ['\\', '"']
  | '\\' => ['\\', '\\']
  | '\n' => ['\\', 'n']
  | '\r' => ['\\', 'r']
  | '\t' => ['\\', 't']
  | '\x08' => ['\\', 'b']
  | '\x0c' => ['\\', 'f']
  | c =>
    if c.toNat < 0x20 then ['\\', 'u', '0', '0', hexDigit (c.toNat / 16), hexDigit c.toNat]
    else [c]

def quoted (s : String) : String :=
  String.ofList ('"' :: s.toList.flatMap escape ++ ['"'])

/-- The text of an amount. -/
def amountText (x : Float) : String :=
  if x.isFinite then Decimal.Style.document.render x else "null"

def separated (separator : String) : List String → String
  | [] => ""
  | s :: ss => ss.foldl (fun text next => text ++ separator ++ next) s

mutual

def compact : Json → String
  | null => "null"
  | bool b => if b then "true" else "false"
  | integer n => toString n
  | real x => amountText x
  | string s => quoted s
  | array items => "[" ++ separated "," (compactItems items) ++ "]"
  | object fields => "\x7b" ++ separated "," (compactFields fields) ++ "\x7d"

def compactItems : List Json → List String
  | [] => []
  | j :: js => compact j :: compactItems js

def compactFields : List (String × Json) → List String
  | [] => []
  | (key, value) :: fields => (quoted key ++ ":" ++ compact value) :: compactFields fields

end

def indentation (level : Nat) : String :=
  "\n" ++ String.ofList (List.replicate (2 * level) ' ')

/-- A bracketed list with one entry on a line. -/
def block (left right : String) (level : Nat) (entries : List String) : String :=
  if entries.isEmpty then left ++ right
  else left ++ indentation (level + 1) ++ separated ("," ++ indentation (level + 1)) entries
    ++ indentation level ++ right

mutual

def prettyAt (level : Nat) : Json → String
  | array items => block "[" "]" level (prettyItems (level + 1) items)
  | object fields => block "\x7b" "\x7d" level (prettyFields (level + 1) fields)
  | null => compact null
  | bool b => compact (bool b)
  | integer n => compact (integer n)
  | real x => compact (real x)
  | string s => compact (string s)

def prettyItems (level : Nat) : List Json → List String
  | [] => []
  | j :: js => prettyAt level j :: prettyItems level js

def prettyFields (level : Nat) : List (String × Json) → List String
  | [] => []
  | (key, value) :: fields =>
    (quoted key ++ ": " ++ prettyAt level value) :: prettyFields level fields

end

def pretty (j : Json) : String :=
  prettyAt 0 j

end Appraisal.Json
