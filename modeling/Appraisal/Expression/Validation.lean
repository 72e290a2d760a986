import Appraisal.Expression.Evaluation

/-!
# Validating expressions

The static checks before an expression is kept or evaluated. An empty or overlong text and an unsafe
pattern end the validation; missing variables are all reported, and after them at most one fault of
the structure.
-/

namespace Appraisal.Expression

inductive Issue where
  | empty
  | tooLong (length max : Nat)
  | unsafePattern (pattern : String)
  | missingVariable (name : String)
  | unbalancedParentheses
  | tooDeep (max : Nat)
  | syntaxFault (error : SyntaxError)
  deriving DecidableEq

def Issue.message : Issue → String
  | empty => "Expression is empty"
  | tooLong length max => s!"Expression is {length} characters; the limit is {max}"
  | unsafePattern pattern => "Unsafe pattern in expression: " ++ pattern
  | missingVariable name => "Unknown variable: " ++ name
  | unbalancedParentheses => "Mismatched parentheses"
  | tooDeep max => s!"Expression nesting exceeds {max} levels"
  | syntaxFault error => "Syntax error: " ++ error.message

def Issue.isUnsafe : Issue → Bool
  | unsafePattern _ => true
  | _ => false

structure Validation where
  issues : List Issue
  missingVariables : List String
  usedVariables : List String

namespace Validation

def isValid (v : Validation) : Bool :=
  v.issues.isEmpty

def messages (v : Validation) : List String :=
  v.issues.map Issue.message

def hasUnsafePattern (v : Validation) : Bool :=
  v.issues.any Issue.isUnsafe

end Validation

/-- Names of host objects and keywords. An expression that mentions one is refused, in any case of
letters, so that its author gets a clear message. -/
def reservedNames : List String :=
  ["eval", "function", "new", "return", "import", "require", "process", "global", "window",
   "document", "console", "constructor", "prototype", "__proto__", "this"]

def isReserved (name : String) : Bool :=
  reservedNames.any fun r => r = String.ofList (name.toList.map Char.toLower)

/-- The maximal runs of letters, digits and underscores. -/
def wordRuns (cs : List Char) : List (List Char) :=
  match cs with
  | [] => []
  | c :: rest =>
    if isWordChar c then
      have := Text.length_dropWhile_le isWordChar rest
      (c :: rest.takeWhile isWordChar) :: wordRuns (rest.dropWhile isWordChar)
    else wordRuns rest
termination_by cs.length

/-- Whether a run of word characters is a name that no function has. -/
def isVariableName (word : List Char) : Bool :=
  (word.head?.any isNameStart) && (Function.ofName? (String.ofList word)).isNone

/-- The members of a list without repetitions, in the order of their first places. -/
def firstOccurrences (names : List String) : List String :=
  names.foldl (fun seen name => if seen.contains name then seen else seen ++ [name]) []

/-- The variables that a text mentions, also if it cannot be read as an expression. A run that
starts with a digit is no name. -/
def usedVariables (text : String) : List String :=
  firstOccurrences (((wordRuns text.toList).filter isVariableName).map String.ofList)

def isAllowedChar (c : Char) : Bool :=
  isWordChar c || Text.isBlank c ||
    ['+', '-', '*', '/', '(', ')', '.', ',', '%'].contains c

def unsafePattern? (text : String) : Option String :=
  match text.toList.find? (!isAllowedChar ·) with
  | some c => some s!"character '{c}'"
  | none =>
    ((wordRuns text.toList).map String.ofList).find? isReserved |>.map fun word =>
      s!"reserved identifier '{word}'"

/-- The deepest nesting of parentheses, `none` if they do not match. -/
def nesting? : (depth deepest : Nat) → List Char → Option Nat
  | depth, deepest, [] => if depth = 0 then some deepest else none
  | depth, deepest, '(' :: cs => nesting? (depth + 1) (max deepest (depth + 1)) cs
  | depth, deepest, ')' :: cs => if depth = 0 then none else nesting? (depth - 1) deepest cs
  | depth, deepest, _ :: cs => nesting? depth deepest cs

/-- What is wrong with the structure of a text. -/
def structureIssue? (maxDepth : Nat) (text : String) : Option Issue :=
  match nesting? 0 0 text.toList with
  | none => some .unbalancedParentheses
  | some deepest =>
    if maxDepth < deepest then some (.tooDeep maxDepth)
    else match parse maxDepth text with
    | .ok _ => none
    | .error e => some (.syntaxFault e)

def validate (limits : Limits) (text : String) (available : List String) : Validation :=
  let used := usedVariables text
  if Text.isBlankText text then ⟨[.empty], [], used⟩
  else if limits.maxLength < text.length then
    ⟨[.tooLong text.length limits.maxLength], [], used⟩
  else match unsafePattern? text with
  | some pattern => ⟨[.unsafePattern pattern], [], used⟩
  | none =>
    let missing := used.filter (!available.contains ·)
    ⟨missing.map .missingVariable ++ (structureIssue? limits.maxDepth text).toList, missing, used⟩

/-- The names that an expression may use. -/
def availableNames (context : Context) (constants : List Constant) : List String :=
  context.keys ++ constants.map Constant.key

/-- Evaluates a text only if it is valid; else the messages are the failure. -/
def preview (limits : Limits) (text : String) (context : Context) (constants : List Constant) :
    Evaluation :=
  let validation := validate limits text (availableNames context constants)
  if validation.isValid then evaluate limits text context constants
  else .failed [] (.invalid validation.messages)

end Appraisal.Expression
