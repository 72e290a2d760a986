import Appraisal.Expression.Basic

/-!
# Syntax errors

What can be wrong with the text of an expression. Errors of single characters and numbers name the
byte at which they stand, all others the position of a token.
-/

namespace Appraisal.Expression

inductive SyntaxError where
  | unexpectedCharacter (char : Char) (offset : Nat)
  /-- A number that runs straight into letters. -/
  | numberRunsOn (offset : Nat)
  | malformedNumber (text : String) (offset : Nat)
  | empty
  | unexpectedToken (position : Nat)
  | unsupportedPercent (position : Nat)
  | unexpectedEnd
  | tooDeep (limit : Nat)
  | unknownFunction (name : String)
  | notCalled (function : Function)
  | wrongArity (function : Function)
  | missingParenthesis
  | expectedParenthesis
  | expectedSeparator
  deriving DecidableEq, Repr

def arityMessage (f : Function) : String :=
  match f with
  | .max | .min => s!"{f.name} requires at least one argument"
  | .pow => "pow requires exactly two arguments"
  | _ => s!"{f.name} requires exactly one argument"

def SyntaxError.message : SyntaxError → String
  | unexpectedCharacter char offset => s!"Unexpected character '{char}' at position {offset}"
  | numberRunsOn offset => s!"Invalid number at position {offset}"
  | malformedNumber text offset => s!"Invalid number '{text}' at position {offset}"
  | empty => "Empty expression"
  | unexpectedToken position => s!"Unexpected token at position {position}"
  | unsupportedPercent position => s!"Operator '%' is not supported (position {position})"
  | unexpectedEnd => "Unexpected end of expression"
  | tooDeep limit => s!"Expression nesting exceeds {limit} levels"
  | unknownFunction name => s!"Unknown function '{name}'"
  | notCalled function => s!"Function '{function.name}' must be called with parentheses"
  | wrongArity function => arityMessage function
  | missingParenthesis => "Missing closing parenthesis"
  | expectedParenthesis => "Expected closing parenthesis"
  | expectedSeparator => "Expected ',' or ')' in function arguments"

end Appraisal.Expression
