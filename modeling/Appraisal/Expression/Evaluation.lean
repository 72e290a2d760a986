import Appraisal.Context
import Appraisal.Decimal.Layout
import Appraisal.Expression.Parser
import Appraisal.Number.Rounding
import Appraisal.Text.Uppercase

/-!
# Evaluating expressions

An evaluation never fails as a whole: if there is no finite value it carries a failure and the
value 0. The steps list the constants in order, then the context by name, then the result.
-/

namespace Appraisal.Expression

/-- Picks between two numbers unless one is undefined, which then is the result. -/
def unlessUndefined (pick : Float → Float → Float) (a b : Float) : Float :=
  if a.isNaN || b.isNaN then 0 / 0 else pick a b

def onlyArgument (f : Float → Float) : List Float → Float
  | [x] => f x
  | _ => 0 / 0

/-- The value of a call. The number of arguments was checked when the expression was read. -/
def Function.apply : Function → List Float → Float
  | max, xs => xs.foldl (unlessUndefined Number.larger) (-1 / 0)
  | min, xs => xs.foldl (unlessUndefined Number.smaller) (1 / 0)
  | abs, xs => onlyArgument Float.abs xs
  | round, xs => onlyArgument Number.roundHalfUp xs
  | floor, xs => onlyArgument Number.floor xs
  | ceil, xs => onlyArgument Number.ceiling xs
  | sqrt, xs => onlyArgument Float.sqrt xs
  | pow, [base, exponent] => Number.power base exponent
  | pow, _ => 0 / 0

def Operator.apply : Operator → Float → Float → Float
  | add, a, b => a + b
  | sub, a, b => a - b
  | mul, a, b => a * b
  | div, a, b => a / b

mutual

/-- The value of an expression, or the first variable from the left that is unbound. -/
def eval (binding : String → Option Float) : Expression → Except String Float
  | number value => .ok value
  | var name =>
    match binding name with
    | some value => .ok value
    | none => .error name
  | binary op left right => do
    let a ← left.eval binding
    let b ← right.eval binding
    return op.apply a b
  | call function arguments => do
    let values ← evalAll binding arguments
    return function.apply values

def evalAll (binding : String → Option Float) : List Expression → Except String (List Float)
  | [] => .ok []
  | e :: es => do
    let value ← e.eval binding
    let values ← evalAll binding es
    return value :: values

end

/-- A named constant of a formula, such as a discount rate. -/
structure Constant where
  key : String
  label : String
  value : Float

/-- The context with the constants in place of entries of the same name. -/
def bindings (context : Context) (constants : List Constant) : Context :=
  constants.foldl (fun bound c => bound.insert c.key c.value) context

/-- Money in millions or thousands, whole numbers without and others with two places. -/
def compactAmount (x : Float) : String :=
  if 1000000 ≤ x.abs then "$" ++ Decimal.fixed 2 (x / 1000000) ++ "M"
  else if 1000 ≤ x.abs then "$" ++ Decimal.fixed 1 (x / 1000) ++ "K"
  else if Number.fraction x == 0 then toString (Number.toInteger x)
  else Decimal.fixed 2 x

/-- `costSavings` becomes `Cost Savings`. -/
def titleCase (key : String) : String :=
  match key.toList with
  | [] => ""
  | c :: cs =>
    String.ofList (Text.upper c ++ cs.flatMap fun c => if c.isUpper then [' ', c] else [c])

/-- One line of the explanation of a value. -/
structure Step where
  label : String
  value : Float

def Step.formatted (s : Step) : String :=
  compactAmount s.value

/-- Why there is no value. -/
inductive Failure where
  | tooLong (limit : Nat)
  | malformed (error : SyntaxError)
  | unknownVariable (name : String)
  | notFinite
  /-- The messages of a validation that the expression did not pass. -/
  | invalid (messages : List String)
  deriving DecidableEq

def Failure.message : Failure → String
  | tooLong limit => s!"Expression exceeds {limit} characters"
  | malformed error => "Invalid formula syntax: " ++ error.message
  | unknownVariable name => "Unknown variable: " ++ name
  | notFinite => "Calculation resulted in invalid value (division by zero or overflow)"
  | invalid messages => String.intercalate "; " messages

structure Evaluation where
  value : Float
  steps : List Step
  failure : Option Failure

namespace Evaluation

def failed (steps : List Step) (failure : Failure) : Evaluation :=
  ⟨0, steps, some failure⟩

def isOk (e : Evaluation) : Bool :=
  e.failure.isNone

end Evaluation

/-- The lines for the numbers that an expression may use. -/
def inputSteps (context : Context) (constants : List Constant) : List Step :=
  constants.map (fun c => ⟨if c.label.isEmpty then c.key else c.label, c.value⟩) ++
    context.toList.map fun (key, value) => ⟨titleCase key, value⟩

/-- The finite value of a text, or why there is none. -/
def outcome (limits : Limits) (text : String) (binding : String → Option Float) :
    Except Failure Float :=
  if limits.maxLength < text.length then .error (.tooLong limits.maxLength)
  else match parse limits.maxDepth text with
  | .error e => .error (.malformed e)
  | .ok expression =>
    match expression.eval binding with
    | .error name => .error (.unknownVariable name)
    | .ok value => if value.isFinite then .ok value else .error .notFinite

/-- Evaluates a text; constants override entries of the context with the same name. -/
def evaluate (limits : Limits) (text : String) (context : Context) (constants : List Constant) :
    Evaluation :=
  let steps := inputSteps context constants
  match outcome limits text ((bindings context constants).get? ·) with
  | .ok value => ⟨value, steps ++ [⟨"Result", value⟩], none⟩
  | .error failure => .failed steps failure

end Appraisal.Expression
