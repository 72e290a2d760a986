import Appraisal.Expression.InputField
import Appraisal.Expression.Validation
import Appraisal.Json.Decode

/-!
# Expressions as JSON
-/

namespace Appraisal

namespace Expression

open Json (amount count optional string strings)

def Operator.name : Operator → String
  | add => "add"
  | sub => "sub"
  | mul => "mul"
  | div => "div"

mutual

def toJson : Expression → Json
  | number value => .object [("node", .string "number"), ("value", amount value)]
  | var name => .object [("node", .string "variable"), ("name", .string name)]
  | binary op left right =>
    .object [("node", .string "binary_op"), ("op", .string op.name), ("left", left.toJson),
      ("right", right.toJson)]
  | call function arguments =>
    .object [("node", .string "function_call"), ("function", .string function.name),
      ("args", .array (toJsonAll arguments))]

def toJsonAll : List Expression → List Json
  | [] => []
  | e :: es => e.toJson :: toJsonAll es

end

def Issue.toJson : Issue → Json
  | empty => .object [("kind", .string "empty")]
  | tooLong length max =>
    .object [("kind", .string "too_long"), ("length", count length), ("max", count max)]
  | unsafePattern pattern =>
    .object [("kind", .string "unsafe_pattern"), ("pattern", .string pattern)]
  | missingVariable name =>
    .object [("kind", .string "missing_variable"), ("name", .string name)]
  | unbalancedParentheses => .object [("kind", .string "unbalanced_parentheses")]
  | tooDeep max => .object [("kind", .string "too_deep"), ("max", count max)]
  | syntaxFault error => .object [("kind", .string "syntax"), ("message", .string error.message)]

def Validation.toJson (v : Validation) : Json :=
  .object [("isValid", .bool v.isValid), ("issues", .array (v.issues.map Issue.toJson)),
    ("missingVariables", strings v.missingVariables), ("usedVariables", strings v.usedVariables)]

def Step.toJson (s : Step) : Json :=
  .object [("label", .string s.label), ("value", amount s.value),
    ("formatted", .string s.formatted)]

def Evaluation.toJson (e : Evaluation) : Json :=
  .object ([("value", amount e.value), ("steps", .array (e.steps.map Step.toJson))] ++
    Json.field? "error" string (e.failure.map Failure.message))

def Constant.toJson (c : Constant) : Json :=
  .object [("key", .string c.key), ("label", .string c.label), ("value", amount c.value)]

/-- A constant whose value is read by `value?`. -/
def Constant.ofJson? (value? : Json → Option Float) (j : Json) : Option Constant := do
  let j ← j.object?
  return { key := ← j.required "key" Json.string?
           label := ← j.fieldOr "" "label" Json.string?
           value := ← j.required "value" value? }

end Expression

def InputField.toJson (f : InputField) : Json :=
  .object [("key", .string f.key), ("label", .string f.label),
    ("description", .string f.description), ("category", .string f.category)]

def InputField.catalogJson : Json :=
  .object (InputField.byCategory.map fun (category, fields) =>
    (category, .array (fields.map InputField.toJson)))

def Context.toJson (c : Context) : Json :=
  .object (c.toList.map fun (name, value) => (name, Json.amount value))

def Context.ofJson? (value? : Json → Option Float) (j : Json) : Option Context :=
  (j.entries? value?).map Context.ofPairs

end Appraisal
