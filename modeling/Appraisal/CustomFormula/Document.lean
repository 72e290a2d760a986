import Appraisal.CustomFormula.Basic
import Appraisal.Expression.Document

/-!
# Custom formulas as JSON
-/

namespace Appraisal

namespace FormulaKey

def fields (k : FormulaKey) : List (String × Json) :=
  Json.field? "reportId" .string k.reportId ++ Json.field? "useCaseId" .string k.useCaseId ++
    [("fieldKey", .string k.fieldKey)]

def toJson (k : FormulaKey) : Json :=
  .object k.fields

def ofJson? (j : Json) : Option FormulaKey := do
  let j ← j.object?
  return { reportId := scope (← j.optionalField "reportId" Json.string?)
           useCaseId := scope (← j.optionalField "useCaseId" Json.string?)
           fieldKey := ← j.required "fieldKey" Json.string? }

end FormulaKey

namespace Expression

def constantsToJson (constants : List Constant) : Json :=
  .array (constants.map Constant.toJson)

/-- Constants as they are written. A value that is not finite was written as `null` and cannot be
read back. -/
def constantsOfJson? (j : Json) : Option (List Constant) :=
  Json.list? (Constant.ofJson? Json.amount?) j

end Expression

/-- All fields in their order. -/
def FormulaVersion.fields (v : FormulaVersion) (inputFields constants createdAt : Json) :
    List (String × Json) :=
  [("id", .string v.id)] ++ v.key.fields ++
    [("label", .string v.label), ("expression", .string v.expression),
     ("inputFields", inputFields), ("constants", constants),
     ("isActive", .bool v.isActive), ("version", .count v.version)] ++
    Json.field? "notes" .string v.notes ++ Json.field? "createdBy" .string v.createdBy ++
    [("createdAt", createdAt)]

def CustomFormula.toJson (f : CustomFormula) : Json :=
  .object (f.toFormulaVersion.fields (.strings f.inputFields)
    (Expression.constantsToJson f.constants) (.string f.createdAt.render))

def FormulaVersion.ofJson? (j : Json) : Option FormulaVersion := do
  let j ← j.object?
  return { id := ← j.required "id" Json.string?
           key := ← FormulaKey.ofJson? j
           label := ← j.required "label" Json.string?
           expression := ← j.required "expression" Json.string?
           isActive := ← j.required "isActive" Json.bool?
           version := ← j.required "version" (Json.count? 32)
           notes := ← j.optionalField "notes" Json.string?
           createdBy := ← j.optionalField "createdBy" Json.string? }

def FormulaDraft.ofJson? (j : Json) : Option FormulaDraft := do
  let j ← j.object?
  return { key := ← FormulaKey.ofJson? j
           label := ← j.required "label" Json.string?
           expression := ← j.required "expression" Json.string?
           inputFields := ← j.fieldOr [] "inputFields" Json.stringList?
           constants := ← j.fieldOr [] "constants" Expression.constantsOfJson?
           notes := ← j.optionalField "notes" Json.string?
           createdBy := ← j.optionalField "createdBy" Json.string? }

end Appraisal
