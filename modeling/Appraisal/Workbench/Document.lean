import Appraisal.CustomFormula.Document
import Appraisal.Report.Document
import Appraisal.Workbench.CustomFormulas
import Appraisal.Workbench.Reports

/-!
# Requests and answers of the workbench as JSON
-/

namespace Appraisal

/-- An update names the new value `value`. -/
def AssumptionValue.ofUpdate? (j : Json) : Option AssumptionValue := do
  let j ← j.object?
  return { id := ← j.required "id" Json.string?
           value := ← j.required "value" Json.amount? }

def UncertaintyOptions.ofJson? (j : Json) : Option UncertaintyOptions := do
  let j ← j.object?
  let seed ← j.optionalField "seed" (Json.count? 64)
  return { sampleSize := ← j.optionalField "sampleSize" (Json.count? 64)
           seed := seed.map (·.toUInt64) }

def PreviewRequest.ofJson? (j : Json) : Option PreviewRequest := do
  let j ← j.object?
  return { expression := ← j.required "expression" Json.string?
           context := ← j.fieldOr {} "context" (Context.ofJson? Json.amount?)
           constants := ← j.fieldOr [] "constants" Expression.constantsOfJson? }

def BatchItem.toJson (i : BatchItem) : Json :=
  .object ([("id", .string i.id), ("success", .bool i.success)] ++
    Json.field? "error" (.string ·.message) i.problem)

def BatchResult.toJson (r : BatchResult) : Json :=
  .object [("applied", .count r.applied), ("results", .array (r.results.map BatchItem.toJson))]

def Health.toJson (h : Health) : Json :=
  .object [("status", .string "ok"), ("engineVersion", .string Engine.version),
    ("protocolVersion", .count protocolVersion), ("formulaCount", .count h.formulaCount),
    ("assumptionCount", .count h.assumptionCount), ("auditEntries", .count h.auditEntries)]

def FormulaVersions.toJson (v : FormulaVersions) : Json :=
  .object [("versions", .array (v.versions.map CustomFormula.toJson)),
    ("active", .optional CustomFormula.toJson v.active)]

def CustomEvaluation.toJson (e : CustomEvaluation) : Json :=
  .object [("formulaId", .string e.formulaId), ("version", .count e.version),
    ("evaluation", e.evaluation.toJson)]

namespace Workbench

def assumptionsToJson (assumptions : List Assumption) : Json :=
  .array (assumptions.map Assumption.toJson)

def groupsToJson (groups : List (AssumptionCategory × List Assumption)) : Json :=
  .array (groups.map fun (category, members) =>
    .object [("category", .string category.name), ("label", .string category.label),
      ("assumptions", assumptionsToJson members)])

def formulasToJson (formulas : List FormulaSummary) : Json :=
  .array (formulas.map FormulaSummary.toJson)

def entriesToJson (entries : List Audit.Entry) : Json :=
  .array (entries.map Audit.Entry.toJson)

def inputsToJson (inputs : List (String × List InputField)) : Json :=
  .object (inputs.map fun (category, fields) => (category, .array (fields.map InputField.toJson)))

end Workbench

end Appraisal
