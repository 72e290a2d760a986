import Appraisal.CustomFormula.Store
import Appraisal.Research.Problem
import Appraisal.Workbench.Response

/-!
# Errors of the workbench

Why a request was refused, whichever part of the workbench refused it.
-/

namespace Appraisal

inductive WorkbenchError where
  /-- The payload has another shape than research. -/
  | malformedResearch
  | invalidResearch (problems : List Problem)
  | invalidUpdates (problems : List EngineError)
  | rejectedBatch (problems : List EngineError)
  /-- An update was refused although it had been checked. -/
  | failedUpdate (problem : EngineError)
  | engine (error : EngineError)
  | store (error : StoreError)
  | noActiveFormula (fieldKey : String)
  | unusableFolder (path reason : String)

namespace WorkbenchError

def kind : WorkbenchError → ErrorKind
  | malformedResearch | invalidResearch _ | invalidUpdates _ | rejectedBatch _ => .validation
  | failedUpdate _ | unusableFolder _ _ => .internal
  | engine e => e.kind
  | store e => e.kind
  | noActiveFormula _ => .notFound

def message : WorkbenchError → String
  | malformedResearch => "malformed research payload"
  | invalidResearch _ => "invalid research payload"
  | invalidUpdates _ => "invalid assumption updates"
  | rejectedBatch _ => "batch update rejected; no assumptions were changed"
  | failedUpdate e => "checked update failed: " ++ e.message
  | engine e => e.message
  | store e => e.message
  | noActiveFormula fieldKey => s!"no active custom formula for field '{fieldKey}'"
  | unusableFolder path reason => s!"cannot create {path}: {reason}"

def details : WorkbenchError → List String
  | malformedResearch => ["the payload does not have the fields of research"]
  | invalidResearch problems => problems.map Problem.message
  | invalidUpdates problems | rejectedBatch problems => problems.map EngineError.message
  | store (.invalidExpression messages) => messages
  | _ => []

def refusal (e : WorkbenchError) : Refusal :=
  ⟨e.kind, e.message, e.details⟩

end WorkbenchError

/-- The response to a request that answers or is refused. -/
def Response.ofResult {α : Type} (result : Except WorkbenchError α) : Response α :=
  .ofExcept (result.mapError WorkbenchError.refusal)

end Appraisal
