import Appraisal.Workbench.Document

/-!
# Requests

Everything that can be asked of a workbench, and the answer to it as a document.
-/

namespace Appraisal

inductive Request where
  | listAssumptions
  | assumptionsByCategory
  | updateAssumption (update : AssumptionValue)
  | batchUpdate (updates : List AssumptionValue)
  | resetAssumption (id : String)
  | resetAllAssumptions
  | listFormulas
  | getFormula (id : String)
  | calculate (payload : Json)
  | recalculate (payload : Json) (overrides : List AssumptionValue)
  | uncertainty (payload : Json) (options : UncertaintyOptions)
  | exportState
  | importState (checkpoint : Checkpoint)
  | auditLog
  | health
  | listCustomFormulas (key : FormulaKey)
  | createCustomFormula (draft : FormulaDraft)
  | activateCustomFormula (id : String)
  | previewFormula (request : PreviewRequest)
  | evaluateCustomFormula (key : FormulaKey) (context : Context)
  | listAvailableInputs

namespace Workbench

/-- The answer of an operation as a document. -/
def Op.written {α : Type} (op : Op α) (encode : α → Json) : Op Json := fun w =>
  let (response, w) := op w
  (response.map encode, w)

def answer (m : Moment) : Request → Op Json
  | .listAssumptions => listAssumptions.written assumptionsToJson
  | .assumptionsByCategory => Op.written Workbench.assumptionsByCategory groupsToJson
  | .updateAssumption update => (updateAssumption m update).written Assumption.toJson
  | .batchUpdate updates => (batchUpdate m updates).written BatchResult.toJson
  | .resetAssumption id => (resetAssumption m id).written Assumption.toJson
  | .resetAllAssumptions => (resetAllAssumptions m).written assumptionsToJson
  | .listFormulas => listFormulas.written formulasToJson
  | .getFormula id => (getFormula id).written FormulaSummary.toJson
  | .calculate payload => (calculate m payload).written Report.toJson
  | .recalculate payload overrides => (recalculate m payload overrides).written Report.toJson
  | .uncertainty payload options => (uncertainty m payload options).written UncertaintyReport.toJson
  | .exportState => (exportState m).written EngineState.toJson
  | .importState checkpoint => (importState m checkpoint).written EngineState.toJson
  | .auditLog => auditLog.written entriesToJson
  | .health => health.written Health.toJson
  | .listCustomFormulas key => (listCustomFormulas key).written FormulaVersions.toJson
  | .createCustomFormula draft => (createCustomFormula m draft).written CustomFormula.toJson
  | .activateCustomFormula id => (activateCustomFormula id).written CustomFormula.toJson
  | .previewFormula request => (previewFormula request).written Expression.Evaluation.toJson
  | .evaluateCustomFormula key context =>
    (evaluateCustomFormula key context).written CustomEvaluation.toJson
  | .listAvailableInputs => listAvailableInputs.written inputsToJson

end Workbench

end Appraisal
