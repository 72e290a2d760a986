import Appraisal.Expression.InputField
import Appraisal.Workbench.Basic

/-!
# Requests on custom formulas
-/

namespace Appraisal

structure FormulaVersions where
  /-- The newest version first. -/
  versions : List CustomFormula
  active : Option CustomFormula

structure PreviewRequest where
  expression : String
  context : Context
  constants : List Expression.Constant

/-- The evaluation of a stored version. -/
structure CustomEvaluation where
  formulaId : String
  version : Nat
  evaluation : Expression.Evaluation

namespace Workbench

def listCustomFormulas (key : FormulaKey) : Op FormulaVersions :=
  ask fun w => do
    let versions ← (w.store.versions key).mapError .store
    let active ← (w.store.active key).mapError .store
    return { versions, active }

def createCustomFormula (m : Moment) (draft : FormulaDraft) : Op CustomFormula :=
  onStore (FormulaStore.create m.freshId m.now draft)

def activateCustomFormula (id : String) : Op CustomFormula :=
  onStore (FormulaStore.activate id)

def previewFormula (request : PreviewRequest) : Op Expression.Evaluation :=
  ask fun w => .ok (Expression.preview w.settings.limits request.expression request.context
    request.constants)

/-- Evaluates the active version of a key. A failed evaluation is data as well. -/
def evaluateCustomFormula (key : FormulaKey) (context : Context) : Op CustomEvaluation :=
  ask fun w => do
    match ← (w.store.active key).mapError .store with
    | none => .error (.noActiveFormula key.fieldKey)
    | some f =>
      return { formulaId := f.id
               version := f.version
               evaluation := Expression.preview w.settings.limits f.expression context f.constants }

def listAvailableInputs : Op (List (String × List InputField)) :=
  ask fun _ => .ok InputField.byCategory

end Workbench

end Appraisal
