import Appraisal.Report.Uncertainty
import Appraisal.Research.Document
import Appraisal.Research.Validation
import Appraisal.Workbench.Assumptions

/-!
# Requests for reports

Every report is calculated on a fresh engine over the standard formulas.
-/

namespace Appraisal

structure UncertaintyOptions where
  sampleSize : Option Nat
  seed : Option UInt64

namespace Workbench

/-- The research of a payload, if it has the shape of one and passes all checks. -/
def readResearch (payload : Json) : Except WorkbenchError Research := do
  match ResearchInput.ofJson? payload with
  | none => .error .malformedResearch
  | some input => input.validate.mapError .invalidResearch

/-- The engine with all overrides, or every problem with them. -/
def overridden (now : Instant) (overrides : List AssumptionValue) (e : Engine) :
    Except WorkbenchError Engine :=
  let problems := Engine.importProblems e.assumptions overrides
  if problems.isEmpty then
    match e.run (Engine.updateAll now overrides) with
    | (.ok _, e) => .ok e
    | (.error problem, _) => .error (.engine problem)
  else .error (.invalidUpdates problems)

/-- The report of a research with some assumptions overridden. -/
def reportWith (settings : Settings) (m : Moment) (overrides : List AssumptionValue)
    (research : Research) : Except WorkbenchError Report := do
  let engine ← overridden m.now overrides (.new m.now)
  (engine.run (Engine.assemble m.now m.freshId settings.report research)).1.mapError .engine

/-- The report of a research under the standard assumptions. -/
def reportOf (settings : Settings) (m : Moment) (research : Research) :
    Except WorkbenchError Report :=
  ((Engine.new m.now).run (Engine.assemble m.now m.freshId settings.report research)).1.mapError
    .engine

/-- The analysis with the number of samples moved into the bounds of the settings. -/
def analysisOf (settings : Settings) (m : Moment) (options : UncertaintyOptions)
    (research : Research) : Except WorkbenchError UncertaintyReport :=
  let size := settings.sampling.clamp options.sampleSize
  let seed := options.seed.getD settings.sampling.defaultSeed
  ((Engine.new m.now).run (Uncertainty.analyze m.now research size seed)).1.mapError .engine

def calculate (m : Moment) (payload : Json) : Op Report :=
  ask fun w => do reportOf w.settings m (← readResearch payload)

def recalculate (m : Moment) (payload : Json) (overrides : List AssumptionValue) : Op Report :=
  ask fun w => do reportWith w.settings m overrides (← readResearch payload)

def uncertainty (m : Moment) (payload : Json) (options : UncertaintyOptions) :
    Op UncertaintyReport :=
  ask fun w => do analysisOf w.settings m options (← readResearch payload)

end Workbench

end Appraisal
