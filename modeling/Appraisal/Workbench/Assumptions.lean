import Appraisal.Workbench.Basic

/-!
# Requests on assumptions, formulas and state
-/

namespace Appraisal

/-- What became of one update of a batch. -/
structure BatchItem where
  id : String
  problem : Option EngineError

def BatchItem.success (i : BatchItem) : Bool :=
  i.problem.isNone

structure BatchResult where
  applied : Nat
  results : List BatchItem

structure Health where
  formulaCount : Nat
  assumptionCount : Nat
  auditEntries : Nat

namespace Health

/-- The version of the form in which requests and responses are written. -/
def protocolVersion : Nat := 1

end Health

/-- Updates one value after the other. -/
def Engine.updateAll (now : Instant) : List AssumptionValue → Engine.Op Unit
  | [] => return
  | u :: us => do
    updateAssumption now u.id u.value
    updateAll now us

namespace Workbench

def listAssumptions : Op (List Assumption) :=
  ask fun w => .ok w.engine.assumptions.assumptions

def assumptionsByCategory : Op (List (AssumptionCategory × List Assumption)) :=
  ask fun w => .ok w.engine.assumptions.byCategory

def updateAssumption (m : Moment) (update : AssumptionValue) : Op Assumption :=
  onEngine do
    Engine.updateAssumption m.now update.id update.value
    Engine.Op.ask (·.assumptions.find update.id)

/-- The outcome of the check of every update, in order. -/
def checkedItems (r : AssumptionRegistry) (updates : List AssumptionValue) : List BatchItem :=
  updates.map fun u =>
    match r.check u.id u.value with
    | .ok _ => ⟨u.id, none⟩
    | .error e => ⟨u.id, some e⟩

/-- Applies every update or none. A rejected batch is answered with the error and with the outcome
of every check. -/
def batchUpdate (m : Moment) (updates : List AssumptionValue) : Op BatchResult := fun w =>
  let results := checkedItems w.engine.assumptions updates
  let problems := results.filterMap (·.problem)
  if problems.isEmpty then
    match w.engine.run (Engine.updateAll m.now updates) with
    | (.ok _, engine) => (.ok ⟨updates.length, results⟩, { w with engine })
    | (.error e, engine) => (.refused (WorkbenchError.failedUpdate e).refusal, { w with engine })
  else (⟨false, some ⟨0, results⟩, some (WorkbenchError.rejectedBatch problems).refusal⟩, w)

def resetAssumption (m : Moment) (id : String) : Op Assumption :=
  onEngine do
    Engine.resetAssumption m.now id
    Engine.Op.ask (·.assumptions.find id)

def resetAllAssumptions (m : Moment) : Op (List Assumption) :=
  onEngine do
    Engine.resetAllAssumptions m.now
    Engine.Op.ask fun e => .ok e.assumptions.assumptions

def listFormulas : Op (List FormulaSummary) :=
  ask fun _ => .ok (FormulaRegistry.standard.formulas.map (·.toFormulaSummary))

def getFormula (id : String) : Op FormulaSummary :=
  ask fun _ =>
    match FormulaRegistry.standard.get? id with
    | some f => .ok f.toFormulaSummary
    | none => .error (.engine (.unknownFormula id))

def exportState (m : Moment) : Op EngineState :=
  ask fun w => .ok (w.engine.exportState m.now)

/-- Replaces the browsed engine by the one of a checkpoint, unless the checkpoint is refused. -/
def importState (m : Moment) (c : Checkpoint) : Op EngineState := fun w =>
  match Engine.fromCheckpoint .standard m.now c with
  | .ok engine => (.ok (engine.exportState m.now), { w with engine })
  | .error e => (.refused (WorkbenchError.engine e).refusal, w)

def auditLog : Op (List Audit.Entry) :=
  ask fun w => .ok w.engine.audit.entries

def health : Op Health :=
  ask fun w => .ok
    { formulaCount := w.engine.formulas.size
      assumptionCount := w.engine.assumptions.size
      auditEntries := w.engine.audit.size }

end Workbench

end Appraisal
