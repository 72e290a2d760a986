import Appraisal.Engine.Basic
import Appraisal.Fingerprint

/-!
# Checkpoints

An exported session carries its assumptions, a summary of the formulas, the whole audit log and a
fingerprint. What is restored from it is checked before anything is applied.
-/

namespace Appraisal

/-- An assumption value to restore. -/
structure AssumptionValue where
  id : String
  value : Float

namespace AssumptionValue

def ofJsonWith? (value? : Json → Option Float) (j : Json) : Option AssumptionValue := do
  let j ← j.object?
  return { id := ← j.required "id" Json.string?
           value := ← j.required "currentValue" value? }

def ofJson? (j : Json) : Option AssumptionValue :=
  ofJsonWith? Json.amount? j

end AssumptionValue

/-- What is read of a checkpoint. An exported session is one as well. -/
structure Checkpoint where
  assumptions : List AssumptionValue
  auditLog : List Audit.Entry
  fingerprint : Option String

def Checkpoint.ofJson? (j : Json) : Option Checkpoint := do
  let j ← j.object?
  return { assumptions := ← j.required "assumptions" (Json.list? AssumptionValue.ofJson?)
           auditLog := ← j.fieldOr [] "auditLog" (Json.list? Audit.Entry.ofJson?)
           fingerprint := ← j.optionalField "fingerprint" Json.string? }

/-- An exported session. -/
structure EngineState where
  engineVersion : String
  exportedAt : Instant
  assumptions : List Assumption
  formulas : List FormulaSummary
  auditLog : List Audit.Entry
  fingerprint : String

namespace EngineState

def expectedFingerprint (s : EngineState) : String :=
  Fingerprint.compute (s.assumptions.map fun a => (a.id, a.currentValue))
    (s.formulas.map fun f => (f.id, f.version))

/-- Whether the fingerprint is that of the state's own contents. -/
def verifyFingerprint (s : EngineState) : Bool :=
  s.expectedFingerprint = s.fingerprint

/-- The part of the state that a checkpoint is restored from. -/
def checkpoint (s : EngineState) : Checkpoint :=
  { assumptions := s.assumptions.map fun a => ⟨a.id, a.currentValue⟩
    auditLog := s.auditLog
    fingerprint := some s.fingerprint }

def toJson (s : EngineState) : Json :=
  .object [("engineVersion", .string s.engineVersion), ("exportedAt", .string s.exportedAt.render),
    ("assumptions", .array (s.assumptions.map Assumption.toJson)),
    ("formulas", .array (s.formulas.map FormulaSummary.toJson)),
    ("auditLog", .array (s.auditLog.map Audit.Entry.toJson)),
    ("fingerprint", .string s.fingerprint)]

def ofJson? (j : Json) : Option EngineState := do
  let j ← j.object?
  return { engineVersion := ← j.required "engineVersion" Json.string?
           exportedAt := ← j.required "exportedAt" Audit.Entry.timestamp?
           assumptions := ← j.required "assumptions" (Json.list? Assumption.ofJson?)
           formulas := ← j.required "formulas" (Json.list? FormulaSummary.ofJson?)
           auditLog := ← j.required "auditLog" (Json.list? Audit.Entry.ofJson?)
           fingerprint := ← j.required "fingerprint" Json.string? }

end EngineState

namespace Engine

def fingerprint (e : Engine) : String :=
  Fingerprint.compute e.assumptions.pairs (e.formulas.formulas.map fun f => (f.id, f.version))

def exportState (e : Engine) (now : Instant) : EngineState :=
  { engineVersion := version
    exportedAt := now
    assumptions := e.assumptions.assumptions
    formulas := e.formulas.formulas.map (·.toFormulaSummary)
    auditLog := e.audit.entries
    fingerprint := e.fingerprint }

/-- The problems of a list of values, in its order. -/
def importProblems (r : AssumptionRegistry) (values : List AssumptionValue) : List EngineError :=
  values.filterMap fun v =>
    match r.check v.id v.value with
    | .ok _ => none
    | .error e => some e

/-- Sets a value; the default of an assumption counts as no override. -/
def applyValue (r : AssumptionRegistry) (v : AssumptionValue) :
    Except EngineError AssumptionRegistry := do
  if (r.get? v.id).any (·.defaultValue == v.value) then r.reset v.id
  else return (← r.update v.id v.value).2

/-- Applies all values, or none and reports every problem. -/
def importAssumptions (now : Instant) (values : List AssumptionValue) (e : Engine) :
    Except (List EngineError) Engine :=
  let problems := importProblems e.assumptions values
  if !problems.isEmpty then .error problems
  else match values.foldlM applyValue e.assumptions with
  | .error problem => .error [problem]
  | .ok assumptions =>
    .ok { e with
      assumptions
      audit := e.audit.record now .importAssumptions (.object
        [("values", .array (values.map fun v =>
          .object [("id", .string v.id), ("value", .amount v.value)]))]) }

/-- A fresh session with the log and the values of a checkpoint. The fingerprint, if there is one,
must be that of the restored session. The clock is read again for each entry. -/
def fromCheckpoint (formulas : FormulaRegistry) (now : Instant) (c : Checkpoint)
    (restoredAt importedAt : Instant := now) : Except EngineError Engine := do
  let fresh := withFormulas formulas now
  let log ← if c.auditLog.isEmpty then .ok fresh.audit else Audit.Log.restore c.auditLog
  let started := { fresh with
    audit := log.record restoredAt .restoreCheckpoint (.object
      [("assumptions", .count c.assumptions.length),
       ("restoredAuditEntries", .bool !c.auditLog.isEmpty)]) }
  match importAssumptions importedAt c.assumptions started with
  | .error problems =>
    .error (.invalidCheckpoint (String.intercalate "; " (problems.map EngineError.message)))
  | .ok restored =>
    match c.fingerprint with
    | none => return restored
    | some expected =>
      if restored.fingerprint = expected then return restored
      else .error (.invalidCheckpoint
        s!"fingerprint mismatch: expected {expected}, restored {restored.fingerprint}")

end Engine

end Appraisal
