import Appraisal.Assumption.Registry
import Appraisal.Audit.Log
import Appraisal.Formula.Standard

/-!
# The engine

One calculation session: registered formulas, a private set of assumptions and the audit log of all
that was done with them. An operation is given the reading of the clock; it changes the session and
either answers or is refused.
-/

namespace Appraisal

structure Engine where
  formulas : FormulaRegistry
  assumptions : AssumptionRegistry
  audit : Audit.Log

namespace Engine

/-- The version that checkpoints and health reports carry. -/
def version : String := "0.4.0"

/-- An operation on a session. What it has changed stays changed if it is refused later on. -/
abbrev Op (α : Type) := ExceptT EngineError (StateM Engine) α

namespace Op

/-- Reads from the session. -/
def ask {α : Type} (read : Engine → Except EngineError α) : Op α := do
  ExceptT.mk (return read (← get))

/-- Changes the assumptions, or refuses to. -/
def edit {α : Type} (change : AssumptionRegistry → Except EngineError (α × AssumptionRegistry)) :
    Op α := do
  let (answer, assumptions) ← ask fun e => change e.assumptions
  modify fun e => { e with assumptions }
  return answer

/-- What a computation gives. If it does not end, neither does the operation. -/
def await {α : Type} (computation : Option α) : Op α :=
  ask fun _ => computation.elim (.error .endless) .ok

def record (now : Instant) (action : Audit.Action) (details : List (String × Json)) : Op Unit :=
  modify fun e => { e with audit := e.audit.record now action (.object details) }

end Op

/-- The answer of an operation and the session after it. -/
def run {α : Type} (e : Engine) (op : Op α) : Except EngineError α × Engine :=
  StateT.run (ExceptT.run op) e

/-- A fresh session over registered formulas, with one entry in its log. -/
def withFormulas (formulas : FormulaRegistry) (now : Instant) : Engine :=
  let assumptions := AssumptionRegistry.withDefaults
  { formulas, assumptions
    audit := Audit.Log.empty.record now .start (.object
      [("engineVersion", .string version), ("formulaCount", .count formulas.size),
       ("assumptionCount", .count assumptions.size)]) }

def new (now : Instant) : Engine :=
  withFormulas .standard now

def updateAssumption (now : Instant) (id : String) (value : Float) : Op Unit := do
  let previous ← Op.edit (·.update id value)
  Op.record now .updateAssumption
    [("id", .string id), ("previous", .amount previous), ("value", .amount value)]

def resetAssumption (now : Instant) (id : String) : Op Unit := do
  Op.edit fun r => do return ((), ← r.reset id)
  let value ← Op.ask (·.assumptions.value id)
  Op.record now .resetAssumption [("id", .string id), ("value", .amount value)]

def resetAllAssumptions (now : Instant) : Op Unit := do
  let overridden ← Op.ask fun e => .ok e.assumptions.overridden
  Op.edit fun r => .ok ((), r.resetAll)
  Op.record now .resetAllAssumptions [("reset", .strings overridden)]

end Engine

end Appraisal
