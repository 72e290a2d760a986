import Appraisal.Assumption.Defaults
import Appraisal.Context

/-!
# The assumption registry

The assumptions of one session. The set of ids is fixed; only values and override flags change.
-/

namespace Appraisal

structure AssumptionRegistry where
  assumptions : List Assumption

namespace AssumptionRegistry

def withDefaults : AssumptionRegistry := ⟨Assumption.defaults⟩

def get? (r : AssumptionRegistry) (id : String) : Option Assumption :=
  r.assumptions.find? (·.id = id)

def find (r : AssumptionRegistry) (id : String) : Except EngineError Assumption :=
  match r.get? id with
  | some a => .ok a
  | none => .error (.unknownAssumption id)

def value (r : AssumptionRegistry) (id : String) : Except EngineError Float :=
  (r.find id).map (·.currentValue)

def size (r : AssumptionRegistry) : Nat :=
  r.assumptions.length

/-- Changes the assumption with an id. -/
def modify (r : AssumptionRegistry) (id : String) (change : Assumption → Assumption) :
    AssumptionRegistry :=
  ⟨r.assumptions.map fun a => if a.id = id then change a else a⟩

/-- Refuses unknown ids and values outside the bounds. -/
def check (r : AssumptionRegistry) (id : String) (value : Float) : Except EngineError Unit := do
  (← r.find id).check value

/-- The registry with a value overridden, and the value before. -/
def update (r : AssumptionRegistry) (id : String) (value : Float) :
    Except EngineError (Float × AssumptionRegistry) := do
  let a ← r.find id
  a.check value
  return (a.currentValue, r.modify id (.override value))

def reset (r : AssumptionRegistry) (id : String) : Except EngineError AssumptionRegistry := do
  let _ ← r.find id
  return r.modify id .restored

def resetAll (r : AssumptionRegistry) : AssumptionRegistry :=
  ⟨r.assumptions.map .restored⟩

/-- The ids of the overridden assumptions. -/
def overridden (r : AssumptionRegistry) : List String :=
  (r.assumptions.filter (·.isUserOverride)).map (·.id)

/-- The categories that have members, in the order of presentation. -/
def byCategory (r : AssumptionRegistry) : List (AssumptionCategory × List Assumption) :=
  (AssumptionCategory.all.map fun c => (c, r.assumptions.filter (·.category = c))).filter
    (!·.2.isEmpty)

/-- Ids with current values. -/
def pairs (r : AssumptionRegistry) : List (String × Float) :=
  r.assumptions.map fun a => (a.id, a.currentValue)

def values (r : AssumptionRegistry) : Context :=
  Context.ofPairs r.pairs

/-- The current values under the formula variables that the assumptions feed. -/
def variablePairs (r : AssumptionRegistry) : List (String × Float) :=
  r.assumptions.filterMap fun a =>
    (Assumption.formulaVariable? a.id).map fun name => (name, a.currentValue)

/-- The current values as formulas see them: by id and by the variable that is fed. -/
def formulaContext (r : AssumptionRegistry) : Context :=
  Context.ofPairs (r.pairs ++ r.variablePairs)

end AssumptionRegistry

end Appraisal
