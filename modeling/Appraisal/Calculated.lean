import Appraisal.Context
import Appraisal.Engine.Error
import Appraisal.Instant

/-!
# Calculated values

The result of one evaluation: a number with its unit, the formula and version that gave it and the
inputs that the formula read. A flawed value is 0.
-/

namespace Appraisal

structure CalculatedValue where
  value : Float
  unit : Measure
  formulaId : String
  formulaVersion : String
  inputs : Context
  computedAt : Instant
  flaw : Option Flaw

namespace CalculatedValue

def isOk (v : CalculatedValue) : Bool :=
  v.flaw.isNone

/-- The value that a flaw is attached to. -/
def flawed (v : CalculatedValue) (flaw : Flaw) : CalculatedValue :=
  { v with value := 0, flaw := some flaw }

def toJson (v : CalculatedValue) : Json :=
  .object ([("value", .amount v.value), ("unit", v.unit.toJson),
    ("formulaId", .string v.formulaId), ("formulaVersion", .string v.formulaVersion),
    ("inputsSnapshot", .object (v.inputs.toList.map fun (name, x) => (name, .amount x))),
    ("computedAt", .string v.computedAt.render)] ++ Json.field? "error" Flaw.toJson v.flaw)

end CalculatedValue

end Appraisal
