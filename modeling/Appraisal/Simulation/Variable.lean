import Appraisal.Assumption.Basic
import Appraisal.Random.Generator

/-!
# Uncertain variables

An input that is known as a range with a most likely value, and the draws from its distribution.
-/

namespace Appraisal

inductive Distribution where
  | triangular
  /-- Its mean is the mode and its deviation a quarter of the range; draws may leave the range. -/
  | normal
  | uniform
  /-- A beta distribution over the range, of shape 4. -/
  | pert
  /-- Always the mode. -/
  | point
  deriving DecidableEq, Repr

namespace Distribution

def all : List Distribution := [triangular, normal, uniform, pert, point]

def name : Distribution → String
  | triangular => "triangular"
  | normal => "normal"
  | uniform => "uniform"
  | pert => "pert"
  | point => "point"

def ofJson? (j : Json) : Option Distribution := do
  let name ← j.caseName?
  all.find? (·.name = name)

end Distribution

inductive ConfidenceLevel where
  | low
  | medium
  | high
  deriving DecidableEq, Repr

namespace ConfidenceLevel

def all : List ConfidenceLevel := [low, medium, high]

def name : ConfidenceLevel → String
  | low => "low"
  | medium => "medium"
  | high => "high"

def ofJson? (j : Json) : Option ConfidenceLevel := do
  let name ← j.caseName?
  all.find? (·.name = name)

end ConfidenceLevel

structure UncertainVariable where
  id : String
  label : String
  distribution : Distribution
  low : Float
  mode : Float
  high : Float
  unit : Measure
  confidenceLevel : ConfidenceLevel
  sources : List SourceReference

namespace UncertainVariable

/-- A variable of medium confidence, labelled by its id. -/
def make (distribution : Distribution) (id : String) (low mode high : Float) (unit : Measure) :
    UncertainVariable :=
  { id, distribution, low, mode, high, unit
    label := id
    confidenceLevel := .medium
    sources := [] }

def triangular := make .triangular

def normal := make .normal

def pert := make .pert

/-- The mode of a uniform variable is the middle of its range. -/
def uniform (id : String) (low high : Float) (unit : Measure) : UncertainVariable :=
  make .uniform id low ((low + high) / 2) high unit

/-- A known value, carried through a simulation unchanged. -/
def point (id : String) (value : Float) (unit : Measure) : UncertainVariable :=
  make .point id value value value unit

def validate (v : UncertainVariable) : Except EngineError Unit :=
  if !(v.low.isFinite && v.mode.isFinite && v.high.isFinite) then
    .error (.invalidVariable v.id "bounds must be finite")
  else if v.mode < v.low || v.high < v.mode then
    .error (.invalidVariable v.id "expected low <= mode <= high")
  else .ok ()

/-- The width of the range in percent of the mode, 0 if the mode is 0. -/
def spreadPercent (v : UncertainVariable) : Float :=
  if v.mode == 0 then 0 else (v.high - v.low) / v.mode.abs * 100

def toJson (v : UncertainVariable) : Json :=
  .object [("id", .string v.id), ("label", .string v.label),
    ("distribution", .string v.distribution.name), ("low", .amount v.low),
    ("mode", .amount v.mode), ("high", .amount v.high), ("unit", v.unit.toJson),
    ("confidenceLevel", .string v.confidenceLevel.name),
    ("sources", .array (v.sources.map SourceReference.toJson))]

def ofJson? (j : Json) : Option UncertainVariable := do
  let j ← j.object?
  return { id := ← j.required "id" Json.string?
           label := ← j.required "label" Json.string?
           distribution := ← j.required "distribution" Distribution.ofJson?
           low := ← j.required "low" Json.amount?
           mode := ← j.required "mode" Json.amount?
           high := ← j.required "high" Json.amount?
           unit := ← j.required "unit" Measure.ofJson?
           confidenceLevel := ← j.required "confidenceLevel" ConfidenceLevel.ofJson?
           sources := ← j.fieldOr [] "sources" (Json.list? SourceReference.ofJson?) }

end UncertainVariable

end Appraisal
