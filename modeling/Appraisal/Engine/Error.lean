import Appraisal.Decimal.Layout
import Appraisal.Measure

/-!
# Errors of the engine

An `EngineError` is why a request was refused, or that it never returns. A `Flaw` is attached to a
calculated value that is there, but not usable.
-/

namespace Appraisal

inductive ErrorKind where
  | validation
  | notFound
  | conflict
  | internal
  deriving DecidableEq, Repr

inductive EngineError where
  | unknownFormula (id : String)
  | unknownAssumption (id : String)
  | duplicateFormula (id version : String)
  | belowMinimum (id : String) (value minimum : Float)
  | aboveMaximum (id : String) (value maximum : Float)
  | notFinite (id : String)
  | dimensionMismatch (left right : Measure)
  | invalidVariable (id reason : String)
  | emptySample
  | noValidSamples (failed : Nat)
  | invalidCheckpoint (reason : String)
  /-- No refusal: the request goes on without end, and nobody sees an answer. -/
  | endless

namespace EngineError

/-- A checkpoint that cannot be restored counts as damaged. -/
def kind : EngineError → ErrorKind
  | unknownFormula _ | unknownAssumption _ => .notFound
  | duplicateFormula _ _ => .conflict
  | belowMinimum _ _ _ | aboveMaximum _ _ _ | notFinite _ | dimensionMismatch _ _
  | invalidVariable _ _ | emptySample => .validation
  | noValidSamples _ | invalidCheckpoint _ | endless => .internal

def message : EngineError → String
  | unknownFormula id => "unknown formula: " ++ id
  | unknownAssumption id => "unknown assumption: " ++ id
  | duplicateFormula id version => s!"formula {id} version {version} is already registered"
  | belowMinimum id value minimum =>
    s!"{id}: value {Decimal.message value} is below minimum {Decimal.message minimum}"
  | aboveMaximum id value maximum =>
    s!"{id}: value {Decimal.message value} is above maximum {Decimal.message maximum}"
  | notFinite id => s!"{id}: value is not a finite number"
  | dimensionMismatch left right =>
    s!"dimension mismatch: {left.name} ({left.dimension.name}) cannot combine with " ++
      s!"{right.name} ({right.dimension.name})"
  | invalidVariable id reason => s!"uncertain variable {id}: {reason}"
  | emptySample => "sample size must be at least 1"
  | noValidSamples failed => s!"all {failed} samples produced non-finite values"
  | invalidCheckpoint reason => "invalid checkpoint: " ++ reason
  | endless => "the request does not end"

end EngineError

/-- Why a calculated value is not usable. -/
inductive Flaw where
  | missingVariables (names : List String)
  | nonFinite
  | invalidInput (name : String)
  deriving DecidableEq, Repr

def Flaw.message : Flaw → String
  | missingVariables names => "missing variables: " ++ String.intercalate ", " names
  | nonFinite => "result is not finite (division by zero or overflow)"
  | invalidInput name => s!"input {name} carries an evaluation error"

def Flaw.toJson : Flaw → Json
  | missingVariables names =>
    .object [("kind", .string "missing_variables"), ("names", .strings names)]
  | nonFinite => .object [("kind", .string "non_finite")]
  | invalidInput name => .object [("kind", .string "invalid_input"), ("name", .string name)]

/-- Refuses two units of different dimensions. -/
def Measure.checkCompatible (a b : Measure) : Except EngineError Unit :=
  if a.dimension = b.dimension then .ok () else .error (.dimensionMismatch a b)

/-- The number in another unit, refused across dimensions. -/
def Measure.convert (x : Float) (source target : Measure) : Except EngineError Float := do
  checkCompatible source target
  return rescale x source target

end Appraisal
