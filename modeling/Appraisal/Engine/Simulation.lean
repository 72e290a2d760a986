import Appraisal.Engine.Evaluation
import Appraisal.Simulation.Sampling
import Appraisal.Simulation.Summary

/-!
# Simulation runs

A run propagates uncertain variables through a formula. All draws of the first variable come before
those of the second, so that further variables do not disturb the draws of earlier ones.
-/

namespace Appraisal.Engine

open Simulation (Summary)

/-- The draws of each variable, in the order of the variables. -/
def drawAll (size : Nat) : List UncertainVariable → Simulation.Draw (List (List Float))
  | [] => return []
  | v :: vs => do
    let first ← Simulation.draws v size
    return first :: (← drawAll size vs)

/-- The draws of each variable under its id, if all of them end. -/
def columnDraws? (vs : List UncertainVariable) (size : Nat) (seed : UInt64) :
    Option (List (String × List Float)) := do
  let (columns, _) ← (drawAll size vs).run (.ofSeed seed)
  return (vs.map (·.id)).zip columns

/-- `base` with the first draw of every variable. -/
def sampleContext (base : Context) (columns : List (String × List Float)) : Context :=
  columns.foldl (fun context (id, xs) => context.insert id (xs.headD 0)) base

/-- The formula's value at each sample. -/
def outputsOf (f : Formula) (base : Context) (columns : List (String × List Float)) :
    Nat → List Float
  | 0 => []
  | size + 1 =>
    f.evaluate (sampleContext base columns) ::
      outputsOf f base (columns.map fun (id, xs) => (id, xs.tail)) size

/-- The outputs of a run, if its draws end. -/
def outputs? (f : Formula) (base : Context) (vs : List UncertainVariable) (size : Nat)
    (seed : UInt64) : Option (List Float) := do
  return outputsOf f base (← columnDraws? vs size seed) size

def firstInvalid : List UncertainVariable → Except EngineError Unit
  | [] => .ok ()
  | v :: vs => do
    v.validate
    firstInvalid vs

/-- Each sample's context is the assumptions, then `fixed`, then the draws. Values that are not
finite are counted and left out of the summary; if all are, the run is recorded and refused. -/
def runMonteCarlo (now : Instant) (vs : List UncertainVariable) (formulaId : String)
    (size : Nat) (seed : UInt64) (fixed : Context) : Op Summary := do
  let (f, base) ← Op.ask fun e => do
    if size = 0 then .error .emptySample
    firstInvalid vs
    return (← e.formula formulaId, e.callContext fixed)
  let values ← Op.await (outputs? f base vs size seed)
  let finite := values.filter (·.isFinite)
  let failed := values.length - finite.length
  let result := Simulation.summarize finite failed seed
  let mean : Option Float := match result with
    | .ok s => some s.mean
    | .error _ => none
  Op.record now .monteCarlo
    [("formulaId", .string formulaId), ("variables", .strings (vs.map (·.id))),
     ("sampleSize", .count size), ("seed", .count seed.toNat), ("failedSamples", .count failed),
     ("mean", .optional .amount mean)]
  ExceptT.mk (return result)

end Appraisal.Engine
