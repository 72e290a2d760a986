import Appraisal.Engine.Error
import Appraisal.Number.Rounding

/-!
# Summaries of samples

Samples are sorted first, so a summary does not depend on their order.
-/

namespace Appraisal.Simulation

structure Summary where
  sampleSize : Nat
  p10 : Float
  p25 : Float
  median : Float
  p75 : Float
  p90 : Float
  mean : Float
  standardDeviation : Float
  /-- Whether the standard error of the mean is below one percent of the mean. -/
  convergenceAchieved : Bool
  failedSamples : Nat
  seed : UInt64

def Summary.toJson (s : Summary) : Json :=
  .object [("sampleSize", .count s.sampleSize), ("p10", .amount s.p10), ("p25", .amount s.p25),
    ("median", .amount s.median), ("p75", .amount s.p75), ("p90", .amount s.p90),
    ("mean", .amount s.mean), ("standardDeviation", .amount s.standardDeviation),
    ("convergenceAchieved", .bool s.convergenceAchieved),
    ("failedSamples", .count s.failedSamples), ("seed", .count s.seed.toNat)]

/-- The relative standard error below which a run counts as converged. -/
def convergenceThreshold : Float := 0.01

def sorted (samples : List Float) : List Float :=
  samples.mergeSort Number.totalLe

/-- The place of a percentile among `size` sorted samples. -/
def percentileIndex (size : Nat) (p : Float) : Nat :=
  min (Number.toNatural (Number.floor (p * Float.ofNat size))) (size - 1)

def percentile (samples : Array Float) (p : Float) : Float :=
  samples.getD (percentileIndex samples.size p) 0

/-- The sum from the left. It starts with `-0`, which changes no number that is added to it. -/
def total (xs : List Float) : Float :=
  xs.foldl (· + ·) (-0.0)

/-- The summary of sorted samples, of which there is at least one. -/
def ofSorted (samples : List Float) (failed : Nat) (seed : UInt64) : Summary :=
  let array := samples.toArray
  let n := Float.ofNat samples.length
  let mean := total samples / n
  let variance := total (samples.map fun x => (x - mean) * (x - mean)) / n
  let deviation := variance.sqrt
  let standardError := deviation / n.sqrt
  { sampleSize := samples.length
    p10 := percentile array 0.10
    p25 := percentile array 0.25
    median := percentile array 0.50
    p75 := percentile array 0.75
    p90 := percentile array 0.90
    mean
    standardDeviation := deviation
    convergenceAchieved :=
      standardError == 0 || standardError / mean.abs < convergenceThreshold
    failedSamples := failed
    seed }

/-- The summary of finite samples; there must be one. -/
def summarize (samples : List Float) (failed : Nat) (seed : UInt64) :
    Except EngineError Summary :=
  if samples.isEmpty then .error (.noValidSamples failed)
  else .ok (ofSorted (sorted samples) failed seed)

end Appraisal.Simulation
