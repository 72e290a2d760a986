import Appraisal.Engine.Simulation
import Appraisal.Report.Assembly

/-!
# Uncertainty analysis

The four raw estimates of each use case and the data maturity are taken as triangular distributions
and propagated through the risk-adjusted value. The conservative factors stay at their current
values. The use case at place `i` is sampled with the seed plus `i`, so adding use cases at the end
changes none of the ones before.
-/

namespace Appraisal

structure SensitivityEntry where
  variableId : String
  label : String
  low : Float
  mode : Float
  high : Float
  spreadPercent : Float

structure OpportunityUncertainty where
  id : String
  name : String
  /-- The risk-adjusted value at the most likely inputs. -/
  pointEstimate : Float
  distribution : Simulation.Summary
  /-- The widest input range first. -/
  sensitivity : List SensitivityEntry

structure UncertaintyReport where
  companyName : String
  generatedAt : Instant
  formulaId : String
  sampleSize : Nat
  seed : UInt64
  opportunities : List OpportunityUncertainty

namespace Uncertainty

/-- The formula through which the estimates are propagated. -/
def formulaId : String := "risk_adjusted_value"

/-- A raw estimate in its given range, or from 70 to 110 percent of it. -/
def driver (id label : String) (estimate : Float) (range : Option ImpactRange) :
    UncertainVariable :=
  match range with
  | some r =>
    { UncertainVariable.triangular id r.low estimate r.high .usdPerYear with
      label, confidenceLevel := .high }
  | none =>
    { UncertainVariable.triangular id (estimate * 0.7) estimate (estimate * 1.1) .usdPerYear with
      label }

/-- The uncertain inputs of a use case. The maturity lies between 0.5 and 0.95, or further out where
the current factor does. -/
def uncertainInputs (u : UseCase) (maturity : Float) : List UncertainVariable :=
  [driver "revenueBase" "Revenue impact" u.benefits.revenue u.impactRanges.revenue,
   driver "costBase" "Cost impact" u.benefits.cost u.impactRanges.cost,
   driver "cashFlowBase" "Cash flow impact" u.benefits.cashFlow u.impactRanges.cashFlow,
   driver "riskBase" "Risk reduction" u.benefits.risk u.impactRanges.risk,
   { UncertainVariable.triangular "dataMaturityFactor" (Number.smaller 0.5 maturity) maturity
       (Number.larger 0.95 maturity) .ratio with
     label := "Data maturity factor", confidenceLevel := .low }]

def entry (v : UncertainVariable) : SensitivityEntry :=
  { variableId := v.id
    label := v.label
    low := v.low
    mode := v.mode
    high := v.high
    spreadPercent := v.spreadPercent }

def sensitivity (inputs : List UncertainVariable) : List SensitivityEntry :=
  (inputs.map entry).mergeSort fun a b => Ranking.atLeast a.spreadPercent b.spreadPercent

/-- The conservative factors under their variables. -/
def fixedFactors (r : AssumptionRegistry) : Except EngineError Context := do
  return .ofPairs
    [("revenueFactor", ← r.value "revenue_conservative_factor"),
     ("costFactor", ← r.value "cost_conservative_factor"),
     ("cashFlowFactor", ← r.value "cashflow_conservative_factor"),
     ("riskFactor", ← r.value "risk_conservative_factor")]

/-- The fixed factors with every variable at its mode. -/
def pointContext (fixed : Context) (inputs : List UncertainVariable) : Context :=
  fixed.overlay (.ofPairs (inputs.map fun v => (v.id, v.mode)))

def opportunity (now : Instant) (fixed : Context) (maturity : Float) (size : Nat)
    (seed : UInt64) (u : UseCase) : Engine.Op OpportunityUncertainty := do
  let inputs := uncertainInputs u maturity
  let point ← Engine.evaluateFormula now formulaId (pointContext fixed inputs)
  let distribution ← Engine.runMonteCarlo now inputs formulaId size seed fixed
  return { id := u.id
           name := u.name
           pointEstimate := point.value
           distribution
           sensitivity := sensitivity inputs }

/-- The use cases one after the other, each with the next seed. -/
def opportunities (now : Instant) (fixed : Context) (maturity : Float) (size : Nat) :
    UInt64 → List UseCase → Engine.Op (List OpportunityUncertainty)
  | _, [] => return []
  | seed, u :: us => do
    let first ← opportunity now fixed maturity size seed u
    return first :: (← opportunities now fixed maturity size (seed + 1) us)

def analyze (now : Instant) (research : Research) (size : Nat) (seed : UInt64) :
    Engine.Op UncertaintyReport := do
  let maturity ← Engine.applyMaturity now research.overview.dataMaturityLevel
  let fixed ← Engine.Op.ask fun e => fixedFactors e.assumptions
  let opportunities ← opportunities now fixed maturity size seed research.useCases
  return { companyName := research.companyName
           generatedAt := now
           formulaId
           sampleSize := size
           seed, opportunities }

end Uncertainty

def SensitivityEntry.toJson (s : SensitivityEntry) : Json :=
  .object [("variableId", .string s.variableId), ("label", .string s.label),
    ("low", .amount s.low), ("mode", .amount s.mode), ("high", .amount s.high),
    ("spreadPercent", .amount s.spreadPercent)]

def OpportunityUncertainty.toJson (o : OpportunityUncertainty) : Json :=
  .object [("id", .string o.id), ("name", .string o.name),
    ("pointEstimate", .amount o.pointEstimate), ("distribution", o.distribution.toJson),
    ("sensitivity", .array (o.sensitivity.map SensitivityEntry.toJson))]

def UncertaintyReport.toJson (r : UncertaintyReport) : Json :=
  .object [("companyName", .string r.companyName), ("generatedAt", .string r.generatedAt.render),
    ("formulaId", .string r.formulaId), ("sampleSize", .count r.sampleSize),
    ("seed", .count r.seed.toNat),
    ("opportunities", .array (r.opportunities.map OpportunityUncertainty.toJson))]

end Appraisal
