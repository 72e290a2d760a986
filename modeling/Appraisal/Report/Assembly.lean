import Appraisal.Engine.Checkpoint
import Appraisal.Report.Ranking
import Appraisal.Settings.Basic
import Appraisal.Simulation.Summary

/-!
# Assembling reports

The calculation of a report on one session. Values of use cases stay exact; the benefit totals of
the dashboard are the only rounded figures, and they are rounded last.
-/

namespace Appraisal

namespace Engine

/-- The factor for a level of data maturity, unless the assumption was overridden already. Answers
the factor in effect. -/
def applyMaturity (now : Instant) (level : Nat) : Op Float := do
  let current ← Op.ask (·.assumptions.find "data_maturity_factor")
  if !current.isUserOverride then
    updateAssumption now "data_maturity_factor" (maturityFactor level)
  Op.ask (·.assumptions.value "data_maturity_factor")

def hoursValue (now : Instant) (hours rate adoption : Float) : Op CalculatedValue :=
  evaluateFormula now "hours_saved_value" (.ofPairs
    [("hoursSaved", hours), ("hourlyRate", rate), ("adoptionRate", adoption)])

/-- Friction costs in full, whatever the adoption. -/
def frictionTable (now : Instant) : List FrictionPoint → Op (List FrictionRow)
  | [] => return []
  | f :: fs => do
    let annualBurden ← hoursValue now f.annualHours f.hourlyRate 1
    return ⟨f, annualBurden⟩ :: (← frictionTable now fs)

/-- The value of the hours saved, if they are estimated. Without an estimate of the adoption the
assumption stands in. -/
def hoursSaved (now : Instant) (u : UseCase) : Op (Option CalculatedValue) := do
  match u.hoursSaved, u.hourlyRate with
  | some hours, some rate =>
    let adoption ← match u.adoptionRate with
      | some a => pure a
      | none => Op.ask (·.assumptions.value "adoption_rate")
    return some (← hoursValue now hours rate adoption)
  | _, _ => return none

/-- What is calculated for a use case before the scores, which depend on all use cases. -/
structure Unscored where
  useCase : UseCase
  benefits : DriverBenefits
  tokenCosts : TokenCosts
  hoursSavedValue : Option CalculatedValue

def unscored (now : Instant) : List UseCase → Op (List Unscored)
  | [] => return []
  | u :: us => do
    let benefits ← driverBenefits now u.benefits
    let tokenCosts ← Engine.tokenCosts now u.tokens
    let hoursSavedValue ← hoursSaved now u
    return ⟨u, benefits, tokenCosts, hoursSavedValue⟩ :: (← unscored now us)

/-- The largest annual value, at least 0. -/
def maxImpact (results : List Unscored) : Float :=
  (results.map (·.benefits.totalAnnualValue.value)).foldl Number.larger 0

def scored (now : Instant) (maxImpact : Float) : List Unscored → Op (List UseCaseResult)
  | [] => return []
  | r :: rs => do
    let effortScore := r.useCase.effort.score
    let scores ← priority now
      { totalImpact := r.benefits.totalAnnualValue.value
        maxImpact
        timeToValueMonths := wholeMonths r.useCase.effort.timeToValueMonths
        effortScore }
    let result : UseCaseResult :=
      { useCase := r.useCase
        benefits := r.benefits
        hoursSavedValue := r.hoursSavedValue
        tokenCosts := r.tokenCosts
        scoring :=
          { valueScore := scores.valueScore
            ttvScore := scores.ttvScore
            effortScore
            priorityScore := scores.priorityScore } }
    return result :: (← scored now maxImpact rs)

/-- The sum of one figure over all use cases, per year. -/
def sumOver (now : Instant) (label : String) (figure : UseCaseResult → CalculatedValue)
    (useCases : List UseCaseResult) : Op CalculatedValue :=
  sumValues now label (useCases.map fun r => (r.id, figure r)) .usdPerYear

/-- A total rounded down to the increment; a flawed one stays as it is. -/
def floorTotal (now : Instant) (increment : Float) (total : CalculatedValue) :
    Op CalculatedValue := do
  if total.isOk then
    evaluateFormula now "floor_to_increment" (.ofPairs
      [("amount", total.value), ("increment", increment)])
  else return total

def dashboard (now : Instant) (settings : ReportSettings) (useCases : List UseCaseResult) :
    Op Dashboard := do
  let revenue ← sumOver now "totalRevenueBenefit" (·.benefits.revenue) useCases
  let cost ← sumOver now "totalCostBenefit" (·.benefits.cost) useCases
  let cashFlow ← sumOver now "totalCashFlowBenefit" (·.benefits.cashFlow) useCases
  let risk ← sumOver now "totalRiskBenefit" (·.benefits.risk) useCases
  let total ← sumOver now "totalAnnualValue" (·.benefits.totalAnnualValue) useCases
  let tokenCost ← sumOver now "totalAnnualTokenCost" (·.tokenCosts.annualCost) useCases
  let monthlyTokens := Simulation.total (useCases.map (·.tokenCosts.monthlyTokens))
  let ratio ← Op.ask (·.assumptions.value "implementation_cost_ratio")
  let implementationCost := ratio * total.value
  let totalCost := implementationCost + tokenCost.value
  let valuePerMillionTokens ← evaluateFormula now "value_per_million_tokens" (.ofPairs
    [("totalAnnualValue", total.value), ("totalAnnualTokens", monthlyTokens * 12)])
  let roi ← evaluateFormula now "roi_percentage" (.ofPairs
    [("totalBenefit", total.value), ("totalCost", totalCost)])
  let paybackPeriod ← evaluateFormula now "payback_period" (.ofPairs
    [("initialInvestment", totalCost), ("annualBenefit", total.value)])
  let increment := settings.roundingIncrement
  return { totalRevenueBenefit := ← floorTotal now increment revenue
           totalCostBenefit := ← floorTotal now increment cost
           totalCashFlowBenefit := ← floorTotal now increment cashFlow
           totalRiskBenefit := ← floorTotal now increment risk
           totalAnnualValue := ← floorTotal now increment total
           totalMonthlyTokens := monthlyTokens
           totalAnnualTokenCost := tokenCost
           implementationCost, valuePerMillionTokens, roi, paybackPeriod
           topUseCases := rank useCases settings.top }

/-- The report of a research on this session, under a fresh id. -/
def assemble (now : Instant) (reportId : String) (settings : ReportSettings)
    (research : Research) : Op Report := do
  let dataMaturityFactor ← applyMaturity now research.overview.dataMaturityLevel
  let frictionTable ← frictionTable now research.frictionPoints
  let partialResults ← unscored now research.useCases
  let useCases ← scored now (maxImpact partialResults) partialResults
  let dashboard ← dashboard now settings useCases
  let engine ← get
  return { id := reportId
           companyName := research.companyName
           generatedAt := now
           engineVersion := version
           assumptions := engine.assumptions.assumptions
           company := { overview := research.overview, dataMaturityFactor, frictionTable }
           useCases, dashboard
           auditTrail := engine.audit.entries
           fingerprint := engine.fingerprint }

end Engine

end Appraisal
