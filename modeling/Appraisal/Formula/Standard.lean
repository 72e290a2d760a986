import Appraisal.Formula.Basic
import Appraisal.Number.Rounding

/-!
# The standard formulas

The thirteen formulas from which reports and analyses are computed.
-/

namespace Appraisal

namespace Formula

/-- The version under which the standard formulas are registered. -/
def standardVersion : String := "2.0.0"

def read (context : Context) (name : String) : Float :=
  (context.get? name).getD (0 / 0)

def driverBenefit : Formula where
  id := "driver_benefit"
  name := "Driver Benefit with Conservative Factors"
  version := standardVersion
  category := .benefits
  derivation := "benefit = baseBenefit × conservativeFactor × dataMaturityFactor"
  requiredVariables := ["baseBenefit", "conservativeFactor", "dataMaturityFactor"]
  outputUnit := .usdPerYear
  compute c := read c "baseBenefit" * read c "conservativeFactor" * read c "dataMaturityFactor"

def totalAnnualValue : Formula where
  id := "total_annual_value"
  name := "Total Annual Value"
  version := standardVersion
  category := .benefits
  derivation := "total = revenueBenefit + costBenefit + cashFlowBenefit + riskBenefit"
  requiredVariables := ["revenueBenefit", "costBenefit", "cashFlowBenefit", "riskBenefit"]
  outputUnit := .usdPerYear
  compute c :=
    read c "revenueBenefit" + read c "costBenefit" + read c "cashFlowBenefit"
      + read c "riskBenefit"

def tokenCostMonthly : Formula where
  id := "token_cost_monthly"
  name := "Monthly Token Cost"
  version := standardVersion
  category := .costs
  derivation := "cost = inputTokens × inputPricePerMillion / 1e6 + " ++
    "outputTokens × outputPricePerMillion / 1e6"
  requiredVariables :=
    ["inputTokens", "outputTokens", "inputPricePerMillion", "outputPricePerMillion"]
  outputUnit := .usdPerMonth
  compute c :=
    read c "inputTokens" * read c "inputPricePerMillion" / 1000000
      + read c "outputTokens" * read c "outputPricePerMillion" / 1000000

def tokenCostAnnual : Formula where
  id := "token_cost_annual"
  name := "Annual Token Cost"
  version := standardVersion
  category := .costs
  derivation := "annual = monthlyCost × 12"
  requiredVariables := ["monthlyCost"]
  outputUnit := .usdPerYear
  compute c := read c "monthlyCost" * 12

def hoursSavedValue : Formula where
  id := "hours_saved_value"
  name := "Value of Hours Saved"
  version := standardVersion
  category := .benefits
  derivation := "value = hoursSaved × hourlyRate × adoptionRate"
  requiredVariables := ["hoursSaved", "hourlyRate", "adoptionRate"]
  outputUnit := .usdPerYear
  compute c := read c "hoursSaved" * read c "hourlyRate" * read c "adoptionRate"

def valueScore : Formula where
  id := "value_score"
  name := "Value Score"
  version := standardVersion
  category := .scoring
  derivation := "score = min(100, totalImpact / maxImpact × 100)"
  requiredVariables := ["totalImpact", "maxImpact"]
  outputUnit := .score
  compute c :=
    let raw := read c "totalImpact" / read c "maxImpact" * 100
    if raw.isNaN then raw else Number.smaller raw 100

def ttvScore : Formula where
  id := "ttv_score"
  name := "Time-to-Value Score"
  version := standardVersion
  category := .scoring
  derivation := "score = max(0, 100 − timeToValueMonths × 8.33)"
  requiredVariables := ["timeToValueMonths"]
  outputUnit := .score
  compute c := Number.larger (100 - read c "timeToValueMonths" * 8.33) 0

def priorityScore : Formula where
  id := "priority_score"
  name := "Priority Score"
  version := standardVersion
  category := .scoring
  derivation := "priority = (valueScore × valueWeight + ttvScore × ttvWeight + " ++
    "(100 − effortScore) × effortWeight) / 100"
  requiredVariables :=
    ["valueScore", "ttvScore", "effortScore", "valueWeight", "ttvWeight", "effortWeight"]
  outputUnit := .score
  compute c :=
    (read c "valueScore" * read c "valueWeight" + read c "ttvScore" * read c "ttvWeight"
      + (100 - read c "effortScore") * read c "effortWeight") / 100

def roiPercentage : Formula where
  id := "roi_percentage"
  name := "Return on Investment"
  version := standardVersion
  category := .financial
  derivation := "roi = (totalBenefit − totalCost) / totalCost × 100"
  requiredVariables := ["totalBenefit", "totalCost"]
  outputUnit := .percent
  compute c :=
    let cost := read c "totalCost"
    (read c "totalBenefit" - cost) / cost * 100

def paybackPeriod : Formula where
  id := "payback_period"
  name := "Payback Period"
  version := standardVersion
  category := .financial
  derivation := "payback = initialInvestment / annualBenefit"
  requiredVariables := ["initialInvestment", "annualBenefit"]
  outputUnit := .years
  compute c := read c "initialInvestment" / read c "annualBenefit"

def valuePerMillionTokens : Formula where
  id := "value_per_million_tokens"
  name := "Value per Million Tokens"
  version := standardVersion
  category := .financial
  derivation := "value = totalAnnualValue / totalAnnualTokens × 1e6"
  requiredVariables := ["totalAnnualValue", "totalAnnualTokens"]
  outputUnit := .usdPerMillionTokens
  compute c := read c "totalAnnualValue" / read c "totalAnnualTokens" * 1000000

def floorToIncrement : Formula where
  id := "floor_to_increment"
  name := "Round Down to Reporting Increment"
  version := standardVersion
  category := .aggregation
  derivation := "rounded = floor(amount / increment) × increment"
  requiredVariables := ["amount", "increment"]
  outputUnit := .usdPerYear
  compute c :=
    let increment := read c "increment"
    Number.floor (read c "amount" / increment) * increment

def riskAdjustedValue : Formula where
  id := "risk_adjusted_value"
  name := "Risk-Adjusted Opportunity Value"
  version := standardVersion
  category := .benefits
  derivation := "value = (revenueBase × revenueFactor + costBase × costFactor + " ++
    "cashFlowBase × cashFlowFactor + riskBase × riskFactor) × dataMaturityFactor"
  requiredVariables :=
    ["revenueBase", "costBase", "cashFlowBase", "riskBase", "revenueFactor", "costFactor",
     "cashFlowFactor", "riskFactor", "dataMaturityFactor"]
  outputUnit := .usdPerYear
  compute c :=
    (read c "revenueBase" * read c "revenueFactor" + read c "costBase" * read c "costFactor"
      + read c "cashFlowBase" * read c "cashFlowFactor" + read c "riskBase" * read c "riskFactor")
      * read c "dataMaturityFactor"

end Formula

def FormulaRegistry.standard : FormulaRegistry :=
  ⟨[.driverBenefit, .totalAnnualValue, .tokenCostMonthly, .tokenCostAnnual, .hoursSavedValue,
    .valueScore, .ttvScore, .priorityScore, .roiPercentage, .paybackPeriod,
    .valuePerMillionTokens, .floorToIncrement, .riskAdjustedValue]⟩

end Appraisal
