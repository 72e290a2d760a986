import Appraisal.Engine.Evaluation

/-!
# Opportunities

The calculations for one use case, built from the standard formulas: benefits, token costs and
priority.
-/

namespace Appraisal

/-- Yearly benefit estimates of the four value drivers. -/
structure RawBenefits where
  revenue : Float
  cost : Float
  cashFlow : Float
  risk : Float

structure DriverBenefits where
  revenue : CalculatedValue
  cost : CalculatedValue
  cashFlow : CalculatedValue
  risk : CalculatedValue
  totalAnnualValue : CalculatedValue

structure TokenUsage where
  inputTokensPerRun : Float
  outputTokensPerRun : Float
  runsPerMonth : Float

structure TokenCosts where
  monthlyTokens : Float
  monthlyCost : CalculatedValue
  annualCost : CalculatedValue
  perRunCost : Float

structure PriorityInputs where
  totalImpact : Float
  maxImpact : Float
  timeToValueMonths : Float
  /-- From 0 to 100, more for more effort. -/
  effortScore : Float

structure PriorityScores where
  valueScore : CalculatedValue
  ttvScore : CalculatedValue
  priorityScore : CalculatedValue

namespace Engine

/-- A raw benefit under its conservative factor and the maturity of the data. -/
def driverBenefit (now : Instant) (base : Float) (factorId : String) (maturity : Float) :
    Op CalculatedValue := do
  let factor ← Op.ask (·.assumptions.value factorId)
  evaluateFormula now "driver_benefit" (.ofPairs
    [("baseBenefit", base), ("conservativeFactor", factor), ("dataMaturityFactor", maturity)])

def driverBenefits (now : Instant) (raw : RawBenefits) : Op DriverBenefits := do
  let maturity ← Op.ask (·.assumptions.value "data_maturity_factor")
  let revenue ← driverBenefit now raw.revenue "revenue_conservative_factor" maturity
  let cost ← driverBenefit now raw.cost "cost_conservative_factor" maturity
  let cashFlow ← driverBenefit now raw.cashFlow "cashflow_conservative_factor" maturity
  let risk ← driverBenefit now raw.risk "risk_conservative_factor" maturity
  let totalAnnualValue ← evaluateFormula now "total_annual_value" (.ofPairs
    [("revenueBenefit", revenue.value), ("costBenefit", cost.value),
     ("cashFlowBenefit", cashFlow.value), ("riskBenefit", risk.value)])
  return { revenue, cost, cashFlow, risk, totalAnnualValue }

def tokenCosts (now : Instant) (usage : TokenUsage) : Op TokenCosts := do
  let input := usage.inputTokensPerRun * usage.runsPerMonth
  let output := usage.outputTokensPerRun * usage.runsPerMonth
  let inputPrice ← Op.ask (·.assumptions.value "claude_input_price")
  let outputPrice ← Op.ask (·.assumptions.value "claude_output_price")
  let monthlyCost ← evaluateFormula now "token_cost_monthly" (.ofPairs
    [("inputTokens", input), ("outputTokens", output), ("inputPricePerMillion", inputPrice),
     ("outputPricePerMillion", outputPrice)])
  let annualCost ← evaluateFormula now "token_cost_annual" (.ofPairs
    [("monthlyCost", monthlyCost.value)])
  return { monthlyTokens := input + output
           monthlyCost, annualCost
           perRunCost :=
             if 0 < usage.runsPerMonth then monthlyCost.value / usage.runsPerMonth else 0 }

def priority (now : Instant) (inputs : PriorityInputs) : Op PriorityScores := do
  let valueScore ← evaluateFormula now "value_score" (.ofPairs
    [("totalImpact", inputs.totalImpact), ("maxImpact", inputs.maxImpact)])
  let ttvScore ← evaluateFormula now "ttv_score" (.ofPairs
    [("timeToValueMonths", inputs.timeToValueMonths)])
  let valueWeight ← Op.ask (·.assumptions.value "value_weight")
  let ttvWeight ← Op.ask (·.assumptions.value "ttv_weight")
  let effortWeight ← Op.ask (·.assumptions.value "effort_weight")
  let priorityScore ← evaluateFormula now "priority_score" (.ofPairs
    [("valueScore", valueScore.value), ("ttvScore", ttvScore.value),
     ("effortScore", inputs.effortScore), ("valueWeight", valueWeight),
     ("ttvWeight", ttvWeight), ("effortWeight", effortWeight)])
  return { valueScore, ttvScore, priorityScore }

end Engine

namespace RawBenefits

def ofJson? (j : Json) : Option RawBenefits := do
  let j ← j.object?
  return { revenue := ← j.required "revenue" Json.amount?
           cost := ← j.required "cost" Json.amount?
           cashFlow := ← j.required "cashFlow" Json.amount?
           risk := ← j.required "risk" Json.amount? }

end RawBenefits

namespace TokenUsage

def ofJson? (j : Json) : Option TokenUsage := do
  let j ← j.object?
  return { inputTokensPerRun := ← j.required "inputTokensPerRun" Json.amount?
           outputTokensPerRun := ← j.required "outputTokensPerRun" Json.amount?
           runsPerMonth := ← j.required "runsPerMonth" Json.amount? }

end TokenUsage

namespace PriorityInputs

def ofJson? (j : Json) : Option PriorityInputs := do
  let j ← j.object?
  return { totalImpact := ← j.required "totalImpact" Json.amount?
           maxImpact := ← j.required "maxImpact" Json.amount?
           timeToValueMonths := ← j.required "timeToValueMonths" Json.amount?
           effortScore := ← j.required "effortScore" Json.amount? }

end PriorityInputs

def DriverBenefits.toJson (b : DriverBenefits) : Json :=
  .object [("revenue", b.revenue.toJson), ("cost", b.cost.toJson),
    ("cashFlow", b.cashFlow.toJson), ("risk", b.risk.toJson),
    ("totalAnnualValue", b.totalAnnualValue.toJson)]

def TokenCosts.toJson (c : TokenCosts) : Json :=
  .object [("monthlyTokens", .amount c.monthlyTokens), ("monthlyCost", c.monthlyCost.toJson),
    ("annualCost", c.annualCost.toJson), ("perRunCost", .amount c.perRunCost)]

def PriorityScores.toJson (s : PriorityScores) : Json :=
  .object [("valueScore", s.valueScore.toJson), ("ttvScore", s.ttvScore.toJson),
    ("priorityScore", s.priorityScore.toJson)]

end Appraisal
