import Appraisal.Assumption.Basic

/-!
# The default assumptions
-/

namespace Appraisal.Assumption

/-- An assumption at its default. -/
def seed (id label : String) (category : AssumptionCategory) (unit : Measure)
    (value minimum maximum step : Float) (description : String) (source : SourceReference) :
    Assumption :=
  { id, label, description, category, unit, step, minimum, maximum
    defaultValue := value
    currentValue := value
    isUserOverride := false
    sources := [source] }

def pricing : SourceReference :=
  ⟨"anthropic_pricing", "Anthropic API Pricing", some "https://www.anthropic.com/pricing",
    some 2025⟩

def salaries : SourceReference :=
  ⟨"glassdoor_burden", "Glassdoor salary data with 1.3x benefits burden", none, some 2024⟩

def methodology : SourceReference :=
  ⟨"bcg_methodology", "BCG value realization methodology", none, some 2024⟩

def survey : SourceReference :=
  ⟨"mckinsey_ai_report", "McKinsey State of AI", none, some 2024⟩

def changeManagement : SourceReference :=
  ⟨"bcg_change_mgmt", "BCG change management research", none, some 2024⟩

def framework : SourceReference :=
  ⟨"internal", "Internal scoring framework", none, some 2025⟩

def defaults : List Assumption :=
  [seed "claude_input_price" "Claude Input Token Price" .aiPricing .usdPerMillionTokens
    3 0.01 100 0.01 "Price per million input tokens" pricing,
   seed "claude_output_price" "Claude Output Token Price" .aiPricing .usdPerMillionTokens
    15 0.01 100 0.01 "Price per million output tokens" pricing,
   seed "analyst_hourly_rate" "Analyst Hourly Rate" .laborRates .usdPerHour
    85 25 500 5 "Fully burdened hourly cost of an analyst" salaries,
   seed "engineer_hourly_rate" "Engineer Hourly Rate" .laborRates .usdPerHour
    125 50 750 5 "Fully burdened hourly cost of an engineer" salaries,
   seed "csm_hourly_rate" "Customer Success Hourly Rate" .laborRates .usdPerHour
    95 30 500 5 "Fully burdened hourly cost of a customer success manager" salaries,
   seed "revenue_conservative_factor" "Revenue Conservative Factor" .conservativeFactors .ratio
    0.95 0.5 1 0.01 "Discount applied to raw revenue benefit estimates" methodology,
   seed "cost_conservative_factor" "Cost Conservative Factor" .conservativeFactors .ratio
    0.90 0.5 1 0.01 "Discount applied to raw cost benefit estimates" methodology,
   seed "cashflow_conservative_factor" "Cash Flow Conservative Factor" .conservativeFactors .ratio
    0.85 0.5 1 0.01 "Discount applied to raw cash flow benefit estimates" methodology,
   seed "risk_conservative_factor" "Risk Conservative Factor" .conservativeFactors .ratio
    0.80 0.5 1 0.01 "Discount applied to raw risk reduction estimates" methodology,
   seed "data_maturity_factor" "Data Maturity Factor" .conservativeFactors .ratio
    0.75 0.25 1 0.05 "Scales benefits by the organization's data and process readiness" survey,
   seed "adoption_rate" "Adoption Rate" .adoption .ratio
    0.85 0.3 1 0.05 "Share of target users expected to adopt the workflow" changeManagement,
   seed "adoption_friction" "Adoption Friction" .adoption .ratio
    0.90 0.5 1 0.05 "Productivity retained during the transition period" changeManagement,
   seed "implementation_cost_ratio" "Implementation Cost Ratio" .financial .ratio
    0.20 0.05 1 0.01 "One-time implementation cost as a share of first-year value" framework,
   seed "value_weight" "Value Weight" .scoringWeights .percent
    40 0 100 5 "Weight of the value score in priority" framework,
   seed "ttv_weight" "Time-to-Value Weight" .scoringWeights .percent
    30 0 100 5 "Weight of the time-to-value score in priority" framework,
   seed "effort_weight" "Effort Weight" .scoringWeights .percent
    30 0 100 5 "Weight of the inverted effort score in priority" framework]

/-- The formula variable that an assumption feeds. The labor rates feed none: three roles share
`hourlyRate`, and one of them is picked per use case. -/
def formulaVariable? : String → Option String
  | "claude_input_price" => some "inputPricePerMillion"
  | "claude_output_price" => some "outputPricePerMillion"
  | "revenue_conservative_factor" => some "revenueFactor"
  | "cost_conservative_factor" => some "costFactor"
  | "cashflow_conservative_factor" => some "cashFlowFactor"
  | "risk_conservative_factor" => some "riskFactor"
  | "data_maturity_factor" => some "dataMaturityFactor"
  | "adoption_rate" => some "adoptionRate"
  | "value_weight" => some "valueWeight"
  | "ttv_weight" => some "ttvWeight"
  | "effort_weight" => some "effortWeight"
  | _ => none

end Appraisal.Assumption
