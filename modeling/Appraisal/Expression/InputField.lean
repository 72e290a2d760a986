/-!
# Input fields

The fields of a report that a custom formula may refer to, by category.
-/

namespace Appraisal

structure InputField where
  key : String
  label : String
  description : String
  category : String
  deriving DecidableEq, Repr

namespace InputField

def all : List InputField :=
  [⟨"revenueBenefit", "Revenue Benefit ($)", "Annual revenue increase from AI use case",
    "benefits"⟩,
   ⟨"costBenefit", "Cost Benefit ($)", "Annual cost savings from AI use case", "benefits"⟩,
   ⟨"cashFlowBenefit", "Cash Flow Benefit ($)", "Annual cash flow improvement", "benefits"⟩,
   ⟨"riskBenefit", "Risk Benefit ($)", "Annual risk reduction value", "benefits"⟩,
   ⟨"totalAnnualImpact", "Total Annual Impact ($)", "Sum of all benefit categories",
    "calculated"⟩,
   ⟨"valueScore", "Value Score (0-100)", "Normalized value score", "calculated"⟩,
   ⟨"ttvScore", "TTV Score (0-100)", "Time-to-value score", "calculated"⟩,
   ⟨"annualTokenCost", "Annual Token Cost ($)", "Annual AI API costs", "calculated"⟩,
   ⟨"probabilityOfSuccess", "Probability of Success (%)", "Estimated success probability",
    "risk"⟩,
   ⟨"timeToValueMonths", "Time to Value (months)", "Months until value realization", "timing"⟩,
   ⟨"effortScore", "Effort Score (0-100)",
    "Implementation effort estimate, higher means more effort", "effort"⟩,
   ⟨"maxTotalImpact", "Max Total Impact ($)", "Highest impact among all use cases", "context"⟩,
   ⟨"weightValue", "Value Weight (%)", "Weight for value in priority scoring", "weights"⟩,
   ⟨"weightTtv", "TTV Weight (%)", "Weight for time-to-value in scoring", "weights"⟩,
   ⟨"weightEffort", "Effort Weight (%)", "Weight for effort in priority scoring", "weights"⟩,
   ⟨"avgInputTokens", "Avg Input Tokens", "Average input tokens per AI call", "ai"⟩,
   ⟨"avgOutputTokens", "Avg Output Tokens", "Average output tokens per AI call", "ai"⟩,
   ⟨"inputTokenCost", "Input Token Cost ($/1M)", "Cost per million input tokens", "ai"⟩,
   ⟨"outputTokenCost", "Output Token Cost ($/1M)", "Cost per million output tokens", "ai"⟩,
   ⟨"runsPerYear", "Runs Per Year", "Estimated annual AI invocations", "ai"⟩,
   ⟨"implementationCost", "Implementation Cost ($)", "One-time implementation cost", "costs"⟩]

/-- The categories in alphabetical order. -/
def categories : List String :=
  ["ai", "benefits", "calculated", "context", "costs", "effort", "risk", "timing", "weights"]

def byCategory : List (String × List InputField) :=
  categories.map fun category => (category, all.filter (·.category = category))

end InputField

end Appraisal
