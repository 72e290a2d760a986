import Appraisal.Research.Basic

/-!
# Research as JSON
-/

namespace Appraisal

namespace ImpactRange

def ofJson? (j : Json) : Option ImpactRange := do
  let j ← j.object?
  return { low := ← j.required "low" Json.amount?, high := ← j.required "high" Json.amount? }

def toJson (r : ImpactRange) : Json :=
  .object [("low", .amount r.low), ("high", .amount r.high)]

end ImpactRange

namespace ImpactRanges

def ofJson? (j : Json) : Option ImpactRanges := do
  let j ← j.object?
  return { revenue := ← j.optionalField "revenue" ImpactRange.ofJson?
           cost := ← j.optionalField "cost" ImpactRange.ofJson?
           cashFlow := ← j.optionalField "cashFlow" ImpactRange.ofJson?
           risk := ← j.optionalField "risk" ImpactRange.ofJson? }

def toJson (r : ImpactRanges) : Json :=
  let range : Option ImpactRange → Json := Json.optional ImpactRange.toJson
  .object [("revenue", range r.revenue), ("cost", range r.cost),
    ("cashFlow", range r.cashFlow), ("risk", range r.risk)]

end ImpactRanges

def OverviewInput.ofJson? (j : Json) : Option OverviewInput := do
  let j ← j.object?
  return { position := ← j.optionalField "position" Json.string?
           industry := ← j.optionalField "industry" Json.string?
           estimatedRevenue := ← j.optionalField "estimatedRevenue" Json.amount?
           estimatedEmployees := ← j.optionalField "estimatedEmployees" Json.amount?
           dataMaturityLevel := ← j.optionalField "dataMaturityLevel" Json.amount? }

def FrictionInput.ofJson? (j : Json) : Option FrictionInput := do
  let j ← j.object?
  return { id := ← j.optionalField "id" Json.string?
           domain := ← j.optionalField "domain" Json.string?
           description := ← j.optionalField "description" Json.string?
           annualHours := ← j.optionalField "estimatedAnnualHours" Json.amount?
           hourlyRate := ← j.optionalField "estimatedHourlyRate" Json.amount?
           severity := ← j.optionalField "severity" Json.string?
           strategicImpact := ← j.optionalField "strategicImpact" Json.string? }

def UseCaseInput.ofJson? (j : Json) : Option UseCaseInput := do
  let j ← j.object?
  return { id := ← j.optionalField "id" Json.string?
           name := ← j.optionalField "name" Json.string?
           function := ← j.optionalField "function" Json.string?
           subFunction := ← j.optionalField "subFunction" Json.string?
           description := ← j.optionalField "description" Json.string?
           targetFriction := ← j.optionalField "targetFriction" Json.string?
           checkpoint := ← j.optionalField "hitlCheckpoint" Json.string?
           primitives := ← j.fieldOr [] "aiPrimitives" Json.stringList?
           hoursSaved := ← j.optionalField "estimatedHoursSaved" Json.amount?
           hourlyRate := ← j.optionalField "estimatedHourlyRate" Json.amount?
           adoptionRate := ← j.optionalField "estimatedAdoptionRate" Json.amount?
           revenueImpact := ← j.optionalField "estimatedRevenueImpact" Json.amount?
           costImpact := ← j.optionalField "estimatedCostImpact" Json.amount?
           cashFlowImpact := ← j.optionalField "estimatedCashFlowImpact" Json.amount?
           riskReduction := ← j.optionalField "estimatedRiskReduction" Json.amount?
           dataReadiness := ← j.optionalField "dataReadiness" Json.amount?
           integrationComplexity := ← j.optionalField "integrationComplexity" Json.amount?
           changeManagement := ← j.optionalField "changeManagement" Json.amount?
           timeToValueMonths := ← j.optionalField "timeToValueMonths" Json.amount?
           inputTokensPerRun := ← j.optionalField "inputTokensPerRun" Json.amount?
           outputTokensPerRun := ← j.optionalField "outputTokensPerRun" Json.amount?
           runsPerMonth := ← j.optionalField "runsPerMonth" Json.amount?
           impactRanges := ← j.fieldOr .none "impactRanges" ImpactRanges.ofJson? }

def ResearchInput.ofJson? (j : Json) : Option ResearchInput := do
  let j ← j.object?
  return { companyName := ← j.optionalField "companyName" Json.string?
           overview := ← j.optionalField "companyOverview" OverviewInput.ofJson?
           frictionPoints := ← j.fieldOr [] "frictionPoints" (Json.list? FrictionInput.ofJson?)
           useCases := ← j.optionalField "useCases" (Json.list? UseCaseInput.ofJson?) }

def Severity.toJson (s : Severity) : Json :=
  .string s.name

def Overview.toJson (o : Overview) : Json :=
  .object [("position", .string o.position), ("industry", .string o.industry),
    ("estimatedRevenue", .optional .amount o.estimatedRevenue),
    ("estimatedEmployees", .optional .amount o.estimatedEmployees),
    ("dataMaturityLevel", .count o.dataMaturityLevel)]

def FrictionPoint.toJson (f : FrictionPoint) : Json :=
  .object [("id", .optional .string f.id), ("domain", .string f.domain),
    ("description", .string f.description), ("annualHours", .amount f.annualHours),
    ("hourlyRate", .amount f.hourlyRate), ("severity", .optional Severity.toJson f.severity),
    ("strategicImpact", .string f.strategicImpact)]

namespace Effort

def toJson (e : Effort) : Json :=
  .object [("dataReadiness", .count e.dataReadiness),
    ("integrationComplexity", .count e.integrationComplexity),
    ("changeManagement", .count e.changeManagement),
    ("timeToValueMonths", .amount e.timeToValueMonths)]

def ofJson? (j : Json) : Option Effort := do
  let j ← j.object?
  return { dataReadiness := ← j.required "dataReadiness" (Json.count? 8)
           integrationComplexity := ← j.required "integrationComplexity" (Json.count? 8)
           changeManagement := ← j.required "changeManagement" (Json.count? 8)
           timeToValueMonths := ← j.required "timeToValueMonths" Json.amount? }

end Effort

def RawBenefits.toJson (b : RawBenefits) : Json :=
  .object [("revenue", .amount b.revenue), ("cost", .amount b.cost),
    ("cashFlow", .amount b.cashFlow), ("risk", .amount b.risk)]

def TokenUsage.toJson (u : TokenUsage) : Json :=
  .object [("inputTokensPerRun", .amount u.inputTokensPerRun),
    ("outputTokensPerRun", .amount u.outputTokensPerRun),
    ("runsPerMonth", .amount u.runsPerMonth)]

def UseCase.toJson (u : UseCase) : Json :=
  .object [("id", .string u.id), ("name", .string u.name), ("function", .string u.function),
    ("subFunction", .string u.subFunction), ("description", .string u.description),
    ("targetFriction", .string u.targetFriction), ("hitlCheckpoint", .string u.checkpoint),
    ("aiPrimitives", .strings u.primitives), ("hoursSaved", .optional .amount u.hoursSaved),
    ("hourlyRate", .optional .amount u.hourlyRate),
    ("adoptionRate", .optional .amount u.adoptionRate), ("benefits", u.benefits.toJson),
    ("effort", u.effort.toJson), ("tokens", u.tokens.toJson),
    ("impactRanges", u.impactRanges.toJson)]

def Research.toJson (r : Research) : Json :=
  .object [("companyName", .string r.companyName), ("overview", r.overview.toJson),
    ("frictionPoints", .array (r.frictionPoints.map FrictionPoint.toJson)),
    ("useCases", .array (r.useCases.map UseCase.toJson))]

end Appraisal
