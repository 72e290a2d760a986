import Appraisal.Report.Basic
import Appraisal.Research.Document

/-!
# Reports as JSON
-/

namespace Appraisal

def FrictionRow.toJson (r : FrictionRow) : Json :=
  .object (Json.field? "id" .string r.point.id ++
    [("domain", .string r.point.domain), ("description", .string r.point.description)] ++
    Json.field? "severity" Severity.toJson r.point.severity ++
    [("annualBurden", r.annualBurden.toJson),
     ("strategicImpact", .string r.point.strategicImpact)])

def CompanySection.toJson (s : CompanySection) : Json :=
  .object ([("position", .string s.overview.position), ("industry", .string s.overview.industry)]
    ++ Json.field? "estimatedRevenue" .amount s.overview.estimatedRevenue
    ++ Json.field? "estimatedEmployees" .amount s.overview.estimatedEmployees
    ++ [("dataMaturityLevel", .count s.overview.dataMaturityLevel),
        ("dataMaturityFactor", .amount s.dataMaturityFactor),
        ("frictionTable", .array (s.frictionTable.map FrictionRow.toJson))])

def Scoring.toJson (s : Scoring) : Json :=
  .object [("valueScore", s.valueScore.toJson), ("ttvScore", s.ttvScore.toJson),
    ("effortScore", .amount s.effortScore), ("priorityScore", s.priorityScore.toJson),
    ("priorityTier", .string s.tier.name), ("recommendedPhase", .string s.phase.name)]

def UseCaseResult.toJson (r : UseCaseResult) : Json :=
  let u := r.useCase
  .object ([("id", .string u.id), ("name", .string u.name), ("function", .string u.function),
      ("subFunction", .string u.subFunction), ("description", .string u.description),
      ("targetFriction", .string u.targetFriction), ("hitlCheckpoint", .string u.checkpoint),
      ("aiPrimitives", .strings u.primitives), ("benefits", r.benefits.toJson)]
    ++ Json.field? "hoursSavedValue" CalculatedValue.toJson r.hoursSavedValue
    ++ [("tokenCosts", r.tokenCosts.toJson), ("scoring", r.scoring.toJson),
        ("effort", u.effort.toJson)])

def RankedUseCase.toJson (r : RankedUseCase) : Json :=
  .object [("rank", .count r.rank), ("id", .string r.id), ("name", .string r.name),
    ("priorityScore", .amount r.priorityScore), ("priorityTier", .string r.priorityTier.name),
    ("annualValue", .amount r.annualValue), ("monthlyTokens", .amount r.monthlyTokens)]

def Dashboard.toJson (d : Dashboard) : Json :=
  .object [("totalRevenueBenefit", d.totalRevenueBenefit.toJson),
    ("totalCostBenefit", d.totalCostBenefit.toJson),
    ("totalCashFlowBenefit", d.totalCashFlowBenefit.toJson),
    ("totalRiskBenefit", d.totalRiskBenefit.toJson),
    ("totalAnnualValue", d.totalAnnualValue.toJson),
    ("totalMonthlyTokens", .amount d.totalMonthlyTokens),
    ("totalAnnualTokenCost", d.totalAnnualTokenCost.toJson),
    ("implementationCost", .amount d.implementationCost),
    ("valuePerMillionTokens", d.valuePerMillionTokens.toJson), ("roi", d.roi.toJson),
    ("paybackPeriod", d.paybackPeriod.toJson),
    ("topUseCases", .array (d.topUseCases.map RankedUseCase.toJson))]

def Report.toJson (r : Report) : Json :=
  .object [("reportId", .string r.id), ("companyName", .string r.companyName),
    ("generatedAt", .string r.generatedAt.render),
    ("calculationEngineVersion", .string r.engineVersion),
    ("assumptions", .array (r.assumptions.map Assumption.toJson)),
    ("companyOverview", r.company.toJson),
    ("useCases", .array (r.useCases.map UseCaseResult.toJson)),
    ("executiveDashboard", r.dashboard.toJson),
    ("auditTrail", .array (r.auditTrail.map Audit.Entry.toJson)),
    ("fingerprint", .string r.fingerprint)]

end Appraisal
