import Appraisal.Audit.Log
import Appraisal.Report.Scoring

/-!
# Reports

What is calculated for one research: a section on the company, a result per use case and a dashboard
over all of them, with the assumptions and the audit trail of the calculation.
-/

namespace Appraisal

/-- A point of friction with what it costs in a year. -/
structure FrictionRow where
  point : FrictionPoint
  annualBurden : CalculatedValue

structure CompanySection where
  overview : Overview
  dataMaturityFactor : Float
  frictionTable : List FrictionRow

structure Scoring where
  valueScore : CalculatedValue
  ttvScore : CalculatedValue
  effortScore : Float
  priorityScore : CalculatedValue

namespace Scoring

def tier (s : Scoring) : PriorityTier :=
  .ofScore s.priorityScore.value

def phase (s : Scoring) : Phase :=
  s.tier.phase

end Scoring

structure UseCaseResult where
  useCase : UseCase
  benefits : DriverBenefits
  hoursSavedValue : Option CalculatedValue
  tokenCosts : TokenCosts
  scoring : Scoring

namespace UseCaseResult

def id (r : UseCaseResult) : String :=
  r.useCase.id

def priority (r : UseCaseResult) : Float :=
  r.scoring.priorityScore.value

def annualValue (r : UseCaseResult) : Float :=
  r.benefits.totalAnnualValue.value

end UseCaseResult

structure RankedUseCase where
  rank : Nat
  id : String
  name : String
  priorityScore : Float
  priorityTier : PriorityTier
  annualValue : Float
  monthlyTokens : Float

structure Dashboard where
  totalRevenueBenefit : CalculatedValue
  totalCostBenefit : CalculatedValue
  totalCashFlowBenefit : CalculatedValue
  totalRiskBenefit : CalculatedValue
  totalAnnualValue : CalculatedValue
  totalMonthlyTokens : Float
  totalAnnualTokenCost : CalculatedValue
  implementationCost : Float
  valuePerMillionTokens : CalculatedValue
  roi : CalculatedValue
  paybackPeriod : CalculatedValue
  topUseCases : List RankedUseCase

structure Report where
  id : String
  companyName : String
  generatedAt : Instant
  engineVersion : String
  assumptions : List Assumption
  company : CompanySection
  useCases : List UseCaseResult
  dashboard : Dashboard
  auditTrail : List Audit.Entry
  fingerprint : String

end Appraisal
