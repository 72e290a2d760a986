import Appraisal.Engine.Opportunity

/-!
# Research

What is known about a company, its points of friction and its use cases, in two shapes: the payload
as it was sent, in which every field may be missing, and the validated research.
-/

namespace Appraisal

/-- Bounds around an estimate. -/
structure ImpactRange where
  low : Float
  high : Float

/-- Optional bounds around the raw estimates of the four value drivers. -/
structure ImpactRanges where
  revenue : Option ImpactRange
  cost : Option ImpactRange
  cashFlow : Option ImpactRange
  risk : Option ImpactRange

def ImpactRanges.none : ImpactRanges :=
  ⟨.none, .none, .none, .none⟩

inductive Severity where
  | critical
  | high
  | medium
  deriving DecidableEq, Repr

namespace Severity

def all : List Severity := [critical, high, medium]

def name : Severity → String
  | critical => "Critical"
  | high => "High"
  | medium => "Medium"

def ofName? (name : String) : Option Severity :=
  all.find? (·.name = name)

end Severity

structure OverviewInput where
  position : Option String
  industry : Option String
  estimatedRevenue : Option Float
  estimatedEmployees : Option Float
  dataMaturityLevel : Option Float

structure FrictionInput where
  id : Option String
  domain : Option String
  description : Option String
  annualHours : Option Float
  hourlyRate : Option Float
  severity : Option String
  strategicImpact : Option String

structure UseCaseInput where
  id : Option String
  name : Option String
  function : Option String
  subFunction : Option String
  description : Option String
  targetFriction : Option String
  checkpoint : Option String
  primitives : List String
  hoursSaved : Option Float
  hourlyRate : Option Float
  adoptionRate : Option Float
  revenueImpact : Option Float
  costImpact : Option Float
  cashFlowImpact : Option Float
  riskReduction : Option Float
  dataReadiness : Option Float
  integrationComplexity : Option Float
  changeManagement : Option Float
  timeToValueMonths : Option Float
  inputTokensPerRun : Option Float
  outputTokensPerRun : Option Float
  runsPerMonth : Option Float
  impactRanges : ImpactRanges

structure ResearchInput where
  companyName : Option String
  overview : Option OverviewInput
  frictionPoints : List FrictionInput
  useCases : Option (List UseCaseInput)

structure Overview where
  position : String
  industry : String
  estimatedRevenue : Option Float
  estimatedEmployees : Option Float
  /-- From 1 to 5. -/
  dataMaturityLevel : Nat

structure FrictionPoint where
  id : Option String
  domain : String
  description : String
  annualHours : Float
  hourlyRate : Float
  severity : Option Severity
  strategicImpact : String

/-- The effort of a use case, on scales from 1 to 5. -/
structure Effort where
  dataReadiness : Nat
  integrationComplexity : Nat
  changeManagement : Nat
  timeToValueMonths : Float

structure UseCase where
  id : String
  name : String
  function : String
  subFunction : String
  description : String
  targetFriction : String
  /-- Where a human stays in the loop. -/
  checkpoint : String
  primitives : List String
  hoursSaved : Option Float
  hourlyRate : Option Float
  adoptionRate : Option Float
  benefits : RawBenefits
  effort : Effort
  tokens : TokenUsage
  impactRanges : ImpactRanges

structure Research where
  companyName : String
  overview : Overview
  frictionPoints : List FrictionPoint
  useCases : List UseCase

end Appraisal
