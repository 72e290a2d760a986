import Appraisal.Research.Validation
import Appraisal.Proofs.Number.Whole
import Mathlib

/-!
# Rules for a payload

What a payload has to look like, said field by field and without the checks: `Valid` collects the
rules of all fields, `demands` lists them with the paths of the fields, and `CopiedTo` says that a
research has the fields of the payload and nothing in their place.
-/

namespace Appraisal

/-- Present and not blank. -/
def Filled (given : Option String) : Prop :=
  ∃ text ∈ given, Text.isBlankText text = false

def IsAmount (x : Float) : Prop :=
  x.isFinite = true ∧ 0 ≤ x

def HasAmount (given : Option Float) : Prop :=
  ∃ x ∈ given, IsAmount x

def MayHaveAmount (given : Option Float) : Prop :=
  ∀ x ∈ given, IsAmount x

def IsOnScale (x : Float) : Prop :=
  ∃ n, 1 ≤ n ∧ n ≤ 5 ∧ x = .ofNat n

def HasScale (given : Option Float) : Prop :=
  ∃ x ∈ given, IsOnScale x

def MayHaveShare (given : Option Float) : Prop :=
  ∀ x ∈ given, x.isFinite = true ∧ 0 ≤ x ∧ x ≤ 1

/-- Bounds that are not given are around every estimate. -/
def Around (estimate : Float) (given : Option ImpactRange) : Prop :=
  ∀ r ∈ given, (r.low.isFinite = true ∧ r.high.isFinite = true) ∧
    0 ≤ r.low ∧ r.low ≤ estimate ∧ estimate ≤ r.high

def MayHaveSeverity (given : Option String) : Prop :=
  ∀ name ∈ given, name ∈ Severity.all.map Severity.name

section

variable (x : Float) (given : Option Float) (text : Option String) (range : Option ImpactRange)

instance : Decidable (Filled text) :=
  inferInstanceAs (Decidable (∃ t ∈ text, Text.isBlankText t = false))

instance : Decidable (IsAmount x) :=
  inferInstanceAs (Decidable (x.isFinite = true ∧ 0 ≤ x))

instance : Decidable (HasAmount given) :=
  inferInstanceAs (Decidable (∃ x ∈ given, IsAmount x))

instance : Decidable (MayHaveAmount given) :=
  inferInstanceAs (Decidable (∀ x ∈ given, IsAmount x))

instance : Decidable (IsOnScale x) :=
  decidable_of_iff _ (Number.onScale_iff x)

instance : Decidable (HasScale given) :=
  inferInstanceAs (Decidable (∃ x ∈ given, IsOnScale x))

instance : Decidable (MayHaveShare given) :=
  inferInstanceAs (Decidable (∀ x ∈ given, x.isFinite = true ∧ 0 ≤ x ∧ x ≤ 1))

instance : Decidable (Around x range) :=
  inferInstanceAs (Decidable (∀ r ∈ range, (r.low.isFinite = true ∧ r.high.isFinite = true) ∧
    0 ≤ r.low ∧ r.low ≤ x ∧ x ≤ r.high))

instance : Decidable (MayHaveSeverity text) :=
  inferInstanceAs (Decidable (∀ name ∈ text, name ∈ Severity.all.map Severity.name))

end

structure OverviewInput.Valid (o : OverviewInput) : Prop where
  estimatedRevenue : MayHaveAmount o.estimatedRevenue
  estimatedEmployees : MayHaveAmount o.estimatedEmployees
  dataMaturityLevel : HasScale o.dataMaturityLevel

structure FrictionInput.Valid (f : FrictionInput) : Prop where
  domain : Filled f.domain
  annualHours : HasAmount f.annualHours
  hourlyRate : HasAmount f.hourlyRate
  severity : MayHaveSeverity f.severity

structure UseCaseInput.Valid (u : UseCaseInput) : Prop where
  id : Filled u.id
  name : Filled u.name
  revenueImpact : HasAmount u.revenueImpact
  costImpact : HasAmount u.costImpact
  cashFlowImpact : HasAmount u.cashFlowImpact
  riskReduction : HasAmount u.riskReduction
  revenueRange : ∀ estimate ∈ u.revenueImpact, Around estimate u.impactRanges.revenue
  costRange : ∀ estimate ∈ u.costImpact, Around estimate u.impactRanges.cost
  cashFlowRange : ∀ estimate ∈ u.cashFlowImpact, Around estimate u.impactRanges.cashFlow
  riskRange : ∀ estimate ∈ u.riskReduction, Around estimate u.impactRanges.risk
  hoursSaved : MayHaveAmount u.hoursSaved
  hourlyRate : MayHaveAmount u.hourlyRate
  adoptionRate : MayHaveShare u.adoptionRate
  dataReadiness : HasScale u.dataReadiness
  integrationComplexity : HasScale u.integrationComplexity
  changeManagement : HasScale u.changeManagement
  timeToValueMonths : HasAmount u.timeToValueMonths
  inputTokensPerRun : HasAmount u.inputTokensPerRun
  outputTokensPerRun : HasAmount u.outputTokensPerRun
  runsPerMonth : HasAmount u.runsPerMonth

/-- Every field keeps its rule, there is a use case, and no two use cases have the same id. -/
structure ResearchInput.Valid (input : ResearchInput) : Prop where
  companyName : Filled input.companyName
  overview : ∃ o ∈ input.overview, o.Valid
  frictionPoints : ∀ f ∈ input.frictionPoints, f.Valid
  useCases : ∃ us ∈ input.useCases, us ≠ [] ∧ (∀ u ∈ us, u.Valid) ∧ (us.map (·.id)).Nodup

/-- A rule for the field at a path, and whether the payload keeps it. -/
structure Demand where
  path : String
  kept : Bool

/-- The paths of the fields that break a rule. -/
def unmet (demands : List Demand) : List String :=
  (demands.filter (!·.kept)).map (·.path)

/-- The amount that bounds are compared with: 0 stands for one that is missing or unusable. -/
def estimateOf (given : Option Float) : Float :=
  (given.filter fun x => IsAmount x).getD 0

def OverviewInput.demands (o : OverviewInput) : List Demand :=
  [⟨"companyOverview.estimatedRevenue", MayHaveAmount o.estimatedRevenue⟩,
   ⟨"companyOverview.estimatedEmployees", MayHaveAmount o.estimatedEmployees⟩,
   ⟨"companyOverview.dataMaturityLevel", HasScale o.dataMaturityLevel⟩]

def FrictionInput.demands (index : Nat) (f : FrictionInput) : List Demand :=
  let path := memberPath "frictionPoints" index
  [⟨path "severity", MayHaveSeverity f.severity⟩,
   ⟨path "domain", Filled f.domain⟩,
   ⟨path "estimatedAnnualHours", HasAmount f.annualHours⟩,
   ⟨path "estimatedHourlyRate", HasAmount f.hourlyRate⟩]

namespace UseCaseInput

/-- The id may not be one of the `earlier` ids. -/
def idDemands (path : String) (earlier : List (Option String)) (id : Option String) :
    List Demand :=
  [⟨path, Filled id⟩, ⟨path, ¬(Filled id ∧ id ∈ earlier)⟩]

def benefitDemands (path : String → String) (u : UseCaseInput) : List Demand :=
  [⟨path "estimatedRevenueImpact", HasAmount u.revenueImpact⟩,
   ⟨path "estimatedCostImpact", HasAmount u.costImpact⟩,
   ⟨path "estimatedCashFlowImpact", HasAmount u.cashFlowImpact⟩,
   ⟨path "estimatedRiskReduction", HasAmount u.riskReduction⟩,
   ⟨path "impactRanges.revenue", Around (estimateOf u.revenueImpact) u.impactRanges.revenue⟩,
   ⟨path "impactRanges.cost", Around (estimateOf u.costImpact) u.impactRanges.cost⟩,
   ⟨path "impactRanges.cashFlow", Around (estimateOf u.cashFlowImpact) u.impactRanges.cashFlow⟩,
   ⟨path "impactRanges.risk", Around (estimateOf u.riskReduction) u.impactRanges.risk⟩]

def hoursDemands (path : String → String) (u : UseCaseInput) : List Demand :=
  [⟨path "name", Filled u.name⟩,
   ⟨path "estimatedHoursSaved", MayHaveAmount u.hoursSaved⟩,
   ⟨path "estimatedHourlyRate", MayHaveAmount u.hourlyRate⟩,
   ⟨path "estimatedAdoptionRate", MayHaveShare u.adoptionRate⟩]

def effortDemands (path : String → String) (u : UseCaseInput) : List Demand :=
  [⟨path "dataReadiness", HasScale u.dataReadiness⟩,
   ⟨path "integrationComplexity", HasScale u.integrationComplexity⟩,
   ⟨path "changeManagement", HasScale u.changeManagement⟩,
   ⟨path "timeToValueMonths", HasAmount u.timeToValueMonths⟩]

def tokenDemands (path : String → String) (u : UseCaseInput) : List Demand :=
  [⟨path "inputTokensPerRun", HasAmount u.inputTokensPerRun⟩,
   ⟨path "outputTokensPerRun", HasAmount u.outputTokensPerRun⟩,
   ⟨path "runsPerMonth", HasAmount u.runsPerMonth⟩]

def demands (index : Nat) (earlier : List (Option String)) (u : UseCaseInput) : List Demand :=
  let path := memberPath "useCases" index
  idDemands (path "id") earlier u.id ++ (benefitDemands path u ++ (hoursDemands path u ++
    (effortDemands path u ++ tokenDemands path u)))

end UseCaseInput

namespace ResearchInput

def overviewDemands (overview : Option OverviewInput) : List Demand :=
  ⟨"companyOverview", overview.isSome⟩ :: overview.elim [] OverviewInput.demands

def frictionDemands (index : Nat) : List FrictionInput → List Demand
  | [] => []
  | f :: fs => f.demands index ++ frictionDemands (index + 1) fs

def useCaseDemands (index : Nat) (earlier : List (Option String)) :
    List UseCaseInput → List Demand
  | [] => []
  | u :: us => u.demands index earlier ++ useCaseDemands (index + 1) (u.id :: earlier) us

/-- The rules for a payload in the order of the checks. -/
def demands (input : ResearchInput) : List Demand :=
  ⟨"companyName", Filled input.companyName⟩ ::
    (overviewDemands input.overview ++
      (frictionDemands 0 input.frictionPoints ++
        ⟨"useCases", input.useCases.any (!·.isEmpty)⟩ ::
          useCaseDemands 0 [] (input.useCases.getD [])))

end ResearchInput

structure OverviewInput.CopiedTo (o : OverviewInput) (r : Overview) : Prop where
  position : r.position = o.position.getD ""
  industry : r.industry = o.industry.getD ""
  estimatedRevenue : r.estimatedRevenue = o.estimatedRevenue
  estimatedEmployees : r.estimatedEmployees = o.estimatedEmployees
  dataMaturityLevel : o.dataMaturityLevel = some (.ofNat r.dataMaturityLevel)

structure FrictionInput.CopiedTo (f : FrictionInput) (r : FrictionPoint) : Prop where
  id : r.id = f.id
  domain : f.domain = some r.domain
  description : r.description = f.description.getD ""
  annualHours : f.annualHours = some r.annualHours
  hourlyRate : f.hourlyRate = some r.hourlyRate
  severity : f.severity = r.severity.map Severity.name
  strategicImpact : r.strategicImpact = f.strategicImpact.getD ""

structure UseCaseInput.CopiedTo (u : UseCaseInput) (r : UseCase) : Prop where
  id : u.id = some r.id
  name : u.name = some r.name
  function : r.function = u.function.getD ""
  subFunction : r.subFunction = u.subFunction.getD ""
  description : r.description = u.description.getD ""
  targetFriction : r.targetFriction = u.targetFriction.getD ""
  checkpoint : r.checkpoint = u.checkpoint.getD ""
  primitives : r.primitives = u.primitives
  hoursSaved : r.hoursSaved = u.hoursSaved
  hourlyRate : r.hourlyRate = u.hourlyRate
  adoptionRate : r.adoptionRate = u.adoptionRate
  revenueImpact : u.revenueImpact = some r.benefits.revenue
  costImpact : u.costImpact = some r.benefits.cost
  cashFlowImpact : u.cashFlowImpact = some r.benefits.cashFlow
  riskReduction : u.riskReduction = some r.benefits.risk
  dataReadiness : u.dataReadiness = some (.ofNat r.effort.dataReadiness)
  integrationComplexity : u.integrationComplexity = some (.ofNat r.effort.integrationComplexity)
  changeManagement : u.changeManagement = some (.ofNat r.effort.changeManagement)
  timeToValueMonths : u.timeToValueMonths = some r.effort.timeToValueMonths
  inputTokensPerRun : u.inputTokensPerRun = some r.tokens.inputTokensPerRun
  outputTokensPerRun : u.outputTokensPerRun = some r.tokens.outputTokensPerRun
  runsPerMonth : u.runsPerMonth = some r.tokens.runsPerMonth
  impactRanges : r.impactRanges = u.impactRanges

/-- The research has the fields of the payload. Only an absent text that describes becomes the
empty one. -/
structure ResearchInput.CopiedTo (input : ResearchInput) (r : Research) : Prop where
  companyName : input.companyName = some r.companyName
  overview : ∃ o ∈ input.overview, o.CopiedTo r.overview
  frictionPoints : List.Forall₂ FrictionInput.CopiedTo input.frictionPoints r.frictionPoints
  useCases : ∃ us ∈ input.useCases, List.Forall₂ UseCaseInput.CopiedTo us r.useCases

end Appraisal
