import Appraisal.Number.Rounding
import Appraisal.Research.Basic
import Appraisal.Research.Problem
import Appraisal.Text.Blank

/-!
# Validating research

A payload is checked field by field. Nothing is defaulted silently: a required field that is missing
is a problem, and so is an amount, a scale or a range outside its bounds. Only descriptive texts may
be absent; they become empty.
-/

namespace Appraisal

namespace Checked

/-- A text that is not blank. -/
def text (path : String) : Option String → Checked String
  | some s => if Text.isBlankText s then fail path .blank "" else .pure s
  | none => fail path .required ""

def givenAmount (path : String) (x : Float) : Checked Float :=
  if !x.isFinite then fail path .notFinite 0
  else if x < 0 then fail path (.negative x) 0
  else .pure x

/-- A finite amount that is not negative. -/
def amount (path : String) : Option Float → Checked Float
  | some x => givenAmount path x
  | none => fail path .required 0

def optionalAmount (path : String) : Option Float → Checked (Option Float)
  | some x => do return some (← givenAmount path x)
  | none => .pure none

/-- A whole number from 1 to 5. -/
def scale (path : String) : Option Float → Checked Nat
  | some x =>
    if Number.fraction x == 0 && 1 ≤ x && x ≤ 5 then .pure (Number.toNatural x)
    else fail path (.notOnScale x) 1
  | none => fail path .required 1

/-- A share from 0 to 1. -/
def share (path : String) : Option Float → Checked (Option Float)
  | some x =>
    if x.isFinite && 0 ≤ x && x ≤ 1 then .pure (some x) else fail path (.notShare x) none
  | none => .pure none

/-- Bounds around an estimate. -/
def range (path : String) (estimate : Float) : Option ImpactRange → Checked Unit
  | none => .pure ()
  | some r =>
    if !(r.low.isFinite && r.high.isFinite) || r.low < 0 then fail path .unusableBounds ()
    else if !(r.low ≤ estimate && estimate ≤ r.high) then
      fail path (.outsideRange r.low estimate r.high) ()
    else .pure ()

def severity (path : String) : Option String → Checked (Option Severity)
  | none => .pure none
  | some text =>
    match Severity.ofName? text with
    | some s => .pure (some s)
    | none => fail path (.unknownSeverity text) none

end Checked

namespace OverviewInput

def check (o : OverviewInput) : Checked Overview := do
  return { position := o.position.getD ""
           industry := o.industry.getD ""
           estimatedRevenue :=
             ← .optionalAmount "companyOverview.estimatedRevenue" o.estimatedRevenue
           estimatedEmployees :=
             ← .optionalAmount "companyOverview.estimatedEmployees" o.estimatedEmployees
           dataMaturityLevel := ← .scale "companyOverview.dataMaturityLevel" o.dataMaturityLevel }

end OverviewInput

/-- The path of a field of the `index`-th member of a list. -/
def memberPath (list : String) (index : Nat) (field : String) : String :=
  list ++ "[" ++ toString index ++ "]." ++ field

namespace FrictionInput

def check (index : Nat) (f : FrictionInput) : Checked FrictionPoint := do
  let path := memberPath "frictionPoints" index
  let severity ← .severity (path "severity") f.severity
  return { id := f.id
           domain := ← .text (path "domain") f.domain
           description := f.description.getD ""
           annualHours := ← .amount (path "estimatedAnnualHours") f.annualHours
           hourlyRate := ← .amount (path "estimatedHourlyRate") f.hourlyRate
           severity
           strategicImpact := f.strategicImpact.getD "" }

end FrictionInput

namespace UseCaseInput

def checkBenefits (path : String → String) (u : UseCaseInput) : Checked RawBenefits := do
  let benefits : RawBenefits :=
    { revenue := ← .amount (path "estimatedRevenueImpact") u.revenueImpact
      cost := ← .amount (path "estimatedCostImpact") u.costImpact
      cashFlow := ← .amount (path "estimatedCashFlowImpact") u.cashFlowImpact
      risk := ← .amount (path "estimatedRiskReduction") u.riskReduction }
  Checked.range (path "impactRanges.revenue") benefits.revenue u.impactRanges.revenue
  Checked.range (path "impactRanges.cost") benefits.cost u.impactRanges.cost
  Checked.range (path "impactRanges.cashFlow") benefits.cashFlow u.impactRanges.cashFlow
  Checked.range (path "impactRanges.risk") benefits.risk u.impactRanges.risk
  return benefits

def checkEffort (path : String → String) (u : UseCaseInput) : Checked Effort := do
  return { dataReadiness := ← .scale (path "dataReadiness") u.dataReadiness
           integrationComplexity :=
             ← .scale (path "integrationComplexity") u.integrationComplexity
           changeManagement := ← .scale (path "changeManagement") u.changeManagement
           timeToValueMonths := ← .amount (path "timeToValueMonths") u.timeToValueMonths }

def checkTokens (path : String → String) (u : UseCaseInput) : Checked TokenUsage := do
  return { inputTokensPerRun := ← .amount (path "inputTokensPerRun") u.inputTokensPerRun
           outputTokensPerRun := ← .amount (path "outputTokensPerRun") u.outputTokensPerRun
           runsPerMonth := ← .amount (path "runsPerMonth") u.runsPerMonth }

/-- The id of a use case, which none of the `seen` ids may repeat. -/
def checkId (path : String) (seen : List String) (id : Option String) : Checked String := do
  let id ← .text path id
  if id ≠ "" ∧ id ∈ seen then Checked.fail path (.duplicateId id) id else .pure id

def check (index : Nat) (seen : List String) (u : UseCaseInput) : Checked UseCase := do
  let path := memberPath "useCases" index
  let id ← checkId (path "id") seen u.id
  let benefits ← checkBenefits path u
  return { id
           name := ← .text (path "name") u.name
           function := u.function.getD ""
           subFunction := u.subFunction.getD ""
           description := u.description.getD ""
           targetFriction := u.targetFriction.getD ""
           checkpoint := u.checkpoint.getD ""
           primitives := u.primitives
           hoursSaved := ← .optionalAmount (path "estimatedHoursSaved") u.hoursSaved
           hourlyRate := ← .optionalAmount (path "estimatedHourlyRate") u.hourlyRate
           adoptionRate := ← .share (path "estimatedAdoptionRate") u.adoptionRate
           benefits
           effort := ← checkEffort path u
           tokens := ← checkTokens path u
           impactRanges := u.impactRanges }

end UseCaseInput

namespace ResearchInput

def checkOverview : Option OverviewInput → Checked Overview
  | some o => o.check
  | none => .fail "companyOverview" .required ⟨"", "", none, none, 1⟩

def checkFrictionPoints (index : Nat) : List FrictionInput → Checked (List FrictionPoint)
  | [] => .pure []
  | f :: fs => do
    let first ← f.check index
    return first :: (← checkFrictionPoints (index + 1) fs)

/-- The use cases from the `index`-th on, after ones with the ids `seen`. -/
def checkUseCases (index : Nat) (seen : List String) : List UseCaseInput → Checked (List UseCase)
  | [] => .pure []
  | u :: us => do
    let first ← u.check index seen
    return first :: (← checkUseCases (index + 1) (first.id :: seen) us)

def givenUseCases : Option (List UseCaseInput) → Checked (List UseCaseInput)
  | some [] => .fail "useCases" .noUseCases []
  | some us => .pure us
  | none => .fail "useCases" .required []

def check (input : ResearchInput) : Checked Research := do
  let companyName ← .text "companyName" input.companyName
  let overview ← checkOverview input.overview
  let frictionPoints ← checkFrictionPoints 0 input.frictionPoints
  let given ← givenUseCases input.useCases
  let useCases ← checkUseCases 0 [] given
  return { companyName, overview, frictionPoints, useCases }

/-- The research, or all problems of the payload. -/
def validate (input : ResearchInput) : Except (List Problem) Research :=
  if input.check.problems.isEmpty then .ok input.check.value else .error input.check.problems

end ResearchInput

end Appraisal
