import Appraisal.Number.Grouped
import Appraisal.Text.Width
import Appraisal.Workbench.Document

/-!
# Texts for readers

What a command writes when it is not asked for a document: tables with aligned columns, one line
for each item.
-/

namespace Appraisal.Display

open Text (padLeft padRight)

/-- Lines, each with its end. -/
def lines (ls : List String) : String :=
  String.join (ls.map (· ++ "\n"))

/-- Columns with two blanks between them. -/
def row (columns : List String) : String :=
  String.intercalate "  " columns

def document (j : Json) : String :=
  j.pretty ++ "\n"

def percent (ratio : Float) : String :=
  if ratio.isFinite then Decimal.fixed 1 (ratio * 100) ++ "%" else "n/a"

/-- The text of a calculated value, unless it is flawed. -/
def unlessFlawed (render : Float → String) (v : CalculatedValue) : String :=
  if v.isOk then render v.value else "n/a"

def amount (v : CalculatedValue) : String :=
  Number.grouped v.value

def rankingRow (rank name tier phase priority value : String) : String :=
  row [padLeft rank 2, padRight name 32, padRight tier 8, padRight phase 5, padLeft priority 8,
    padLeft value 14]

def phaseName (r : Report) (id : String) : String :=
  match r.useCases.find? (·.id = id) with
  | some u => u.scoring.phase.name
  | none => ""

def ranked (r : Report) (u : RankedUseCase) : String :=
  rankingRow (toString u.rank) u.name u.priorityTier.name (phaseName r u.id)
    (Decimal.fixed 1 u.priorityScore) (Number.grouped u.annualValue)

/-- The figures of a dashboard with their labels. -/
def figures (d : Dashboard) : List (String × String) :=
  [("Revenue benefit", amount d.totalRevenueBenefit),
   ("Cost benefit", amount d.totalCostBenefit),
   ("Cash flow benefit", amount d.totalCashFlowBenefit),
   ("Risk benefit", amount d.totalRiskBenefit),
   ("Total annual value", amount d.totalAnnualValue),
   ("Annual token cost", amount d.totalAnnualTokenCost),
   ("Implementation cost", Number.grouped d.implementationCost),
   ("ROI", unlessFlawed percent d.roi),
   ("Payback (months)", unlessFlawed (Decimal.fixed 1) d.paybackPeriod),
   ("Value per 1M tokens", unlessFlawed Number.grouped d.valuePerMillionTokens)]

def report (r : Report) : String :=
  lines ([s!"{r.companyName}  (report {r.id})", "",
      rankingRow "#" "Use case" "Tier" "Phase" "Priority" "Annual value"]
    ++ r.dashboard.topUseCases.map (ranked r) ++ [""]
    ++ (figures r.dashboard).map (fun (label, value) => row [padRight label 20, padLeft value 14])
    ++ ["", "fingerprint: " ++ r.fingerprint])

def opportunityRow (name point p10 median p90 widest : String) : String :=
  row [padRight name 28, padLeft point 12, padLeft p10 12, padLeft median 12, padLeft p90 12,
    padRight widest 24]

def widestInput (o : OpportunityUncertainty) : String :=
  match o.sensitivity with
  | [] => ""
  | first :: _ => first.label

/-- A line for an opportunity, and remarks on its simulation. -/
def opportunity (o : OpportunityUncertainty) : List String :=
  let d := o.distribution
  [opportunityRow o.name (Number.grouped o.pointEstimate) (Number.grouped d.p10)
      (Number.grouped d.median) (Number.grouped d.p90) (widestInput o)]
    ++ (if 0 < d.failedSamples then [s!"  {d.failedSamples} samples failed to evaluate"] else [])
    ++ (if d.convergenceAchieved then []
        else [s!"  mean has not converged at {d.sampleSize} samples"])

def uncertainty (r : UncertaintyReport) : String :=
  lines ([s!"{r.companyName}  ({r.sampleSize} samples, seed {r.seed.toNat})", "",
      opportunityRow "Opportunity" "Point" "P10" "Median" "P90" "Widest input"]
    ++ r.opportunities.flatMap opportunity)

/-- An assumption; a star marks an overridden one. -/
def assumption (a : Assumption) : String :=
  let marker := if a.isUserOverride then "*" else " "
  row [marker ++ padRight a.id 34, padLeft (Decimal.message a.currentValue) 10,
    s!"[{Decimal.message a.minimum} .. {Decimal.message a.maximum}]", a.label]

def assumptions (list : List Assumption) : String :=
  lines (list.map assumption)

def group (category : AssumptionCategory) (members : List Assumption) : String :=
  lines [category.label] ++ assumptions members

/-- The groups with an empty line between two of them. -/
def groups (list : List (AssumptionCategory × List Assumption)) : String :=
  String.intercalate "\n" (list.map fun (category, members) => group category members)

def batchItem (i : BatchItem) : String :=
  match i.problem with
  | some e => row ["", padRight i.id 34, e.message]
  | none => row ["", i.id, "ok"]

def batch (r : BatchResult) : String :=
  lines (s!"applied {r.applied} of {r.results.length} updates" :: r.results.map batchItem)

def formulas (list : List FormulaSummary) : String :=
  lines (list.map fun f => row [padRight f.id 34, padRight f.version 6, f.name])

def formula (f : FormulaSummary) : String :=
  lines [s!"{f.id} v{f.version}  {f.name}", "  " ++ f.derivation,
    "  inputs: " ++ String.intercalate ", " f.requiredVariables, "  unit:   " ++ f.outputUnit.name]

def step (s : Expression.Step) : String :=
  row ["", padRight s.label 40, "= " ++ s.formatted]

/-- The steps of an evaluation, and its value if there is one. -/
def evaluation (e : Expression.Evaluation) : String :=
  lines (e.steps.map step ++ if e.isOk then [Decimal.message e.value] else [])

def customFormula (f : CustomFormula) : String :=
  let state := if f.isActive then "active" else "inactive"
  lines [row [f.id, s!"v{f.version}", state, f.label], "  " ++ f.expression]

def customVersions (v : FormulaVersions) : String :=
  if v.versions.isEmpty then lines ["no versions"]
  else String.join (v.versions.map customFormula)

def restored (s : EngineState) : String :=
  let overridden := (s.assumptions.filter (·.isUserOverride)).length
  lines [s!"restored {s.assumptions.length} assumptions ({overridden} overridden), " ++
      s!"{s.auditLog.length} audit entries",
    "fingerprint: " ++ s.fingerprint]

end Appraisal.Display
