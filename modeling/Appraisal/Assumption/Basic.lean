import Appraisal.Engine.Error

/-!
# Assumptions

Named, bounded numbers that feed the formulas: token prices, labor rates, conservative factors and
scoring weights. A value changes only through an update that passes the bounds, or a reset.
-/

namespace Appraisal

inductive AssumptionCategory where
  | aiPricing
  | laborRates
  | conservativeFactors
  | adoption
  | financial
  | scoringWeights
  deriving DecidableEq, Repr

namespace AssumptionCategory

/-- In the order of presentation. -/
def all : List AssumptionCategory :=
  [aiPricing, laborRates, conservativeFactors, adoption, financial, scoringWeights]

def name : AssumptionCategory → String
  | aiPricing => "ai_pricing"
  | laborRates => "labor_rates"
  | conservativeFactors => "conservative_factors"
  | adoption => "adoption"
  | financial => "financial"
  | scoringWeights => "scoring_weights"

def label : AssumptionCategory → String
  | aiPricing => "AI Pricing"
  | laborRates => "Labor Rates"
  | conservativeFactors => "Conservative Factors"
  | adoption => "Adoption"
  | financial => "Financial"
  | scoringWeights => "Scoring Weights"

def ofJson? (j : Json) : Option AssumptionCategory := do
  let name ← j.caseName?
  all.find? (·.name = name)

end AssumptionCategory

/-- Where the default of an assumption comes from. -/
structure SourceReference where
  id : String
  name : String
  url : Option String
  year : Option Nat
  deriving DecidableEq, Repr

namespace SourceReference

def toJson (s : SourceReference) : Json :=
  .object ([("id", .string s.id), ("name", .string s.name)] ++
    Json.field? "url" .string s.url ++ Json.field? "year" Json.count s.year)

def ofJson? (j : Json) : Option SourceReference := do
  let j ← j.object?
  return { id := ← j.required "id" Json.string?
           name := ← j.required "name" Json.string?
           url := ← j.optionalField "url" Json.string?
           year := ← j.optionalField "year" (Json.count? 16) }

end SourceReference

structure Assumption where
  id : String
  label : String
  description : String
  category : AssumptionCategory
  unit : Measure
  defaultValue : Float
  currentValue : Float
  minimum : Float
  maximum : Float
  /-- The distance between neighbouring settings of a slider. -/
  step : Float
  isUserOverride : Bool
  sources : List SourceReference

namespace Assumption

/-- Refuses values that are not finite or lie outside the bounds. -/
def check (a : Assumption) (value : Float) : Except EngineError Unit :=
  if !value.isFinite then .error (.notFinite a.id)
  else if value < a.minimum then .error (.belowMinimum a.id value a.minimum)
  else if a.maximum < value then .error (.aboveMaximum a.id value a.maximum)
  else .ok ()

def override (value : Float) (a : Assumption) : Assumption :=
  { a with currentValue := value, isUserOverride := true }

def restored (a : Assumption) : Assumption :=
  { a with currentValue := a.defaultValue, isUserOverride := false }

def toJson (a : Assumption) : Json :=
  .object [("id", .string a.id), ("label", .string a.label),
    ("description", .string a.description), ("category", .string a.category.name),
    ("unit", a.unit.toJson), ("defaultValue", .amount a.defaultValue),
    ("currentValue", .amount a.currentValue), ("min", .amount a.minimum),
    ("max", .amount a.maximum), ("step", .amount a.step),
    ("isUserOverride", .bool a.isUserOverride),
    ("sources", .array (a.sources.map SourceReference.toJson))]

def ofJson? (j : Json) : Option Assumption := do
  let j ← j.object?
  return { id := ← j.required "id" Json.string?
           label := ← j.required "label" Json.string?
           description := ← j.required "description" Json.string?
           category := ← j.required "category" AssumptionCategory.ofJson?
           unit := ← j.required "unit" Measure.ofJson?
           defaultValue := ← j.required "defaultValue" Json.amount?
           currentValue := ← j.required "currentValue" Json.amount?
           minimum := ← j.required "min" Json.amount?
           maximum := ← j.required "max" Json.amount?
           step := ← j.required "step" Json.amount?
           isUserOverride := ← j.required "isUserOverride" Json.bool?
           sources := ← j.required "sources" (Json.list? SourceReference.ofJson?) }

end Assumption

end Appraisal
