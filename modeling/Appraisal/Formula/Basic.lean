import Appraisal.Context
import Appraisal.Engine.Error

/-!
# Formulas

A formula is a function of named numbers, registered under an id and a version. A pair of id and
version is registered once and never replaced, so that a stored result can always be computed again
from the inputs it was computed from.
-/

namespace Appraisal

inductive FormulaCategory where
  | benefits
  | costs
  | scoring
  | financial
  | aggregation
  deriving DecidableEq, Repr

namespace FormulaCategory

def all : List FormulaCategory := [benefits, costs, scoring, financial, aggregation]

def name : FormulaCategory → String
  | benefits => "benefits"
  | costs => "costs"
  | scoring => "scoring"
  | financial => "financial"
  | aggregation => "aggregation"

def ofJson? (j : Json) : Option FormulaCategory := do
  let name ← j.caseName?
  all.find? (·.name = name)

end FormulaCategory

/-- What can be said about a formula without running it. -/
structure FormulaSummary where
  id : String
  name : String
  version : String
  category : FormulaCategory
  derivation : String
  requiredVariables : List String
  outputUnit : Measure

structure Formula extends FormulaSummary where
  compute : Context → Float

namespace Formula

/-- The required variables that a context does not define, in the order of the declaration. -/
def missingVariables (f : Formula) (context : Context) : List String :=
  f.requiredVariables.filter fun name => !context.contains name

/-- The value in a context; an absent variable reads as an undefined number. -/
def evaluate (f : Formula) (context : Context) : Float :=
  f.compute context

/-- The bindings of a context that the formula requires. -/
def inputs (f : Formula) (context : Context) : Context :=
  Context.ofPairs (f.requiredVariables.filterMap fun name =>
    (context.get? name).map fun value => (name, value))

end Formula

namespace FormulaSummary

def toJson (f : FormulaSummary) : Json :=
  .object [("id", .string f.id), ("name", .string f.name), ("version", .string f.version),
    ("category", .string f.category.name), ("derivation", .string f.derivation),
    ("requiredVariables", .strings f.requiredVariables), ("outputUnit", f.outputUnit.toJson)]

def ofJson? (j : Json) : Option FormulaSummary := do
  let j ← j.object?
  return { id := ← j.required "id" Json.string?
           name := ← j.required "name" Json.string?
           version := ← j.required "version" Json.string?
           category := ← j.required "category" FormulaCategory.ofJson?
           derivation := ← j.required "derivation" Json.string?
           requiredVariables := ← j.required "requiredVariables" Json.stringList?
           outputUnit := ← j.required "outputUnit" Measure.ofJson? }

end FormulaSummary

/-- The registered formulas, oldest first. -/
structure FormulaRegistry where
  formulas : List Formula

namespace FormulaRegistry

def empty : FormulaRegistry := ⟨[]⟩

/-- The most recently registered version of an id. -/
def get? (r : FormulaRegistry) (id : String) : Option Formula :=
  r.formulas.reverse.find? (·.id = id)

def getVersion? (r : FormulaRegistry) (id version : String) : Option Formula :=
  r.formulas.find? fun f => f.id = id ∧ f.version = version

def size (r : FormulaRegistry) : Nat :=
  r.formulas.length

def register (r : FormulaRegistry) (f : Formula) : Except EngineError FormulaRegistry :=
  if (r.getVersion? f.id f.version).isSome then .error (.duplicateFormula f.id f.version)
  else .ok ⟨r.formulas ++ [f]⟩

end FormulaRegistry

end Appraisal
