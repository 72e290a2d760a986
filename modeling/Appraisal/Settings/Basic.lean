import Appraisal.Decimal.Layout
import Appraisal.Expression.Basic
import Appraisal.Json.Decode

/-!
# Settings

The bounds of simulations, the form of reports, the limits of expressions and the place of the
database. Whatever is not set has its default.
-/

namespace Appraisal

structure SamplingSettings where
  minSamples : Nat
  maxSamples : Nat
  defaultSamples : Nat
  defaultSeed : UInt64

namespace SamplingSettings

def standard : SamplingSettings := ⟨1000, 50000, 10000, 42⟩

/-- The requested or the default number of samples, moved into the bounds. -/
def clamp (s : SamplingSettings) (requested : Option Nat) : Nat :=
  min (max (requested.getD s.defaultSamples) s.minSamples) s.maxSamples

end SamplingSettings

structure ReportSettings where
  /-- How many use cases the dashboard ranks. -/
  top : Nat
  /-- The totals of the dashboard are rounded down to a multiple of this. -/
  roundingIncrement : Float

def ReportSettings.standard : ReportSettings := ⟨5, 100000⟩

structure Settings where
  sampling : SamplingSettings
  report : ReportSettings
  limits : Expression.Limits
  databasePath : Option String

/-- Why settings cannot be used. -/
inductive SettingsError where
  | unreadable (path reason : String)
  | malformed (path reason : String)
  | invalid (reason : String)
  deriving DecidableEq, Repr

def SettingsError.message : SettingsError → String
  | unreadable path reason => s!"cannot read {path}: {reason}"
  | malformed path reason => s!"cannot parse {path}: {reason}"
  | invalid reason => "invalid setting: " ++ reason

namespace Settings

def standard : Settings :=
  ⟨.standard, .standard, .standard, none⟩

/-- An upper bound of the nesting of expressions. -/
def maxExpressionDepth : Nat := 256

def validate (s : Settings) : Except SettingsError Unit :=
  if s.sampling.minSamples = 0 then
    .error (.invalid "monte_carlo.min_samples must be at least 1")
  else if s.sampling.maxSamples < s.sampling.minSamples then
    .error (.invalid (s!"monte_carlo.min_samples ({s.sampling.minSamples}) exceeds " ++
      s!"max_samples ({s.sampling.maxSamples})"))
  else if s.report.top = 0 then .error (.invalid "report.top_n must be at least 1")
  else if !(s.report.roundingIncrement.isFinite && 0 < s.report.roundingIncrement) then
    .error (.invalid ("report.benefit_rounding_increment must be positive, got " ++
      Decimal.message s.report.roundingIncrement))
  else if s.limits.maxLength = 0 ∨ s.limits.maxDepth = 0 then
    .error (.invalid "expression limits must be at least 1")
  else if maxExpressionDepth < s.limits.maxDepth then
    .error (.invalid
      s!"expression.max_depth ({s.limits.maxDepth}) exceeds {maxExpressionDepth}")
  else .ok ()

end Settings

namespace SamplingSettings

def ofJson? (j : Json) : Option SamplingSettings := do
  let j ← j.object?
  let d := standard
  return { minSamples := ← j.fieldOr d.minSamples "min_samples" (Json.count? 64)
           maxSamples := ← j.fieldOr d.maxSamples "max_samples" (Json.count? 64)
           defaultSamples := ← j.fieldOr d.defaultSamples "default_samples" (Json.count? 64)
           defaultSeed :=
             (← j.fieldOr d.defaultSeed.toNat "default_seed" (Json.count? 64)).toUInt64 }

def toJson (s : SamplingSettings) : Json :=
  .object [("min_samples", .count s.minSamples), ("max_samples", .count s.maxSamples),
    ("default_samples", .count s.defaultSamples), ("default_seed", .count s.defaultSeed.toNat)]

end SamplingSettings

namespace ReportSettings

def ofJson? (j : Json) : Option ReportSettings := do
  let j ← j.object?
  return { top := ← j.fieldOr standard.top "top_n" (Json.count? 64)
           roundingIncrement := ← j.fieldOr standard.roundingIncrement
             "benefit_rounding_increment" Json.amount? }

def toJson (s : ReportSettings) : Json :=
  .object [("top_n", .count s.top), ("benefit_rounding_increment", .amount s.roundingIncrement)]

end ReportSettings

namespace Settings

def limitsOfJson? (j : Json) : Option Expression.Limits := do
  let j ← j.object?
  let d := Expression.Limits.standard
  return { maxLength := ← j.fieldOr d.maxLength "max_length" (Json.count? 64)
           maxDepth := ← j.fieldOr d.maxDepth "max_depth" (Json.count? 64) }

def databasePathOfJson? (j : Json) : Option (Option String) := do
  (← j.object?).optionalField "database_path" Json.string?

def ofJson? (j : Json) : Option Settings := do
  let j ← j.object?
  return { sampling := ← j.fieldOr .standard "monte_carlo" SamplingSettings.ofJson?
           report := ← j.fieldOr .standard "report" ReportSettings.ofJson?
           limits := ← j.fieldOr .standard "expression" limitsOfJson?
           databasePath := ← j.fieldOr none "store" databasePathOfJson? }

def toJson (s : Settings) : Json :=
  .object [("monte_carlo", s.sampling.toJson), ("report", s.report.toJson),
    ("expression", .object [("max_length", .count s.limits.maxLength),
      ("max_depth", .count s.limits.maxDepth)]),
    ("store", .object [("database_path", .optional .string s.databasePath)])]

end Settings

end Appraisal
