import Appraisal.Calculated
import Appraisal.Engine.Basic

/-!
# Evaluating formulas

A formula sees every assumption, by id and by the variable it feeds, and over them the context of
the call. Missing variables and results that are not finite give a flawed value; only an unknown
formula is refused.
-/

namespace Appraisal.Engine

/-- What a formula sees in a call. -/
def callContext (e : Engine) (context : Context) : Context :=
  e.assumptions.formulaContext.overlay context

/-- The value of a formula on its full context. -/
def valueOf (now : Instant) (f : Formula) (full : Context) : CalculatedValue :=
  let base : CalculatedValue :=
    { value := f.evaluate full
      unit := f.outputUnit
      formulaId := f.id
      formulaVersion := f.version
      inputs := f.inputs full
      computedAt := now
      flaw := none }
  let missing := f.missingVariables full
  if !missing.isEmpty then base.flawed (.missingVariables missing)
  else if base.value.isFinite then base
  else base.flawed .nonFinite

def formula (e : Engine) (id : String) : Except EngineError Formula :=
  match e.formulas.get? id with
  | some f => .ok f
  | none => .error (.unknownFormula id)

def evaluateFormula (now : Instant) (id : String) (context : Context) : Op CalculatedValue := do
  let result ← Op.ask fun e => do return valueOf now (← e.formula id) (e.callContext context)
  Op.record now .evaluateFormula
    [("formulaId", .string result.formulaId), ("version", .string result.formulaVersion),
     ("value", .amount result.value), ("error", .optional (.string ·.message) result.flaw)]
  return result

/-- The formula id of sums. -/
def aggregationId : String := "aggregation"

/-- The terms of a sum, each in the unit of the sum. The first one of another dimension refuses the
whole sum. -/
def convertTerms (target : Measure) :
    List (String × CalculatedValue) → Except EngineError (List (String × Float))
  | [] => .ok []
  | (name, v) :: terms => do
    let converted ← Measure.convert v.value v.unit target
    return (name, converted) :: (← convertTerms target terms)

/-- The sum of named values in one unit. A flawed term flaws the sum. -/
def sumOf (now : Instant) (terms : List (String × CalculatedValue)) (target : Measure) :
    Except EngineError CalculatedValue := do
  let converted ← convertTerms target terms
  let base : CalculatedValue :=
    { value := (converted.map (·.2)).foldl (· + ·) 0
      unit := target
      formulaId := aggregationId
      formulaVersion := Formula.standardVersion
      inputs := Context.ofPairs converted
      computedAt := now
      flaw := none }
  match terms.find? (!·.2.isOk) with
  | some (name, _) => return base.flawed (.invalidInput name)
  | none => return base

def sumValues (now : Instant) (label : String) (terms : List (String × CalculatedValue))
    (target : Measure) : Op CalculatedValue := do
  let result ← Op.ask fun _ => sumOf now terms target
  Op.record now .aggregate
    [("label", .string label), ("terms", .count terms.length), ("unit", target.toJson),
     ("value", .amount result.value)]
  return result

end Appraisal.Engine
