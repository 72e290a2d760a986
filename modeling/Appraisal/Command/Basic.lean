import Appraisal.Command.Arguments
import Appraisal.Decimal.Reader
import Appraisal.Workbench.Request

/-!
# Commands

What a run is asked to do, and how that is read from its arguments.
-/

namespace Appraisal

inductive Command where
  | calculate (input : String)
  | recalculate (input : String) (overrides : List AssumptionValue)
  | uncertainty (input : String) (options : UncertaintyOptions)
  | listAssumptions
  | assumptionsByCategory
  | setAssumptions (updates : List AssumptionValue)
  | listFormulas
  | showFormula (id : String)
  | previewExpression (request : PreviewRequest)
  | listInputs
  | createCustom (draft : FormulaDraft)
  | listCustom (key : FormulaKey)
  | activateCustom (id : String)
  | evaluateCustom (key : FormulaKey) (context : Context)
  | exportState (overrides : List AssumptionValue)
  | importState (input : String)
  | health

/-- The options of every command. -/
structure CommonOptions where
  settingsPath : Option String
  databasePath : Option String
  /-- Whether responses are written as documents. -/
  json : Bool

structure Invocation where
  options : CommonOptions
  command : Option Command

namespace Command

/-- `NAME=VALUE`, where blanks around the name and the value do not count. -/
def assignment? (text : String) : Option (String × Float) :=
  let name := Text.trim (String.ofList (text.toList.takeWhile (· ≠ '=')))
  match text.toList.dropWhile (· ≠ '=') with
  | [] => none
  | _ :: value =>
    if name = "" then none
    else (Decimal.read? (Text.trim (String.ofList value))).map fun x => (name, x)

def update? (text : String) : Option AssumptionValue :=
  (assignment? text).map fun (id, value) => ⟨id, value⟩

def constant? (text : String) : Option Expression.Constant :=
  (assignment? text).map fun (name, value) => ⟨name, name, value⟩

/-- Digits, with or without a plus sign, for a number of 64 bits. -/
def count? (text : String) : Option Nat :=
  let digits := match text.toList with
    | '+' :: cs => cs
    | cs => cs
  let n := Decimal.digitsValue digits
  if digits ≠ [] && digits.all Decimal.isDigit && n < Nat.pow 2 64 then some n else none

/-- The name of a file, which is not empty. -/
def path? (text : String) : Option String :=
  if text = "" then none else some text

def optionally {α : Type} (read : String → Option α) : Option String → Option (Option α)
  | none => some none
  | some text => (read text).map some

def valued (name : String) : OptionSpec := ⟨name, true, false⟩

def repeated (name : String) : OptionSpec := ⟨name, true, true⟩

def flag (name : String) : OptionSpec := ⟨name, false, false⟩

def commonOptions : List OptionSpec :=
  [valued "config", valued "db", flag "json", ⟨"verbose", false, true⟩]

/-- A command with its own options beside the common ones. -/
def leaf (operands : Operands) (options : List OptionSpec) (required : List String) : Grammar :=
  ⟨options ++ commonOptions, operands, required, []⟩

def group (subcommands : List (String × Grammar)) : Grammar :=
  ⟨commonOptions, .none, [], subcommands⟩

def keyOptions : List OptionSpec :=
  [valued "field", valued "report", valued "use-case"]

def grammar : Grammar :=
  group
    [("calculate", leaf .one [] []),
     ("recalculate", leaf .one [repeated "set"] []),
     ("uncertainty", leaf .one [valued "samples", valued "seed"] []),
     ("assumptions", group
       [("list", leaf .none [flag "by-category"] []),
        ("set", leaf .some [] [])]),
     ("formulas", group [("list", leaf .none [] []), ("show", leaf .one [] [])]),
     ("expr", group
       [("preview", leaf .one [repeated "var", repeated "const"] []),
        ("inputs", leaf .none [] [])]),
     ("custom", group
       [("create", leaf .none
          (keyOptions ++ [valued "label", valued "expr", repeated "input", repeated "const",
            valued "notes", valued "author"]) ["field", "label", "expr"]),
        ("list", leaf .none keyOptions ["field"]),
        ("activate", leaf .one [] []),
        ("eval", leaf .none (keyOptions ++ [repeated "var"]) ["field"])]),
     ("state", group [("export", leaf .none [repeated "set"] []), ("import", leaf .one [] [])]),
     ("health", leaf .none [] [])]

def key? (a : Arguments) : Option FormulaKey := do
  return FormulaKey.normalized
    { reportId := a.value? "report"
      useCaseId := a.value? "use-case"
      fieldKey := ← a.value? "field" }

def draft? (a : Arguments) : Option FormulaDraft := do
  return { key := ← key? a
           label := ← a.value? "label"
           expression := ← a.value? "expr"
           inputFields := a.valuesOf "input"
           constants := ← (a.valuesOf "const").mapM constant?
           notes := a.value? "notes"
           createdBy := a.value? "author" }

def input? (a : Arguments) : Option String := do
  path? (← a.operands.head?)

def context? (a : Arguments) : Option Context := do
  return .ofPairs (← (a.valuesOf "var").mapM assignment?)

def uncertaintyOptions? (a : Arguments) : Option UncertaintyOptions := do
  let seed ← optionally count? (a.value? "seed")
  return { sampleSize := ← optionally count? (a.value? "samples")
           seed := seed.map (·.toUInt64) }

def request? (a : Arguments) : Option PreviewRequest := do
  return { expression := ← a.operands.head?
           context := ← context? a
           constants := ← (a.valuesOf "const").mapM constant? }

/-- The command that complete arguments stand for; `none` if a value cannot be read. -/
def ofArguments? (a : Arguments) : Option Command := do
  match a.path with
  | ["calculate"] => return calculate (← input? a)
  | ["recalculate"] => return recalculate (← input? a) (← (a.valuesOf "set").mapM update?)
  | ["uncertainty"] => return uncertainty (← input? a) (← uncertaintyOptions? a)
  | ["assumptions", "list"] =>
    return if a.flags.contains "by-category" then assumptionsByCategory else listAssumptions
  | ["assumptions", "set"] => return setAssumptions (← a.operands.mapM update?)
  | ["formulas", "list"] => return listFormulas
  | ["formulas", "show"] => return showFormula (← a.operands.head?)
  | ["expr", "preview"] => return previewExpression (← request? a)
  | ["expr", "inputs"] => return listInputs
  | ["custom", "create"] => return createCustom (← draft? a)
  | ["custom", "list"] => return listCustom (← key? a)
  | ["custom", "activate"] => return activateCustom (← a.operands.head?)
  | ["custom", "eval"] => return evaluateCustom (← key? a) (← context? a)
  | ["state", "export"] => return exportState (← (a.valuesOf "set").mapM update?)
  | ["state", "import"] => return importState (← input? a)
  | ["health"] => return health
  | _ => none

end Command

/-- Where a run finds its files unless it is told otherwise. An environment may name them, and
arguments go before the environment. -/
structure Environment where
  settingsPath : Option String
  databasePath : Option String

namespace Invocation

/-- The path that an option names, or else the environment. The environment is looked up at every
level at which the option is not given, and an empty path is misuse. -/
def path? (a : Arguments) (option : String) (fromEnvironment : Option String) :
    Option (Option String) := do
  let given ← (a.valuesOf option).mapM Command.path?
  if a.isGivenThroughout option then return given.getLast?
  return given.getLast?.or (← Command.optionally Command.path? fromEnvironment)

def options? (env : Environment) (a : Arguments) : Option CommonOptions := do
  return { settingsPath := ← path? a "config" env.settingsPath
           databasePath := ← path? a "db" env.databasePath
           json := a.flags.contains "json" }

def ofArguments? (env : Environment) (a : Arguments) : Option Invocation := do
  let options ← options? env a
  if a.path = [] then return { options, command := none }
  return { options, command := some (← Command.ofArguments? a) }

def read (env : Environment) (texts : List String) : Except Stop Invocation := do
  let a ← Command.grammar.read .empty texts
  match ofArguments? env a with
  | some invocation => return invocation
  | none => .error .misuse

end Invocation

end Appraisal
