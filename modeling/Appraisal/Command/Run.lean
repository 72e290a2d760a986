import Appraisal.Command.Basic
import Appraisal.Command.Display
import Appraisal.Command.ExitCode
import Appraisal.Command.Host
import Appraisal.Command.Path
import Appraisal.Json.Parser
import Appraisal.Settings.File

/-!
# Runs

A run reads its arguments, loads settings, obtains one response from a fresh workbench and writes
it. What lies outside is reached through a host.
-/

namespace Appraisal

namespace Run

/-- The text of a response: the whole response as a document, or its data for readers. -/
def emit {α : Type} (json : Bool) (encode : α → Json) (display : α → String)
    (response : Response α) : Outcome :=
  if json then
    let exitCode := match response.error with
      | some error => ExitCode.refused error.kind
      | none => .success
    ⟨exitCode, Display.document (response.map encode).toJson, ""⟩
  else match response.result with
  | .ok data => ⟨.success, display data, ""⟩
  | .error error => (Failure.ofRefusal error).outcome

/-- An outcome that is a refusal in spite of a successful response. The document has told the
reason already. -/
def rejected (json : Bool) (reason : String) (outcome : Outcome) : Outcome :=
  { outcome with
    exitCode := .refused .validation
    errors := if json then "" else (Failure.text ⟨.refused .validation, reason, none⟩) }

/-- A previewed expression that has no value counts as invalid. -/
def emitPreview (json : Bool) (response : Response Expression.Evaluation) : Outcome :=
  let outcome := emit json Expression.Evaluation.toJson Display.evaluation response
  match response.data.bind (·.failure) with
  | some failure =>
    if outcome.exitCode = .success then rejected json failure.message outcome else outcome
  | none => outcome

variable {m : Type → Type} [Monad m] (h : Host m)

def settingsHint : String :=
  "check the file passed with --config or $CALCGRAPH_CONFIG"

/-- A file that is named has to be usable; the standard one may be missing or unusable. -/
def loadSettings (options : CommonOptions) : m (Except Failure Settings) := do
  let settings ← match options.settingsPath with
    | some path => do
      pure (Settings.ofFile path ((← h.textOf path).mapError AccessError.message))
    | none => do
      let path := h.standardSettingsPath
      pure (.ok (Settings.ofFileOrStandard path ((← h.textOf path).mapError AccessError.message)))
  return match settings with
  | .ok s => .ok { s with databasePath := options.databasePath.or s.databasePath }
  | .error e => .error ⟨.settings, e.message, some settingsHint⟩

/-- The text of a file, or of the standard input for `-`. -/
def readText (path : String) : m (Except Failure String) := do
  if path = "-" then
    let text ← h.readInput
    if Text.isBlankText text then
      return .error ⟨.usage, "no input received on stdin",
        some "cat research.json | calcgraph calculate -"⟩
    return .ok text
  return match ← h.textOf path with
  | .ok text => .ok text
  | .error e => .error ⟨.usage, s!"cannot read {path}: {e.message}", none⟩

/-- What is wrong with an input that could be read. -/
def unusableInput (path problem : String) : Failure :=
  ⟨.refused .validation, s!"{path} is not {problem}", none⟩

def readDocument (path : String) : m (Except Failure Json) := do
  return match ← readText h path with
  | .error failure => .error failure
  | .ok text =>
    match Json.parse? text with
    | some j => .ok j
    | none => .error (unusableInput path "valid JSON: the text cannot be read")

/-- The data of a response that was written as a document; any other document as it is. -/
def unwrapped (j : Json) : Json :=
  match j.get? "success", j.get? "data" with
  | some _, some data => data
  | _, _ => j

def readCheckpoint (path : String) : m (Except Failure Checkpoint) := do
  return match ← readDocument h path with
  | .error failure => .error failure
  | .ok j =>
    match Checkpoint.ofJson? (unwrapped j) with
    | some c => .ok c
    | none => .error (unusableInput path "a checkpoint: it does not have the fields of one")

/-- Answers from a workbench without custom formulas. -/
def answered {α : Type} (settings : Settings) (moment : Moment) (op : Workbench.Op α) :
    Response α :=
  (op (.new settings moment.now)).1

/-- Answers about the payload at a path. -/
def onPayload (path : String) (answer : Json → Outcome) : m Outcome := do
  return match ← readDocument h path with
  | .ok payload => answer payload
  | .error failure => failure.outcome

/-- The store at a location, which `name` stands for. -/
def storeAt (name : String) : StoreLocation → m (Except WorkbenchError FormulaStore)
  | .transient => return .ok (.empty .standard)
  | .file path access => do
    return match ← h.openStore path access with
    | .ok store => .ok { store with isWritable := access != .readOnly }
    | .error e => .error (.store (.unusable (e.message name)))

/-- Makes the folder around the store of this name and opens it. -/
def openStore (name : String) : m (Except WorkbenchError (StoreLocation × FormulaStore)) := do
  let folder := (Path.parent? name).getD ""
  match ← h.makeFolders (Path.ancestors folder) with
  | .error e => return .error (.unusableFolder folder e.message)
  | .ok () =>
    match StoreLocation.ofName name with
    | .error reason => return .error (.store (.unusable reason))
    | .ok location => return (← storeAt h name location).map fun store => (location, store)

/-- Stores what has become of the formulas at a location. -/
def saveStore (store : FormulaStore) : StoreLocation → m Unit
  | .transient => return ()
  | .file path _ => if store.isWritable then h.saveStore path store else return ()

/-- Answers from a workbench with the stored formulas. -/
def onFormulas {α : Type} (settings : Settings) (moment : Moment) (op : Workbench.Op α)
    (emit : Response α → Outcome) : m Outcome := do
  match ← openStore h (h.databasePath settings) with
  | .error e => return (Failure.ofRefusal e.refusal).outcome
  | .ok (location, store) =>
    let (response, w) := op (.withStore settings store moment.now)
    saveStore h w.store location
    return emit response

/-- Exports the state with some assumptions set, unless one of them is refused. -/
def exportWith (json : Bool) (settings : Settings) (moment : Moment)
    (overrides : List AssumptionValue) : Outcome :=
  let start := Workbench.new settings moment.now
  let (applied, w) := Workbench.batchUpdate moment overrides start
  if overrides.isEmpty then
    emit json EngineState.toJson (Display.document ·.toJson) (Workbench.exportState moment start).1
  else if applied.success then
    emit json EngineState.toJson (Display.document ·.toJson) (Workbench.exportState moment w).1
  else emit json BatchResult.toJson Display.batch applied

def perform (json : Bool) (settings : Settings) (moment : Moment) : Command → m Outcome
  | .calculate input => onPayload h input fun payload =>
    emit json Report.toJson Display.report
      (answered settings moment (Workbench.calculate moment payload))
  | .recalculate input overrides => onPayload h input fun payload =>
    emit json Report.toJson Display.report
      (answered settings moment (Workbench.recalculate moment payload overrides))
  | .uncertainty input options => onPayload h input fun payload =>
    emit json UncertaintyReport.toJson Display.uncertainty
      (answered settings moment (Workbench.uncertainty moment payload options))
  | .listAssumptions =>
    return emit json Workbench.assumptionsToJson Display.assumptions
      (answered settings moment Workbench.listAssumptions)
  | .assumptionsByCategory =>
    return emit json Workbench.groupsToJson Display.groups
      (answered settings moment Workbench.assumptionsByCategory)
  | .setAssumptions updates =>
    return emit json BatchResult.toJson Display.batch
      (answered settings moment (Workbench.batchUpdate moment updates))
  | .listFormulas =>
    return emit json Workbench.formulasToJson Display.formulas
      (answered settings moment Workbench.listFormulas)
  | .showFormula id =>
    return emit json FormulaSummary.toJson Display.formula
      (answered settings moment (Workbench.getFormula id))
  | .previewExpression request =>
    return emitPreview json (answered settings moment (Workbench.previewFormula request))
  | .listInputs =>
    return emit json Workbench.inputsToJson (Display.document <| Workbench.inputsToJson ·)
      (answered settings moment Workbench.listAvailableInputs)
  | .createCustom draft =>
    onFormulas h settings moment (Workbench.createCustomFormula moment draft)
      (emit json CustomFormula.toJson Display.customFormula)
  | .listCustom key =>
    onFormulas h settings moment (Workbench.listCustomFormulas key)
      (emit json FormulaVersions.toJson Display.customVersions)
  | .activateCustom id =>
    onFormulas h settings moment (Workbench.activateCustomFormula id)
      (emit json CustomFormula.toJson Display.customFormula)
  | .evaluateCustom key context =>
    onFormulas h settings moment (Workbench.evaluateCustomFormula key context)
      (emit json CustomEvaluation.toJson (Display.evaluation ·.evaluation))
  | .exportState overrides => return exportWith json settings moment overrides
  | .importState input => do
    match ← readCheckpoint h input with
    | .error failure => return failure.outcome
    | .ok checkpoint =>
      return emit json EngineState.toJson Display.restored
        (answered settings moment (Workbench.importState moment checkpoint))
  | .health =>
    return emit json Health.toJson (Display.document ·.toJson)
      (answered settings moment Workbench.health)

def usage : String :=
  Display.lines ["Usage: calcgraph <command> [options]",
    "       calcgraph --help for more information"]

def commandsText : String :=
  Display.lines ["Usage: calcgraph <command> [options]",
    "Commands: " ++ String.intercalate ", " (Command.grammar.subcommands.map (·.1))]

def versionText : String :=
  Display.lines ["calcgraph " ++ Engine.version]

def stopped : Stop → Outcome
  | .misuse => ⟨.usage, "", "error: the arguments cannot be understood\n" ++ usage⟩
  | .help => ⟨.success, commandsText, ""⟩
  | .version => ⟨.success, versionText, ""⟩

/-- What a run with these arguments does. Without a command it only tells how it is used. -/
def run (env : Environment) (arguments : List String) : m Outcome := do
  match Invocation.read env arguments with
  | .error stop => return stopped stop
  | .ok ⟨_, none⟩ => return ⟨.success, "", usage⟩
  | .ok ⟨options, some command⟩ =>
    match ← loadSettings h options with
    | .error failure => return failure.outcome
    | .ok settings => perform h options.json settings (← h.moment) command

end Run

end Appraisal
