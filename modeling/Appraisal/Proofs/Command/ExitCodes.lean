import Appraisal.Command.FileTree
import Appraisal.Command.Run
import Appraisal.Proofs.Workbench.Responses
import Appraisal.Proofs.Workbench.StoredFormulas

/-!
# Exit codes of runs

A command first obtains a response and then writes it, as a document or for readers. The two ways
look at different fields of the response and come to the same exit code. A preview looks into its
data as well, for an expression that has no value; the evaluation of a stored formula does not.
-/

namespace Appraisal

open Workbench (Op)

/-- The data of a successful response to a command. An export whose overrides are refused is
answered with what has become of them. -/
def Command.Answer : Command → Type
  | .calculate _ | .recalculate _ _ => Report
  | .uncertainty _ _ => UncertaintyReport
  | .listAssumptions => List Assumption
  | .assumptionsByCategory => List (AssumptionCategory × List Assumption)
  | .setAssumptions _ => BatchResult
  | .listFormulas => List FormulaSummary
  | .showFormula _ => FormulaSummary
  | .previewExpression _ => Expression.Evaluation
  | .listInputs => List (String × List InputField)
  | .createCustom _ | .activateCustom _ => CustomFormula
  | .listCustom _ => FormulaVersions
  | .evaluateCustom _ _ => CustomEvaluation
  | .exportState _ => BatchResult ⊕ EngineState
  | .importState _ => EngineState
  | .health => Health

/-- The evaluation of an expression in the data. -/
def Command.evaluation? : (command : Command) → command.Answer → Option Expression.Evaluation
  | .previewExpression _, evaluation => some evaluation
  | .evaluateCustom _ _, custom => some custom.evaluation
  | _, _ => none

namespace Run

/-- A response that does not contradict itself. -/
abbrev Reply (α : Type) : Type :=
  { response : Response α // response.Settled }

/-- Why the evaluation in a reply has failed. -/
def Reply.failure? {command : Command} (reply : Reply command.Answer) :
    Option Expression.Failure :=
  (reply.1.data.bind command.evaluation?).bind (·.failure)

section

variable {α β : Type} {m : Type → Type} [Monad m] (h : Host m)

def replied (settings : Settings) (moment : Moment) (op : Op α) (hop : op.Settles) : Reply α :=
  ⟨answered settings moment op, hop _⟩

/-- The reply to what has been read. -/
def repliedTo (read : m (Except Failure β)) (reply : β → Reply α) :
    m (Except Failure (Reply α)) := do
  return (← read).map reply

/-- The reply from a workbench with the stored formulas. -/
def repliedFrom (settings : Settings) (moment : Moment) (op : Op α) (hop : op.Settles) :
    m (Except Failure (Reply α)) := do
  match ← openStore h (h.databasePath settings) with
  | .error e => return .error (.ofRefusal e.refusal)
  | .ok (location, store) =>
    let w := Workbench.withStore settings store moment.now
    saveStore h (op w).2.store location
    return .ok ⟨(op w).1, hop w⟩

def exported (settings : Settings) (moment : Moment) (overrides : List AssumptionValue) :
    Reply (BatchResult ⊕ EngineState) :=
  let start := Workbench.new settings moment.now
  let applied := Workbench.batchUpdate moment overrides start
  let exportOf (w : Workbench) : Reply (BatchResult ⊕ EngineState) :=
    ⟨(Workbench.exportState moment w).1.map .inr, (Workbench.settles_ask _ w).map _⟩
  if overrides.isEmpty then exportOf start
  else if applied.1.success then exportOf applied.2
  else ⟨applied.1.map .inl, (Workbench.settles_batchUpdate moment overrides start).map _⟩

/-- What a command obtains before it writes anything. -/
def consult (settings : Settings) (moment : Moment) :
    (command : Command) → m (Except Failure (Reply command.Answer))
  | .calculate input => repliedTo (readDocument h input) fun payload =>
    replied settings moment (Workbench.calculate moment payload) (Workbench.settles_ask _)
  | .recalculate input overrides => repliedTo (readDocument h input) fun payload =>
    replied settings moment (Workbench.recalculate moment payload overrides)
      (Workbench.settles_ask _)
  | .uncertainty input options => repliedTo (readDocument h input) fun payload =>
    replied settings moment (Workbench.uncertainty moment payload options)
      (Workbench.settles_ask _)
  | .listAssumptions =>
    return .ok (replied settings moment Workbench.listAssumptions (Workbench.settles_ask _))
  | .assumptionsByCategory =>
    return .ok (replied settings moment Workbench.assumptionsByCategory (Workbench.settles_ask _))
  | .setAssumptions updates =>
    return .ok (replied settings moment (Workbench.batchUpdate moment updates)
      (Workbench.settles_batchUpdate moment updates))
  | .listFormulas =>
    return .ok (replied settings moment Workbench.listFormulas (Workbench.settles_ask _))
  | .showFormula id =>
    return .ok (replied settings moment (Workbench.getFormula id) (Workbench.settles_ask _))
  | .previewExpression request =>
    return .ok (replied settings moment (Workbench.previewFormula request)
      (Workbench.settles_ask _))
  | .listInputs =>
    return .ok (replied settings moment Workbench.listAvailableInputs (Workbench.settles_ask _))
  | .createCustom draft =>
    repliedFrom h settings moment (Workbench.createCustomFormula moment draft)
      (Workbench.settles_onStore _)
  | .listCustom key =>
    repliedFrom h settings moment (Workbench.listCustomFormulas key) (Workbench.settles_ask _)
  | .activateCustom id =>
    repliedFrom h settings moment (Workbench.activateCustomFormula id)
      (Workbench.settles_onStore _)
  | .evaluateCustom key context =>
    repliedFrom h settings moment (Workbench.evaluateCustomFormula key context)
      (Workbench.settles_ask _)
  | .exportState overrides => return .ok (exported settings moment overrides)
  | .importState input => repliedTo (readCheckpoint h input) fun checkpoint =>
    replied settings moment (Workbench.importState moment checkpoint)
      (Workbench.settles_importState moment checkpoint)
  | .health => return .ok (replied settings moment Workbench.health (Workbench.settles_ask _))

end

/-- How the response to a command is written. -/
def written (json : Bool) : (command : Command) → Response command.Answer → Outcome
  | .calculate _ | .recalculate _ _ => emit json Report.toJson Display.report
  | .uncertainty _ _ => emit json UncertaintyReport.toJson Display.uncertainty
  | .listAssumptions => emit json Workbench.assumptionsToJson Display.assumptions
  | .assumptionsByCategory => emit json Workbench.groupsToJson Display.groups
  | .setAssumptions _ => emit json BatchResult.toJson Display.batch
  | .listFormulas => emit json Workbench.formulasToJson Display.formulas
  | .showFormula _ => emit json FormulaSummary.toJson Display.formula
  | .previewExpression _ => emitPreview json
  | .listInputs =>
    emit json Workbench.inputsToJson (Display.document <| Workbench.inputsToJson ·)
  | .createCustom _ | .activateCustom _ => emit json CustomFormula.toJson Display.customFormula
  | .listCustom _ => emit json FormulaVersions.toJson Display.customVersions
  | .evaluateCustom _ _ =>
    emit json CustomEvaluation.toJson (Display.evaluation ·.evaluation)
  | .exportState _ =>
    emit json (Sum.elim BatchResult.toJson EngineState.toJson)
      (Sum.elim Display.batch (Display.document ·.toJson))
  | .importState _ => emit json EngineState.toJson Display.restored
  | .health => emit json Health.toJson (Display.document ·.toJson)

def concluded (json : Bool) (command : Command) :
    Except Failure (Reply command.Answer) → Outcome
  | .error failure => failure.outcome
  | .ok reply => written json command reply.1

theorem emit_map {α β : Type} (json : Bool) (encode : β → Json) (display : β → String)
    (r : Response α) (f : α → β) :
    emit json encode display (r.map f) = emit json (encode ∘ f) (display ∘ f) r := by
  rcases r with ⟨success, _ | data, _ | error⟩ <;> cases success <;> cases json <;> rfl

theorem val_exported (settings : Settings) (moment : Moment) (overrides : List AssumptionValue) :
    let start := Workbench.new settings moment.now
    let applied := Workbench.batchUpdate moment overrides start
    (exported settings moment overrides).1 =
      if overrides.isEmpty then (Workbench.exportState moment start).1.map .inr
      else if applied.1.success then (Workbench.exportState moment applied.2).1.map .inr
      else applied.1.map .inl := by
  simp only [exported]
  split_ifs <;> rfl

/-- Both kinds of answers of an export are written as what they are. -/
theorem exportWith_eq (json : Bool) (settings : Settings) (moment : Moment)
    (overrides : List AssumptionValue) :
    exportWith json settings moment overrides =
      written json (.exportState overrides) (exported settings moment overrides).1 := by
  have hmap {α : Type} (r : Response α) (f : α → BatchResult ⊕ EngineState) :=
    (emit_map json (Sum.elim BatchResult.toJson EngineState.toJson)
      (Sum.elim Display.batch (Display.document ·.toJson)) r f).symm
  have hexport (w : Workbench) : emit json EngineState.toJson (Display.document ·.toJson)
      (Workbench.exportState moment w).1 = written json (.exportState overrides)
        ((Workbench.exportState moment w).1.map .inr) := hmap _ .inr
  have hbatch (applied : Response BatchResult) :
      emit json BatchResult.toJson Display.batch applied =
        written json (.exportState overrides) (applied.map .inl) := hmap applied .inl
  rw [val_exported, exportWith]
  rcases Workbench.batchUpdate moment overrides (.new settings moment.now) with ⟨applied, w⟩
  simp only [hexport, hbatch]
  split_ifs <;> rfl

section

variable {α β : Type} {m : Type → Type} [Monad m] [LawfulMonad m]

theorem map_repliedTo (conclude : Except Failure (Reply α) → Outcome)
    (read : m (Except Failure β)) (reply : β → Reply α) :
    conclude <$> repliedTo read reply = do return conclude ((← read).map reply) := by
  simp only [repliedTo, map_bind, map_pure]

variable (h : Host m)

theorem onFormulas_eq (conclude : Except Failure (Reply α) → Outcome)
    (hconclude : ∀ failure, conclude (.error failure) = failure.outcome) {op : Op α}
    (hop : op.Settles) {emit : Response α → Outcome}
    (hemit : ∀ reply, conclude (.ok reply) = emit reply.1) (settings : Settings)
    (moment : Moment) :
    onFormulas h settings moment op emit =
      conclude <$> repliedFrom h settings moment op hop := by
  rw [onFormulas, repliedFrom, map_bind]
  congr 1
  funext x
  rcases x with e | ⟨location, store⟩
  · simp [hconclude]
  · simp only [map_bind, map_pure, hemit]
    rfl

theorem perform_eq (json : Bool) (settings : Settings) (moment : Moment) (command : Command) :
    perform h json settings moment command =
      concluded json command <$> consult h settings moment command := by
  cases command <;> simp only [perform, consult]
  case calculate | recalculate | uncertainty =>
    rw [onPayload, map_repliedTo]
    congr 1
    funext x
    cases x <;> rfl
  case createCustom draft =>
    exact onFormulas_eq h (concluded json (.createCustom draft)) (fun _ => rfl) _ (fun _ => rfl)
      settings moment
  case listCustom key =>
    exact onFormulas_eq h (concluded json (.listCustom key)) (fun _ => rfl) _ (fun _ => rfl)
      settings moment
  case activateCustom id =>
    exact onFormulas_eq h (concluded json (.activateCustom id)) (fun _ => rfl) _ (fun _ => rfl)
      settings moment
  case evaluateCustom key context =>
    exact onFormulas_eq h (concluded json (.evaluateCustom key context)) (fun _ => rfl) _
      (fun _ => rfl) settings moment
  case exportState overrides =>
    rw [map_pure, exportWith_eq]
    rfl
  case importState input =>
    rw [map_repliedTo]
    congr 1
    funext x
    cases x <;> rfl
  all_goals
    rw [map_pure]
    rfl

end

variable {command : Command}

def isPreview : Command → Bool
  | .previewExpression _ => true
  | _ => false

/-- The exit code that the reply to a command calls for. -/
def Reply.exitCode (reply : Reply command.Answer) : ExitCode :=
  match reply.1.error with
  | some error => .refused error.kind
  | none =>
    if isPreview command && reply.failure?.isSome then .refused .validation else .success

/-- The document is looked at for an error, and the text for data without one. -/
theorem exitCode_emit {α : Type} {r : Response α} (hr : r.Settled) (json : Bool)
    (encode : α → Json) (display : α → String) :
    (emit json encode display r).exitCode =
      match r.error with
      | some error => .refused error.kind
      | none => .success := by
  cases hr with
  | answered data => cases json <;> rfl
  | refused data error => cases data <;> cases json <;> rfl

theorem exitCode_emitPreview {r : Response Expression.Evaluation} (hr : r.Settled) (json : Bool) :
    (emitPreview json r).exitCode =
      match r.error with
      | some error => .refused error.kind
      | none => if (r.data.bind (·.failure)).isSome then .refused .validation else .success := by
  have hemit := exitCode_emit hr json Expression.Evaluation.toJson Display.evaluation
  rw [emitPreview]
  generalize emit json Expression.Evaluation.toJson Display.evaluation r = outcome at hemit ⊢
  cases hr with
  | answered data =>
    have hsuccess : outcome.exitCode = .success := hemit
    rcases hfailure : data.failure with _ | failure <;>
      simp [Response.ok, hfailure, hsuccess, rejected]
  | refused data error =>
    have hrefused : outcome.exitCode = .refused error.kind := hemit
    rcases data.bind (·.failure) with _ | failure <;> simp [hrefused]

theorem failure?_preview {request : PreviewRequest}
    (reply : Reply (Command.previewExpression request).Answer) :
    reply.failure? = reply.1.data.bind (·.failure) := by
  rw [Reply.failure?]
  cases reply.1.data <;> rfl

theorem exitCode_written (json : Bool) (reply : Reply command.Answer) :
    (written json command reply.1).exitCode = reply.exitCode := by
  obtain ⟨r, hr⟩ := reply
  cases command
  case previewExpression request =>
    rw [Reply.exitCode, failure?_preview]
    exact exitCode_emitPreview hr json
  all_goals exact exitCode_emit hr json _ _

/-- The exit code after a reply says what the reply says, in whichever way it is written. -/
structure Truthful (reply : Reply command.Answer) : Prop where
  modes : (written true command reply.1).exitCode = (written false command reply.1).exitCode
  success : ∀ json, (written json command reply.1).exitCode.number = 0 →
    reply.1.success = true ∧ reply.failure? = none
  refused : ∀ json error, reply.1.error = some error →
    (written json command reply.1).exitCode.number = error.kind.exitNumber

theorem exitCode_of_error {reply : Reply command.Answer} {error : Refusal}
    (h : reply.1.error = some error) : reply.exitCode = .refused error.kind := by
  rw [Reply.exitCode, h]

/-- Without an error it depends on the evaluation whether the run succeeds. -/
theorem exitCode_of_no_error {reply : Reply command.Answer} (h : reply.1.error = none) :
    reply.exitCode =
      if isPreview command && reply.failure?.isSome then .refused .validation else .success := by
  rw [Reply.exitCode, h]

/-- Besides previews only the evaluations of stored formulas have an evaluation in them. -/
theorem evaluation?_cases (command : Command) :
    isPreview command = true ∨ (∃ key context, command = .evaluateCustom key context) ∨
      ∀ answer : command.Answer, command.evaluation? answer = none := by
  cases command
  case previewExpression => exact .inl rfl
  case evaluateCustom key context => exact .inr (.inl ⟨key, context, rfl⟩)
  all_goals exact .inr (.inr fun _ => rfl)

theorem failure?_eq_none_of_success {reply : Reply command.Answer}
    (hcode : reply.exitCode = .success)
    (hcommand : ¬∃ key context, command = .evaluateCustom key context) :
    reply.failure? = none := by
  obtain hpreview | hcustom | hnone := evaluation?_cases command
  · by_contra hfailure
    rcases herror : reply.1.error with _ | error
    · rw [exitCode_of_no_error herror, hpreview, Option.isSome_iff_ne_none.2 hfailure] at hcode
      cases hcode
    · cases (exitCode_of_error herror).symm.trans hcode
  · exact absurd hcustom hcommand
  · rw [Reply.failure?]
    cases reply.1.data with
    | none => rfl
    | some answer => rw [Option.bind_some, hnone, Option.bind_none]

theorem number_eq_zero_iff (code : ExitCode) : code.number = 0 ↔ code = .success := by
  cases code with
  | success => exact iff_of_true rfl rfl
  | usage | settings => exact iff_of_false nofun nofun
  | refused kind => cases kind <;> exact iff_of_false nofun nofun

theorem truthful_iff (reply : Reply command.Answer) :
    Truthful reply ↔ ¬((∃ key context, command = .evaluateCustom key context) ∧
      reply.1.success = true ∧ reply.failure? ≠ none) := by
  constructor
  · rintro htruthful ⟨⟨key, context, rfl⟩, hsuccess, hfailure⟩
    have herror : reply.1.error = none := reply.2.success_iff.1 hsuccess
    have hcode : (written true _ reply.1).exitCode = .success := by
      rw [exitCode_written, exitCode_of_no_error herror]
      rfl
    exact hfailure (htruthful.success true ((number_eq_zero_iff _).2 hcode)).2
  · intro hheeded
    refine ⟨?_, fun json hzero => ?_, fun json error herror => ?_⟩
    · rw [exitCode_written, exitCode_written]
    · rw [number_eq_zero_iff, exitCode_written] at hzero
      have hsuccess : reply.1.success = true := by
        rw [reply.2.success_iff]
        by_contra herror
        obtain ⟨error, herror⟩ := Option.ne_none_iff_exists'.1 herror
        cases (exitCode_of_error herror).symm.trans hzero
      by_cases hcommand : ∃ key context, command = .evaluateCustom key context
      · refine ⟨hsuccess, ?_⟩
        by_contra hfailure
        exact hheeded ⟨hcommand, hsuccess, hfailure⟩
      · exact ⟨hsuccess, failure?_eq_none_of_success hzero hcommand⟩
    · rw [exitCode_written, exitCode_of_error herror]
      rfl

section

variable {m : Type → Type} [Monad m] [LawfulMonad m] (h : Host m)

theorem exitCode_concluded (json json' : Bool) (answer : Except Failure (Reply command.Answer)) :
    (concluded json command answer).exitCode = (concluded json' command answer).exitCode := by
  cases answer with
  | error failure => rfl
  | ok reply => rw [concluded, concluded, exitCode_written, exitCode_written]

theorem exitCode_perform (json json' : Bool) (settings : Settings) (moment : Moment)
    (command : Command) :
    Outcome.exitCode <$> perform h json settings moment command =
      Outcome.exitCode <$> perform h json' settings moment command := by
  rw [perform_eq, perform_eq, ← comp_map, ← comp_map]
  congr 1
  funext answer
  exact exitCode_concluded json json' answer

/-- Settings are loaded in the same way whether documents are asked for or not. -/
theorem exitCode_run {env : Environment} {arguments arguments' : List String}
    {options : CommonOptions} {command : Command}
    (hread : Invocation.read env arguments = .ok ⟨{ options with json := true }, some command⟩)
    (hread' : Invocation.read env arguments' = .ok ⟨{ options with json := false }, some command⟩) :
    Outcome.exitCode <$> run h env arguments = Outcome.exitCode <$> run h env arguments' := by
  have hsettings : loadSettings h { options with json := true } =
      loadSettings h { options with json := false } := rfl
  simp only [run, hread, hread', hsettings, map_bind]
  congr 1
  funext loaded
  cases loaded with
  | error failure => rfl
  | ok settings =>
    simp only [map_bind]
    congr 1
    funext moment
    exact exitCode_perform h true false settings moment command

/-- A command writes what it has obtained, and its exit code does not depend on how. The exit code
says what the reply says, but for a stored formula whose evaluation has failed: that run succeeds
like any other one. -/
theorem exit_codes_of_command (command : Command) :
    (∀ json settings moment, perform h json settings moment command =
      concluded json command <$> consult h settings moment command) ∧
    (∀ settings moment, Outcome.exitCode <$> perform h true settings moment command =
      Outcome.exitCode <$> perform h false settings moment command) ∧
    (∀ (env : Environment) (arguments arguments' : List String) (options : CommonOptions),
      Invocation.read env arguments = .ok ⟨{ options with json := true }, some command⟩ →
      Invocation.read env arguments' = .ok ⟨{ options with json := false }, some command⟩ →
      Outcome.exitCode <$> run h env arguments = Outcome.exitCode <$> run h env arguments') ∧
    ∀ reply : Reply command.Answer, Truthful reply ↔
      ¬((∃ key context, command = .evaluateCustom key context) ∧
        reply.1.success = true ∧ reply.failure? ≠ none) :=
  ⟨fun json settings moment => perform_eq h json settings moment command,
    fun settings moment => exitCode_perform h true false settings moment command,
    fun _ _ _ _ hread hread' => exitCode_run h hread hread', truthful_iff⟩

end

/-- A preview of an unknown variable is refused in both ways. -/
theorem exit_codes_of_failed_preview :
    let h := FileTree.host "" ⟨⟨0, 0⟩, "1"⟩
    let env : Environment := ⟨none, none⟩
    let command := Command.previewExpression ⟨"a", .ofPairs [], []⟩
    Outcome.exitCode <$> run h env ["expr", "preview", "a", "--json"] =
      Outcome.exitCode <$> run h env ["expr", "preview", "a"] ∧
    (∀ reply : Reply command.Answer, Truthful reply) ∧
    ((run h env ["expr", "preview", "a"]).run (.empty ["home"])).1.exitCode =
      .refused .validation := by
  intro h env command
  have hread : Invocation.read env ["expr", "preview", "a", "--json"] =
      .ok ⟨⟨none, none, true⟩, some command⟩ := rfl
  have hread' : Invocation.read env ["expr", "preview", "a"] =
      .ok ⟨⟨none, none, false⟩, some command⟩ := rfl
  obtain ⟨-, -, hrun, htruthful⟩ := exit_codes_of_command h command
  refine ⟨hrun env _ _ ⟨none, none, true⟩ hread hread', fun reply => ?_, by decide +kernel⟩
  rw [htruthful]
  rintro ⟨⟨key, context, hcommand⟩, -⟩
  change Command.previewExpression _ = _ at hcommand
  cases hcommand

/-- Files that a run finds its store among. -/
def filesWith (store : FormulaStore) : FileTree :=
  let folder : Place := ["home", ".data", "calcgraph"]
  ((FileTree.empty ["home"]).withFolders folder).put (folder ++ ["formulas.db"]) (.store store)

theorem openStore_filesWith (store : FormulaStore) (moment : Moment) :
    ∃ location, (openStore (FileTree.host "" moment) ".data/calcgraph/formulas.db").run
      (filesWith store) =
        (.ok (location, { store with isWritable := true }), filesWith store) :=
  ⟨_, rfl⟩

theorem repliedFrom_filesWith {α : Type} (store : FormulaStore) (moment : Moment) {op : Op α}
    (hop : op.Settles) :
    let w := Workbench.withStore .standard { store with isWritable := true } moment.now
    ((repliedFrom (FileTree.host "" moment) .standard moment op hop).run (filesWith store)).1 =
      .ok ⟨(op w).1, hop w⟩ := by
  obtain ⟨location, hopen⟩ := openStore_filesWith store moment
  have hpath : (FileTree.host "" moment).databasePath .standard = ".data/calcgraph/formulas.db" :=
    rfl
  rw [repliedFrom, hpath, StateT.run_bind, hopen]
  rfl

theorem fst_run_map {σ α β : Type} (f : α → β) (x : StateM σ α) (s : σ) :
    ((f <$> x).run s).1 = f (x.run s).1 := rfl

/-- The active formula of a key fails, and the run that evaluates it succeeds. -/
theorem success_of_invalid {store : FormulaStore} {key : FormulaKey} {context : Context}
    {f : CustomFormula} (hactive : store.active key = .ok (some f))
    (hinvalid : (Expression.validate Settings.standard.limits f.expression
      (Expression.availableNames context f.constants)).isValid = false) (moment : Moment) :
    let h := FileTree.host "" moment
    let command := Command.evaluateCustom key context
    (∀ json, ((perform h json .standard moment command).run (filesWith store)).1.exitCode =
      .success) ∧
    ∃ reply, ((consult h .standard moment command).run (filesWith store)).1 = .ok reply ∧
      reply.1.success = true ∧ reply.failure? ≠ none ∧ ¬ Truthful reply := by
  intro h command
  let w := Workbench.withStore .standard { store with isWritable := true } moment.now
  have hactive : w.store.active key = .ok (some f) := hactive
  have hresponse : (Workbench.evaluateCustomFormula key context w).1 = _ :=
    Workbench.evaluateCustomFormula_of_active hactive
  have hevaluation := Expression.preview_of_not_isValid hinvalid
  obtain ⟨reply, hconsult, hreply⟩ : ∃ reply : Reply command.Answer,
      ((consult h .standard moment command).run (filesWith store)).1 = .ok reply ∧
        reply.1 = (Workbench.evaluateCustomFormula key context w).1 :=
    ⟨_, repliedFrom_filesWith store moment (Workbench.settles_ask _), rfl⟩
  rw [hresponse] at hreply
  have hsuccess : reply.1.success = true := congrArg (·.success) hreply
  have hfailure : reply.failure? ≠ none := by
    rw [Reply.failure?, hreply]
    change (Expression.preview Settings.standard.limits f.expression context
      f.constants).failure ≠ none
    rw [hevaluation]
    exact Option.some_ne_none _
  have hcode (json : Bool) : (written json command reply.1).exitCode = .success := by
    rw [exitCode_written, exitCode_of_no_error (reply.2.success_iff.1 hsuccess)]
    rfl
  refine ⟨fun json => ?_, reply, hconsult, hsuccess, hfailure, ?_⟩
  · rw [perform_eq, fst_run_map, hconsult]
    exact hcode json
  · rw [truthful_iff, not_not]
    exact ⟨⟨_, _, rfl⟩, hsuccess, hfailure⟩

/-- The store in which share has been defined. -/
def shareStore : FormulaStore :=
  ((FormulaStore.empty .standard).run
    (FormulaStore.create "1" ⟨0, 0⟩ Workbench.shareDraft)).2

/-- Share is evaluated without its inputs. -/
theorem success_of_failed_evaluation :
    let h := FileTree.host "" ⟨⟨0, 0⟩, "1"⟩
    let command := Command.evaluateCustom Workbench.shareDraft.key (.ofPairs [])
    (∀ json, ((perform h json .standard ⟨⟨0, 0⟩, "1"⟩ command).run
      (filesWith shareStore)).1.exitCode = .success) ∧
    ∃ reply, ((consult h .standard ⟨⟨0, 0⟩, "1"⟩ command).run (filesWith shareStore)).1 =
        .ok reply ∧
      reply.1.success = true ∧ reply.failure? ≠ none ∧ ¬ Truthful reply := by
  let f := (FormulaStore.empty .standard).nextVersion "1" ⟨0, 0⟩ Workbench.shareDraft
  have hstore : shareStore = (FormulaStore.empty .standard).appended f.stored := by
    have hvalid : (Expression.validate .standard "p/s" ["p", "s"]).isValid = true := by cbv
    have hrun : (FormulaStore.empty .standard).run
        (FormulaStore.create "1" ⟨0, 0⟩ Workbench.shareDraft) =
          (.ok f, (FormulaStore.empty .standard).appended f.stored) :=
      (FormulaStore.sound_empty .standard).run_create FormulaStore.tracked_nil
        (if_pos hvalid) rfl (by decide)
    rw [shareStore, hrun]
  have hactive : shareStore.active Workbench.shareDraft.key = .ok (some f) := by
    have hread : f.stored.read = .ok f :=
      CustomFormula.read_stored ⟨by decide, by decide, by decide⟩ (by decide +kernel)
    have hfind : (shareStore.group Workbench.shareDraft.key).find? (·.isActive) =
        some f.stored := by
      rw [hstore]
      rfl
    rw [FormulaStore.active, hfind, Option.mapM_some, hread]
    rfl
  have hinvalid : (Expression.validate Settings.standard.limits f.expression
      (Expression.availableNames (.ofPairs []) f.constants)).isValid = false := by decide +kernel
  exact success_of_invalid hactive hinvalid ⟨⟨0, 0⟩, "1"⟩

end Run

end Appraisal
