import Appraisal.Proofs.Engine.Run

/-!
# Opening a session

A session restored from a checkpoint continues a log with two entries, for the restoring itself and
for the import of the values. Whichever way a session is opened, its assumptions are sound, and
remain so in every run.
-/

namespace Appraisal.Engine

variable {formulas : FormulaRegistry} {c : Checkpoint} {now restoredAt importedAt : Instant}
  {e : Engine}

/-- The log that is continued: the one of the checkpoint, or a new one if that is empty. -/
def continuedLog (formulas : FormulaRegistry) (now : Instant) (c : Checkpoint) :
    Except EngineError Audit.Log :=
  if c.auditLog.isEmpty then .ok (withFormulas formulas now).audit
  else Audit.Log.restore c.auditLog

/-- The session that the values of a checkpoint are imported into. -/
def resumed (formulas : FormulaRegistry) (restoredAt : Instant) (c : Checkpoint)
    (log : Audit.Log) : Engine :=
  { formulas
    assumptions := .withDefaults
    audit := log.record restoredAt .restoreCheckpoint (.object
      [("assumptions", .count c.assumptions.length),
       ("restoredAuditEntries", .bool !c.auditLog.isEmpty)]) }

/-- The session, if it has the fingerprint that is asked for. -/
def verified (fingerprint : Option String) (e : Engine) : Except EngineError Engine :=
  match fingerprint with
  | none => .ok e
  | some expected =>
    if e.fingerprint = expected then .ok e
    else .error (.invalidCheckpoint
      s!"fingerprint mismatch: expected {expected}, restored {e.fingerprint}")

theorem verified_eq_ok_iff {fingerprint : Option String} {e' : Engine} :
    verified fingerprint e = .ok e' ↔
      e = e' ∧ ∀ expected ∈ fingerprint, e'.fingerprint = expected := by
  cases fingerprint with
  | none => simp [verified]
  | some expected =>
    simp only [verified]
    split_ifs with h
    · simp only [Except.ok.injEq, Option.mem_some, forall_eq']
      exact ⟨fun he => ⟨he, he ▸ h⟩, fun he => he.1⟩
    · simp only [Option.mem_some, forall_eq', false_iff]
      rintro ⟨rfl, h'⟩
      exact h h'

theorem fromCheckpoint_eq :
    fromCheckpoint formulas now c restoredAt importedAt = (do
      let log ← continuedLog formulas now c
      match importAssumptions importedAt c.assumptions (resumed formulas restoredAt c log) with
      | .error problems =>
        .error (.invalidCheckpoint (String.intercalate "; " (problems.map EngineError.message)))
      | .ok restored => verified c.fingerprint restored) := by
  by_cases h : c.auditLog.isEmpty = true
  · simp only [fromCheckpoint, continuedLog, if_pos h]
    rfl
  · simp only [fromCheckpoint, continuedLog, if_neg h]
    rfl

theorem fromCheckpoint_eq_ok_iff :
    fromCheckpoint formulas now c restoredAt importedAt = .ok e ↔
      ∃ log, continuedLog formulas now c = .ok log ∧
        (∀ v ∈ c.assumptions, AssumptionRegistry.withDefaults.check v.id v.value = .ok ()) ∧
        imported importedAt c.assumptions (resumed formulas restoredAt c log) = e ∧
        ∀ expected ∈ c.fingerprint, e.fingerprint = expected := by
  rw [fromCheckpoint_eq]
  rcases continuedLog formulas now c with problem | log
  · simp [bind, Except.bind]
  have himport (restored : Engine) :
      importAssumptions importedAt c.assumptions (resumed formulas restoredAt c log) =
          .ok restored ↔
        (∀ v ∈ c.assumptions, AssumptionRegistry.withDefaults.check v.id v.value = .ok ()) ∧
          imported importedAt c.assumptions (resumed formulas restoredAt c log) = restored :=
    importAssumptions_eq_ok_iff AssumptionRegistry.sound_withDefaults
  simp only [bind, Except.bind, Except.ok.injEq, exists_eq_left']
  cases h : importAssumptions importedAt c.assumptions (resumed formulas restoredAt c log) with
  | error problems =>
    simp only [reduceCtorEq, false_iff]
    rintro ⟨hcheck, -⟩
    cases h.symm.trans ((himport _).2 ⟨hcheck, rfl⟩)
  | ok restored =>
    obtain ⟨hcheck, rfl⟩ := (himport restored).1 h
    rw [verified_eq_ok_iff]
    exact ⟨fun he => ⟨hcheck, he⟩, fun he => he.2⟩

namespace Opened

theorem sound (h : Opened e) : e.assumptions.Sound := by
  cases h with
  | fresh => exact AssumptionRegistry.sound_withDefaults
  | restored h =>
    obtain ⟨_, -, hcheck, rfl, -⟩ := fromCheckpoint_eq_ok_iff.1 h
    exact (foldlM_applyValue AssumptionRegistry.sound_withDefaults hcheck).2

theorem steps (h : Opened e) (calls : List (Instant × Call)) : Steps e (e.afterAll calls) :=
  steps_afterAll h.sound calls

theorem sound_afterAll (h : Opened e) (calls : List (Instant × Call)) :
    (e.afterAll calls).assumptions.Sound :=
  (h.steps calls).sound h.sound

end Opened

end Appraisal.Engine
