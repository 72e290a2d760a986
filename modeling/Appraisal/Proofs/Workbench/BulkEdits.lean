import Appraisal.Proofs.Workbench.Refusals

/-!
# Bulk edits of a workbench

Many values are written at once by an import, by the overrides of a report and by a batch of
updates. The three accept the same values, report the same problems and leave the same values
behind. They take different views of a default: an import does not count it as an override, the
others do.
-/

namespace Appraisal.Workbench

open Engine (Opened Call importProblems importing importAssumptions updateAll)

variable {r : AssumptionRegistry} {e : Engine} {values : List AssumptionValue}

/-- Overrides as they go on in the session. What has been written stays if a later update is
refused. -/
def overriding (now : Instant) (overrides : List AssumptionValue) (e : Engine) :
    Except WorkbenchError Unit × Engine :=
  let problems := importProblems e.assumptions overrides
  if problems.isEmpty then
    ((e.run (updateAll now overrides)).1.mapError .engine, (e.run (updateAll now overrides)).2)
  else (.error (.invalidUpdates problems), e)

/-- Overrides that are described by their result alone are the ones that go on in the session. -/
theorem overridden_eq_overriding (now : Instant) (overrides : List AssumptionValue) (e : Engine) :
    overridden now overrides e =
      (overriding now overrides e).1.map fun _ => (overriding now overrides e).2 := by
  simp only [overridden, overriding]
  split_ifs
  · rcases e.run (updateAll now overrides) with ⟨_ | _, e'⟩ <;> rfl
  · rfl

theorem overriding_of_checked {now : Instant} {e' : Engine}
    (h : importProblems e.assumptions values = [])
    (hrun : e.run (updateAll now values) = (.ok (), e')) :
    overriding now values e = (.ok (), e') := by
  simp only [overriding, h, hrun]
  rfl

theorem overriding_of_not_checked (now : Instant) (h : importProblems e.assumptions values ≠ []) :
    overriding now values e =
      (.error (.invalidUpdates (importProblems e.assumptions values)), e) := by
  rw [overriding, if_neg (by simpa using h)]

theorem overridden_of_checked {now : Instant} {e' : Engine}
    (h : importProblems e.assumptions values = [])
    (hrun : e.run (updateAll now values) = (.ok (), e')) :
    overridden now values e = .ok e' := by
  rw [overridden_eq_overriding, overriding_of_checked h hrun]
  rfl

theorem overridden_of_not_checked (now : Instant) (h : importProblems e.assumptions values ≠ []) :
    overridden now values e =
      .error (.invalidUpdates (importProblems e.assumptions values)) := by
  rw [overridden_eq_overriding, overriding_of_not_checked now h]
  rfl

theorem forall₂_checkedItems (r : AssumptionRegistry) (values : List AssumptionValue) :
    List.Forall₂ (fun v item => item.id = v.id ∧ item.success = r.admits v)
      values (checkedItems r values) := by
  rw [checkedItems, List.forall₂_map_right_iff, List.forall₂_same]
  intro v _
  cases hcheck : r.check v.id v.value with
  | ok => exact ⟨rfl, (AssumptionRegistry.check_eq_ok_iff_admits.1 hcheck).symm⟩
  | error problem => exact ⟨rfl, (AssumptionRegistry.admits_eq_false_of_check hcheck).symm⟩

theorem checkedItems_of_checked (h : importProblems r values = []) :
    checkedItems r values = values.map (⟨·.id, none⟩) := by
  rw [checkedItems]
  apply List.map_congr_left
  intro v hv
  rw [Engine.importProblems_eq_nil_iff.1 h v hv]

theorem batchUpdate_of_checked {m : Moment} {w : Workbench} {e' : Engine}
    (h : importProblems w.engine.assumptions values = [])
    (hrun : w.engine.run (updateAll m.now values) = (.ok (), e')) :
    batchUpdate m values w =
      (.ok ⟨values.length, values.map (⟨·.id, none⟩)⟩, { w with engine := e' }) := by
  simp only [batchUpdate, filterMap_problem_checkedItems]
  rw [if_pos (by simp [h]), hrun, checkedItems_of_checked h]

theorem batchUpdate_of_not_checked (m : Moment) {w : Workbench}
    (h : importProblems w.engine.assumptions values ≠ []) :
    batchUpdate m values w =
      (⟨false, some ⟨0, checkedItems w.engine.assumptions values⟩,
        some (WorkbenchError.rejectedBatch
          (importProblems w.engine.assumptions values)).refusal⟩, w) := by
  simp only [batchUpdate, filterMap_problem_checkedItems]
  rw [if_neg (by simpa using h)]

/-- The three ways to write many values at once. If every value is admitted, nothing fails halfway
and all three leave the last value for each id. Otherwise all three report the values that are not
admitted, in order, and leave the session as it was. -/
theorem bulk_edits_agree {e₀ : Engine} (h₀ : Opened e₀) (calls : List (Instant × Call))
    (m : Moment) (settings : Settings) (store : FormulaStore) (values : List AssumptionValue) :
    let e := e₀.afterAll calls
    let w : Workbench := { settings, engine := e, store }
    let failing := values.filter (!e.assumptions.admits ·)
    (failing = [] → ∃ e₁ e₂ : Engine,
      (importing m.now values e = (.ok (), e₁) ∧ importAssumptions m.now values e = .ok e₁ ∧
        values.foldlM Engine.applyValue e.assumptions = .ok e₁.assumptions) ∧
      (overriding m.now values e = (.ok (), e₂) ∧ overridden m.now values e = .ok e₂ ∧
        e.run (updateAll m.now values) = (.ok (), e₂)) ∧
      batchUpdate m values w =
        (.ok ⟨values.length, values.map (⟨·.id, none⟩)⟩, { w with engine := e₂ }) ∧
      e₁.assumptions = e.assumptions.edited .assigned values ∧
      e₂.assumptions = e.assumptions.edited .override values ∧
      List.Forall₂ Assumption.AgreesWith e₁.assumptions.assumptions e₂.assumptions.assumptions) ∧
    (failing ≠ [] → ∃ problems results,
      List.Forall₂ (fun v problem => e.assumptions.check v.id v.value = .error problem)
        failing problems ∧
      List.Forall₂ (fun v item => item.id = v.id ∧ item.success = e.assumptions.admits v)
        values results ∧
      importing m.now values e = (.error problems, e) ∧
      importAssumptions m.now values e = .error problems ∧
      overriding m.now values e = (.error (.invalidUpdates problems), e) ∧
      overridden m.now values e = .error (.invalidUpdates problems) ∧
      batchUpdate m values w = (⟨false, some ⟨0, results⟩,
        some (WorkbenchError.rejectedBatch problems).refusal⟩, w)) := by
  intro e w failing
  have hr : e.assumptions.Sound := h₀.sound_afterAll calls
  have hfailing : List.Forall₂ _ failing _ := Engine.forall₂_importProblems e.assumptions values
  constructor
  · intro hnone
    have hproblems : importProblems e.assumptions values = [] := by
      rw [hnone] at hfailing
      exact List.forall₂_nil_left_iff.1 hfailing
    have hcheck := Engine.importProblems_eq_nil_iff.1 hproblems
    obtain ⟨e₂, hrun, hassumptions⟩ := Engine.run_updateAll hr m.now hcheck
    have himporting := Engine.importing_of_checked hr m.now hcheck
    have h₁ := Engine.assumptions_imported m.now values e
    have h₂ : e₂.assumptions = e.assumptions.edited .override values :=
      hassumptions.trans
        (e.assumptions.writeAll_eq_edited .override (fun _ _ => rfl) (fun _ _ _ => rfl) values)
    refine ⟨Engine.imported m.now values e, e₂,
      ⟨himporting, ?_, (Engine.foldlM_applyValue hr hcheck).1⟩,
      ⟨overriding_of_checked hproblems hrun, overridden_of_checked hproblems hrun, hrun⟩,
      batchUpdate_of_checked hproblems hrun, h₁, h₂, ?_⟩
    · rw [Engine.importAssumptions_eq_importing, himporting]
      rfl
    · rw [h₁, h₂]
      exact hr.edited_agree values
  · intro hsome
    have hproblems : importProblems e.assumptions values ≠ [] := by
      intro hnil
      rw [hnil, List.forall₂_nil_right_iff] at hfailing
      exact hsome hfailing
    have himporting := Engine.importing_of_not_checked m.now hproblems
    refine ⟨importProblems e.assumptions values, checkedItems e.assumptions values, hfailing,
      forall₂_checkedItems e.assumptions values, himporting, ?_,
      overriding_of_not_checked m.now hproblems, overridden_of_not_checked m.now hproblems,
      batchUpdate_of_not_checked m hproblems⟩
    rw [Engine.importAssumptions_eq_importing, himporting]
    rfl

/-- The last of two values is a default, which the import does not count as an override. With a
value for an unknown id among them, all are refused. -/
theorem bulk_edits_agree_on_default :
    let m : Moment := ⟨⟨1, 0⟩, "1"⟩
    let e := Engine.new ⟨0, 0⟩
    let values : List AssumptionValue := [⟨"adoption_rate", 0.5⟩, ⟨"adoption_rate", 0.85⟩]
    let w : Workbench := { settings := .standard, engine := e, store := .empty .standard }
    Opened e ∧
      (∃ e₁ e₂, importAssumptions m.now values e = .ok e₁ ∧
        overridden m.now values e = .ok e₂ ∧
        e₁.assumptions.overridden = [] ∧ e₂.assumptions.overridden = ["adoption_rate"]) ∧
      (batchUpdate m (values ++ [⟨"unknown", 1⟩]) w).2 = w := by
  intro m e values w
  have h : Opened e := .fresh .standard ⟨0, 0⟩
  obtain ⟨haccepted, -⟩ := bulk_edits_agree h [] m .standard (.empty .standard) values
  obtain ⟨-, hrefused⟩ :=
    bulk_edits_agree h [] m .standard (.empty .standard) (values ++ [⟨"unknown", 1⟩])
  obtain ⟨e₁, e₂, ⟨-, himport, -⟩, ⟨-, hoverridden, -⟩, -, h₁, h₂, -⟩ :=
    haccepted (by decide +kernel)
  obtain ⟨_, _, -, -, -, -, -, -, hbatch⟩ := hrefused (by decide +kernel)
  refine ⟨h, ⟨e₁, e₂, himport, hoverridden, ?_, ?_⟩, congrArg Prod.snd hbatch⟩
  · rw [h₁]
    decide +kernel
  · rw [h₂]
    decide +kernel

end Appraisal.Workbench
