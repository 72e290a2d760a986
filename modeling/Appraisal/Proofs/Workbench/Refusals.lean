import Appraisal.Proofs.CustomFormula.ReadingBack
import Appraisal.Proofs.Engine.BulkEdits
import Appraisal.Workbench.Request

/-!
# Refused requests

A request that is refused leaves the workbench as it was: what is checked is checked before anything
changes, and what has been checked cannot fail halfway. The one exception is the activation of a
version that cannot be read, which has taken place when it is refused.
-/

namespace Appraisal

namespace Engine

variable {α : Type} {e : Engine}

/-- An operation that leaves a session as it was if it is refused. -/
def Op.Atomic (op : Op α) : Prop :=
  ∀ (e : Engine) (problem : EngineError), (e.run op).1 = .error problem → (e.run op).2 = e

theorem atomic_updated (now : Instant) (id : String) (value : Float) :
    Op.Atomic (do updateAssumption now id value; Op.ask (·.assumptions.find id)) := by
  intro e problem h
  rw [run_bind, run_updateAssumption] at h ⊢
  rcases hupdate : e.assumptions.update id value with _ | ⟨previous, assumptions⟩
  · rfl
  · obtain ⟨a, hget, -, -, rfl⟩ := AssumptionRegistry.update_eq_ok_iff.1 hupdate
    have hfind := AssumptionRegistry.find_modify (.override value) (fun _ => rfl) hget
    simp [hupdate, hfind] at h

theorem atomic_reset (now : Instant) (id : String) :
    Op.Atomic (do resetAssumption now id; Op.ask (·.assumptions.find id)) := by
  intro e problem h
  rw [run_bind, run_resetAssumption] at h ⊢
  cases hfind : e.assumptions.find id with
  | error => rfl
  | ok a =>
    have hget := AssumptionRegistry.find_eq_ok_iff.1 hfind
    have hfind' := AssumptionRegistry.find_modify .restored (fun _ => rfl) hget
    simp [hfind, hfind'] at h

theorem traced_updateAll (now : Instant) (updates : List AssumptionValue) :
    (updateAll now updates).Traced := by
  induction updates with
  | nil => exact Op.traced_pure ()
  | cons u us ih => exact (traced_updateAssumption now u.id u.value).bind fun _ => ih

/-- Checked updates are all applied: an update changes no bounds. -/
theorem run_updateAll (he : e.assumptions.Sound) (now : Instant) {updates : List AssumptionValue}
    (h : ∀ u ∈ updates, e.assumptions.check u.id u.value = .ok ()) :
    ∃ e', e.run (updateAll now updates) = (.ok (), e') ∧
      e'.assumptions = e.assumptions.writeAll .override updates := by
  induction updates generalizing e with
  | nil => exact ⟨e, rfl, rfl⟩
  | cons u us ih =>
    obtain ⟨a, hget, hcheck⟩ := AssumptionRegistry.check_eq_ok_iff.1 (h u List.mem_cons_self)
    have hupdate := AssumptionRegistry.update_eq_ok_iff.2 ⟨a, hget, hcheck, rfl, rfl⟩
    have he' := he.override hget hcheck
    rw [updateAll, run_bind, run_updateAssumption, hupdate]
    refine ih he' fun v hv => ?_
    -- Both registries have the bounds of the default one.
    rw [he'.check_eq, ← he.check_eq]
    exact h v (List.mem_cons_of_mem u hv)

end Engine

namespace Workbench

open Engine (Steps Opened)
open FormulaStore (constantDraft)

variable {α : Type} {w w' : Workbench} {m : Moment} {request : Request}

/-- What an answer says of its success and leaves behind. -/
inductive Outcome (w : Workbench) (request : Request) : Bool → Workbench → Prop
  | refused : Outcome w request false w
  | answered {engine : Engine} {store : FormulaStore} (h : Steps w.engine engine ∨ Opened engine) :
      Outcome w request true { w with engine, store }
  | unreadable {id : String} {row : StoredFormula} {problem : StoreError}
      (hrequest : request = .activateCustomFormula id) (hrow : w.store.row? id = some row)
      (hread : row.read = .error problem) :
      Outcome w request false { w with store := { w.store with
        rows := FormulaStore.activated id (FormulaStore.deactivated row.key w.store.rows) } }

/-- An operation that a request may be answered with. -/
def Op.Answers (op : Op α) (request : Request) (w : Workbench) : Prop :=
  Outcome w request (op w).1.success (op w).2

theorem Op.Answers.written {op : Op α} (h : op.Answers request w) (encode : α → Json) :
    (op.written encode).Answers request w :=
  h

theorem answers_ask (read : Workbench → Except WorkbenchError α) :
    (ask read).Answers request w := by
  simp only [Op.Answers, ask]
  cases read w with
  | error => exact .refused
  | ok => exact .answered (.inl .refl)

theorem answers_onEngine {op : Engine.Op α} (hatomic : op.Atomic) (htraced : op.Traced) :
    (onEngine op).Answers request w := by
  have hatomic := hatomic w.engine
  have htraced := htraced w.engine
  simp only [Op.Answers, onEngine]
  rcases hrun : w.engine.run op with ⟨problem | a, engine⟩ <;> rw [hrun] at hatomic htraced
  · obtain rfl : engine = w.engine := hatomic problem rfl
    exact .refused
  · exact .answered (.inl htraced)

theorem refused_onStore {op : FormulaStore.Op α} {problem : StoreError}
    (h : (w.store.run op).1 = .error problem) : (onStore op w).1.success = false := by
  simp only [onStore, h]
  rfl

theorem answers_createCustomFormula (draft : FormulaDraft) :
    (createCustomFormula m draft).Answers request w := by
  simp only [Op.Answers, createCustomFormula, onStore]
  rcases hrun : w.store.run (FormulaStore.create m.freshId m.now draft) with ⟨problem | f, store⟩
  · obtain rfl : store = w.store := by
      rw [← FormulaStore.run_create_of_error (congrArg Prod.fst hrun), hrun]
    exact .refused
  · exact .answered (.inl .refl)

theorem answers_activateCustomFormula (id : String) :
    (activateCustomFormula id).Answers (.activateCustomFormula id) w := by
  simp only [Op.Answers, activateCustomFormula, onStore]
  rcases hrun : w.store.run (FormulaStore.activate id) with ⟨problem | f, store⟩
  · obtain hstore | ⟨row, hrow, hread, hstore⟩ :=
      FormulaStore.run_activate_of_error (congrArg Prod.fst hrun)
    · obtain rfl : store = w.store := by rw [← hstore, hrun]
      exact .refused
    · rw [hrun] at hstore
      obtain rfl : store = _ := hstore
      exact .unreadable rfl hrow hread
  · exact .answered (.inl .refl)

/-- The checks of a batch and those of an import find the same problems. -/
theorem filterMap_problem_checkedItems (r : AssumptionRegistry) (values : List AssumptionValue) :
    (checkedItems r values).filterMap (·.problem) = Engine.importProblems r values := by
  simp only [checkedItems, Engine.importProblems, List.filterMap_map]
  congr 1
  funext v
  simp only [Function.comp_apply]
  cases r.check v.id v.value <;> rfl

theorem problems_checkedItems {r : AssumptionRegistry} {updates : List AssumptionValue} :
    ((checkedItems r updates).filterMap (·.problem)).isEmpty = true ↔
      ∀ u ∈ updates, r.check u.id u.value = .ok () := by
  rw [filterMap_problem_checkedItems, List.isEmpty_iff, Engine.importProblems_eq_nil_iff]

theorem answers_batchUpdate (hw : w.engine.assumptions.Sound) (updates : List AssumptionValue) :
    (batchUpdate m updates).Answers request w := by
  simp only [Op.Answers, batchUpdate]
  split
  next hchecked =>
    obtain ⟨engine, hrun, -⟩ :=
      Engine.run_updateAll hw m.now (problems_checkedItems.1 hchecked)
    have hsteps := Engine.traced_updateAll m.now updates w.engine
    rw [hrun] at hsteps ⊢
    exact .answered (.inl hsteps)
  next => exact .refused

theorem answers_importState (c : Checkpoint) : (importState m c).Answers request w := by
  simp only [Op.Answers, importState]
  cases h : Engine.fromCheckpoint .standard m.now c with
  | error => exact .refused
  | ok engine => exact .answered (.inr (.restored h))

theorem answers_answer (hw : w.engine.assumptions.Sound) (m : Moment) (request : Request) :
    (answer m request).Answers request w := by
  cases request with
  | updateAssumption update =>
    exact (answers_onEngine (Engine.atomic_updated _ _ _)
      ((Engine.traced_updateAssumption _ _ _).bind fun _ => Engine.Op.traced_ask _)).written _
  | batchUpdate updates => exact (answers_batchUpdate hw updates).written _
  | resetAssumption id =>
    exact (answers_onEngine (Engine.atomic_reset _ _)
      ((Engine.traced_resetAssumption _ _).bind fun _ => Engine.Op.traced_ask _)).written _
  | resetAllAssumptions => exact .answered (.inl (Engine.traced_resetAllAssumptions m.now w.engine))
  | importState c => exact (answers_importState c).written _
  | createCustomFormula draft => exact (answers_createCustomFormula draft).written _
  | activateCustomFormula id => exact (answers_activateCustomFormula id).written _
  | _ => exact (answers_ask _).written _

/-- A workbench after any requests. Who shares the browsed engine may call it as well. -/
inductive Reached : Workbench → Prop
  | opened (settings : Settings) (store : FormulaStore) {engine : Engine} (h : Opened engine) :
      Reached { settings, engine, store }
  | shared {w : Workbench} {engine : Engine} (h : Reached w) (hsteps : Steps w.engine engine) :
      Reached { w with engine }
  | answered {w : Workbench} (h : Reached w) (m : Moment) (request : Request) :
      Reached (answer m request w).2

theorem Outcome.sound {success : Bool} (h : Outcome w request success w')
    (hw : w.engine.assumptions.Sound) : w'.engine.assumptions.Sound := by
  cases h with
  | refused => exact hw
  | answered h =>
    rcases h with hsteps | hopened
    · exact hsteps.sound hw
    · exact hopened.sound
  | unreadable => exact hw

theorem Reached.sound (h : Reached w) : w.engine.assumptions.Sound := by
  induction h with
  | opened _ _ h => exact h.sound
  | shared _ hsteps ih => exact hsteps.sound ih
  | answered _ m request ih => exact (answers_answer ih m request).sound ih

/-- A refused request leaves the whole workbench as it was, unless it activates a version whose row
cannot be read. -/
theorem unchanged_of_refused (h : Reached w) (m : Moment) (request : Request)
    (hrefused : (answer m request w).1.success = false) :
    (answer m request w).2 = w ∨ ∃ id row problem, request = .activateCustomFormula id ∧
      w.store.row? id = some row ∧ row.read = .error problem ∧
      (answer m request w).2 = { w with store := { w.store with
        rows := FormulaStore.activated id (FormulaStore.deactivated row.key w.store.rows) } } := by
  have houtcome : Outcome w request _ _ := answers_answer h.sound m request
  rw [hrefused] at houtcome
  generalize (answer m request w).2 = w' at houtcome
  cases houtcome with
  | refused => exact .inl rfl
  | unreadable hrequest hrow hread => exact .inr ⟨_, _, _, hrequest, hrow, hread, rfl⟩

theorem unchanged_of_refused_batch :
    let w := new .standard ⟨0, 0⟩
    let batch := Request.batchUpdate [⟨"analyst_hourly_rate", 120⟩, ⟨"adoption_rate", 2⟩]
    Reached w ∧ (answer ⟨⟨1, 0⟩, "1"⟩ batch w).1.success = false ∧
      (answer ⟨⟨1, 0⟩, "1"⟩ batch w).2 = w := by
  intro w batch
  have hreached : Reached w := .opened _ _ (.fresh .standard ⟨0, 0⟩)
  have hrefused : (answer ⟨⟨1, 0⟩, "1"⟩ batch w).1.success = false := by decide +kernel
  refine ⟨hreached, hrefused, ?_⟩
  obtain h | ⟨_, _, _, hrequest, -⟩ := unchanged_of_refused hreached ⟨⟨1, 0⟩, "1"⟩ batch hrefused
  · exact h
  · simp [batch] at hrequest

/-- The activation of a version with an infinite constant is refused, and takes the place of the
version that was active. -/
theorem changed_by_refused_activation :
    let first := (answer ⟨⟨0, 0⟩, "1"⟩ (.createCustomFormula (constantDraft 1))
      (new .standard ⟨0, 0⟩)).2
    let w := (answer ⟨⟨0, 0⟩, "2"⟩ (.createCustomFormula (constantDraft (1 / 0))) first).2
    let answered := answer ⟨⟨0, 0⟩, "3"⟩ (.activateCustomFormula "2") w
    answered.1.success = false ∧ w.store.rows.map (·.isActive) = [true, false] ∧
      answered.2.store.rows.map (·.isActive) = [false, true] := by
  intro first w answered
  obtain ⟨⟨problem, hproblem⟩, hbefore, hafter⟩ := FormulaStore.switched_of_infinite
  have hrefused : (onStore (FormulaStore.activate "2") w).1.success = false :=
    refused_onStore hproblem
  exact ⟨hrefused, hbefore, hafter⟩

end Workbench

end Appraisal
