import Appraisal.Engine.Opportunity
import Appraisal.Engine.Simulation
import Appraisal.Proofs.Engine.Import

/-!
# Runs of a session

A session is opened on registered formulas or restored from a checkpoint, and then goes through any
sequence of calls, accepted or rejected, each with its own reading of the clock. What the calls do
is broken up into steps that leave one entry in the log each.
-/

namespace Appraisal

/-- An entry of this kind says nothing about the assumptions of the running session. -/
def Audit.Action.isObservation : Audit.Action → Bool
  | evaluateFormula | aggregate | monteCarlo => true
  | _ => false

namespace Engine

section Op

variable {α β : Type} (e : Engine)

theorem run_bind (op : Op α) (f : α → Op β) :
    e.run (op >>= f) = match e.run op with
      | (.ok a, e') => e'.run (f a)
      | (.error problem, e') => (.error problem, e') := by
  simp only [run, bind, ExceptT.bind, ExceptT.mk, ExceptT.run, StateT.run, StateT.bind]
  cases h : op e with
  | mk result e' => cases result <;> rfl

@[simp] theorem run_ask (read : Engine → Except EngineError α) :
    e.run (Op.ask read) = (read e, e) := rfl

@[simp] theorem run_await (computation : Option α) :
    e.run (Op.await computation) = (computation.elim (.error .endless) .ok, e) := rfl

theorem run_edit
    (change : AssumptionRegistry → Except EngineError (α × AssumptionRegistry)) :
    e.run (Op.edit change) = match change e.assumptions with
      | .ok (a, assumptions) => (.ok a, { e with assumptions })
      | .error problem => (.error problem, e) := by
  rw [Op.edit, run_bind, run_ask]
  cases change e.assumptions <;> rfl

end Op

/-- The calls that may change a session. A call that leaves several entries reads the clock once;
with one reading for each entry it is a sequence of evaluations. -/
inductive Call where
  | update (id : String) (value : Float)
  | reset (id : String)
  | resetAll
  | importAll (values : List AssumptionValue)
  | evaluate (formulaId : String) (context : Context)
  | sum (label : String) (terms : List (String × CalculatedValue)) (target : Measure)
  | driverBenefits (raw : RawBenefits)
  | tokenCosts (usage : TokenUsage)
  | priority (inputs : PriorityInputs)
  | monteCarlo (vs : List UncertainVariable) (formulaId : String) (size : Nat) (seed : UInt64)
      (fixed : Context)

/-- The session after a call, accepted or rejected. -/
def after (e : Engine) (now : Instant) : Call → Engine
  | .update id value => (e.run (updateAssumption now id value)).2
  | .reset id => (e.run (resetAssumption now id)).2
  | .resetAll => (e.run (resetAllAssumptions now)).2
  | .importAll values =>
    match importAssumptions now values e with
    | .ok e' => e'
    | .error _ => e
  | .evaluate formulaId context => (e.run (evaluateFormula now formulaId context)).2
  | .sum label terms target => (e.run (sumValues now label terms target)).2
  | .driverBenefits raw => (e.run (driverBenefits now raw)).2
  | .tokenCosts usage => (e.run (tokenCosts now usage)).2
  | .priority inputs => (e.run (priority now inputs)).2
  | .monteCarlo vs formulaId size seed fixed =>
    (e.run (runMonteCarlo now vs formulaId size seed fixed)).2

/-- The session after calls at given readings of the clock. -/
def afterAll (e : Engine) (calls : List (Instant × Call)) : Engine :=
  calls.foldl (fun e call => e.after call.1 call.2) e

/-- A session at its beginning. -/
inductive Opened : Engine → Prop
  | fresh (formulas : FormulaRegistry) (now : Instant) : Opened (withFormulas formulas now)
  | restored {formulas : FormulaRegistry} {c : Checkpoint} {now restoredAt importedAt : Instant}
      {e : Engine} (h : fromCheckpoint formulas now c restoredAt importedAt = .ok e) : Opened e

/-- One change of a session, with the entry that tells it. -/
inductive Step (e : Engine) : Engine → Prop
  | observed (now : Instant) (action : Audit.Action) (details : Json)
      (h : action.isObservation = true) :
      Step e { e with audit := e.audit.record now action details }
  | updated (now : Instant) (id : String) (value : Float) (a : Assumption)
      (hget : e.assumptions.get? id = some a) (hcheck : a.check value = .ok ()) :
      Step e { e with
        assumptions := e.assumptions.modify id (.override value)
        audit := e.audit.record now .updateAssumption (.object
          [("id", .string id), ("previous", .amount a.currentValue), ("value", .amount value)]) }
  | reset (now : Instant) (id : String) (a : Assumption) (hget : e.assumptions.get? id = some a) :
      Step e { e with
        assumptions := e.assumptions.modify id .restored
        audit := e.audit.record now .resetAssumption (.object
          [("id", .string id), ("value", .amount a.defaultValue)]) }
  | resetAll (now : Instant) :
      Step e { e with
        assumptions := e.assumptions.resetAll
        audit := e.audit.record now .resetAllAssumptions (.object
          [("reset", .strings e.assumptions.overridden)]) }
  | imported (now : Instant) (values : List AssumptionValue)
      (hcheck : ∀ v ∈ values, e.assumptions.check v.id v.value = .ok ()) :
      Step e (imported now values e)

abbrev Steps : Engine → Engine → Prop := Relation.ReflTransGen Step

theorem Step.sound {e e' : Engine} (h : Step e e') (hr : e.assumptions.Sound) :
    e'.assumptions.Sound := by
  cases h with
  | observed => exact hr
  | updated _ _ _ _ hget hcheck => exact hr.override hget hcheck
  | reset _ id => exact hr.reset id
  | resetAll =>
    rw [show e.assumptions.resetAll = .withDefaults from hr.resetAll_eq]
    exact AssumptionRegistry.sound_withDefaults
  | imported _ _ hcheck => exact (foldlM_applyValue hr hcheck).2

theorem Steps.sound {e e' : Engine} (h : Steps e e') (hr : e.assumptions.Sound) :
    e'.assumptions.Sound := by
  induction h with
  | refl => exact hr
  | tail _ hstep ih => exact hstep.sound ih

theorem Step.prefix_entries {e e' : Engine} (h : Step e e') :
    e.audit.entries <+: e'.audit.entries := by
  cases h <;> exact List.prefix_append _ _

theorem Steps.prefix_entries {e e' : Engine} (h : Steps e e') :
    e.audit.entries <+: e'.audit.entries := by
  induction h with
  | refl => exact List.prefix_rfl
  | tail _ hstep ih => exact ih.trans hstep.prefix_entries

theorem Step.formulas_eq {e e' : Engine} (h : Step e e') : e'.formulas = e.formulas := by
  cases h <;> rfl

theorem Steps.formulas_eq {e e' : Engine} (h : Steps e e') : e'.formulas = e.formulas := by
  induction h with
  | refl => rfl
  | tail _ hstep ih => exact hstep.formulas_eq.trans ih

/-- One entry about what was calculated in a session. -/
inductive Observation (e : Engine) : Engine → Prop
  | recorded (now : Instant) (action : Audit.Action) (details : Json)
      (h : action.isObservation = true) :
      Observation e { e with audit := e.audit.record now action details }

abbrev Observations : Engine → Engine → Prop := Relation.ReflTransGen Observation

theorem Observation.step {e e' : Engine} (h : Observation e e') : Step e e' := by
  cases h with
  | recorded now action details h => exact .observed now action details h

/-- Nothing but the log tells that a session was observed. -/
theorem Observations.frame {e e' : Engine} (h : Observations e e') :
    e'.formulas = e.formulas ∧ e'.assumptions = e.assumptions := by
  induction h with
  | refl => exact ⟨rfl, rfl⟩
  | tail _ hstep ih => cases hstep; exact ih

/-- An operation that only reads a session and tells so in its log, also if it is refused. -/
def Op.Observes {α : Type} (op : Op α) : Prop :=
  ∀ e : Engine, Observations e (e.run op).2

namespace Op

variable {α β : Type} {op : Op α}

theorem observes_pure (a : α) : Observes (pure a) :=
  fun _ => .refl

theorem observes_mk (result : Except EngineError α) : Observes (ExceptT.mk (pure result)) :=
  fun _ => .refl

theorem observes_ask (read : Engine → Except EngineError α) : Observes (ask read) :=
  fun _ => .refl

theorem observes_record (now : Instant) (details : List (String × Json)) {action : Audit.Action}
    (h : action.isObservation = true) : Observes (record now action details) :=
  fun _ => .single (.recorded now action _ h)

theorem Observes.bind {f : α → Op β} (hop : op.Observes) (hf : ∀ a, (f a).Observes) :
    (op >>= f).Observes := by
  intro e
  have he := hop e
  rw [run_bind]
  rcases h : e.run op with ⟨_ | a, e'⟩ <;> rw [h] at he
  · exact he
  · exact he.trans (hf a e')

end Op

theorem observes_evaluateFormula (now : Instant) (id : String) (context : Context) :
    (evaluateFormula now id context).Observes :=
  (Op.observes_ask _).bind fun _ => (Op.observes_record now _ rfl).bind fun _ => Op.observes_pure _

/-- Flawed or not, a value tells its formula, its inputs and its unit. -/
theorem origin_valueOf (now : Instant) (f : Formula) (full : Context) :
    (valueOf now f full).formulaId = f.id ∧ (valueOf now f full).formulaVersion = f.version ∧
      (valueOf now f full).inputs = f.inputs full ∧ (valueOf now f full).unit = f.outputUnit := by
  rw [valueOf]
  split_ifs <;> exact ⟨rfl, rfl, rfl, rfl⟩

theorem run_evaluateFormula {e : Engine} {id : String} {f : Formula}
    (h : e.formulas.get? id = some f) (now : Instant) (context : Context) :
    let v := valueOf now f (e.callContext context)
    e.run (evaluateFormula now id context) = (.ok v, { e with
      audit := e.audit.record now .evaluateFormula (.object
        [("formulaId", .string v.formulaId), ("version", .string v.formulaVersion),
         ("value", .amount v.value), ("error", .optional (.string ·.message) v.flaw)]) }) := by
  have hformula : e.formula id = .ok f := by rw [formula, h]
  rw [evaluateFormula, run_bind, run_ask, hformula]
  rfl

theorem observes_sumValues (now : Instant) (label : String)
    (terms : List (String × CalculatedValue)) (target : Measure) :
    (sumValues now label terms target).Observes :=
  (Op.observes_ask _).bind fun _ => (Op.observes_record now _ rfl).bind fun _ => Op.observes_pure _

theorem observes_driverBenefit (now : Instant) (base : Float) (factorId : String)
    (maturity : Float) : (driverBenefit now base factorId maturity).Observes :=
  (Op.observes_ask _).bind fun _ => observes_evaluateFormula now _ _

theorem observes_driverBenefits (now : Instant) (raw : RawBenefits) :
    (driverBenefits now raw).Observes := by
  refine (Op.observes_ask _).bind fun _ => ?_
  refine (observes_driverBenefit now _ _ _).bind fun _ => ?_
  refine (observes_driverBenefit now _ _ _).bind fun _ => ?_
  refine (observes_driverBenefit now _ _ _).bind fun _ => ?_
  refine (observes_driverBenefit now _ _ _).bind fun _ => ?_
  exact (observes_evaluateFormula now _ _).bind fun _ => Op.observes_pure _

theorem observes_tokenCosts (now : Instant) (usage : TokenUsage) :
    (tokenCosts now usage).Observes := by
  refine (Op.observes_ask _).bind fun _ => (Op.observes_ask _).bind fun _ => ?_
  refine (observes_evaluateFormula now _ _).bind fun _ => ?_
  exact (observes_evaluateFormula now _ _).bind fun _ => Op.observes_pure _

theorem observes_priority (now : Instant) (inputs : PriorityInputs) :
    (priority now inputs).Observes := by
  refine (observes_evaluateFormula now _ _).bind fun _ => ?_
  refine (observes_evaluateFormula now _ _).bind fun _ => ?_
  refine (Op.observes_ask _).bind fun _ => (Op.observes_ask _).bind fun _ => ?_
  refine (Op.observes_ask _).bind fun _ => ?_
  exact (observes_evaluateFormula now _ _).bind fun _ => Op.observes_pure _

theorem observes_runMonteCarlo (now : Instant) (vs : List UncertainVariable) (formulaId : String)
    (size : Nat) (seed : UInt64) (fixed : Context) :
    (runMonteCarlo now vs formulaId size seed fixed).Observes :=
  (Op.observes_ask _).bind fun _ => (Op.observes_ask _).bind fun _ =>
    (Op.observes_record now _ rfl).bind fun _ => Op.observes_mk _

/-- An operation that changes a session in steps only, also if it is refused. -/
def Op.Traced {α : Type} (op : Op α) : Prop :=
  ∀ e : Engine, Steps e (e.run op).2

namespace Op

variable {α β : Type}

theorem Observes.traced {op : Op α} (h : op.Observes) : op.Traced :=
  fun e => Relation.ReflTransGen.mono (fun _ _ hstep => hstep.step) _ _ (h e)

theorem traced_pure (a : α) : Traced (pure a) :=
  (observes_pure a).traced

theorem traced_ask (read : Engine → Except EngineError α) : Traced (ask read) :=
  (observes_ask read).traced

theorem Traced.bind {op : Op α} {f : α → Op β} (hop : op.Traced) (hf : ∀ a, (f a).Traced) :
    (op >>= f).Traced := by
  intro e
  have he := hop e
  rw [run_bind]
  rcases h : e.run op with ⟨_ | a, e'⟩ <;> rw [h] at he
  · exact he
  · exact he.trans (hf a e')

end Op

theorem run_updateAssumption (e : Engine) (now : Instant) (id : String) (value : Float) :
    e.run (updateAssumption now id value) = match e.assumptions.update id value with
      | .ok (previous, assumptions) => (.ok (), { e with
          assumptions
          audit := e.audit.record now .updateAssumption (.object
            [("id", .string id), ("previous", .amount previous), ("value", .amount value)]) })
      | .error problem => (.error problem, e) := by
  rw [updateAssumption, run_bind, run_edit]
  cases e.assumptions.update id value <;> rfl

theorem traced_updateAssumption (now : Instant) (id : String) (value : Float) :
    (updateAssumption now id value).Traced := by
  intro e
  rw [run_updateAssumption]
  rcases h : e.assumptions.update id value with _ | ⟨previous, assumptions⟩
  · exact .refl
  · obtain ⟨a, hget, hcheck, rfl, rfl⟩ := AssumptionRegistry.update_eq_ok_iff.1 h
    exact .single (.updated now id value a hget hcheck)

theorem value_modify_restored {r : AssumptionRegistry} {id : String} {a : Assumption}
    (hget : r.get? id = some a) : (r.modify id .restored).value id = .ok a.defaultValue := by
  have h : (r.modify id .restored).get? id = some a.restored := by
    rw [AssumptionRegistry.get?_modify r id id .restored (fun _ => rfl), if_pos rfl, hget]
    rfl
  rw [AssumptionRegistry.value, AssumptionRegistry.find_eq_ok_iff.2 h]
  rfl

theorem run_resetAssumption (e : Engine) (now : Instant) (id : String) :
    e.run (resetAssumption now id) = match e.assumptions.find id with
      | .ok a => (.ok (), { e with
          assumptions := e.assumptions.modify id .restored
          audit := e.audit.record now .resetAssumption (.object
            [("id", .string id), ("value", .amount a.defaultValue)]) })
      | .error problem => (.error problem, e) := by
  rw [resetAssumption, run_bind, run_edit, AssumptionRegistry.reset]
  cases h : e.assumptions.find id with
  | error => rfl
  | ok a =>
    have hvalue := value_modify_restored (AssumptionRegistry.find_eq_ok_iff.1 h)
    change run _ (Op.ask _ >>= _) = _
    simp only [run_bind, run_ask, hvalue]
    rfl

theorem traced_resetAssumption (now : Instant) (id : String) :
    (resetAssumption now id).Traced := by
  intro e
  rw [run_resetAssumption]
  cases h : e.assumptions.find id with
  | error => exact .refl
  | ok a => exact .single (.reset now id a (AssumptionRegistry.find_eq_ok_iff.1 h))

theorem run_resetAllAssumptions (e : Engine) (now : Instant) :
    e.run (resetAllAssumptions now) = (.ok (), { e with
      assumptions := e.assumptions.resetAll
      audit := e.audit.record now .resetAllAssumptions (.object
        [("reset", .strings e.assumptions.overridden)]) }) := rfl

theorem traced_resetAllAssumptions (now : Instant) : (resetAllAssumptions now).Traced :=
  fun _ => .single (.resetAll now)

theorem steps_after {e : Engine} (hr : e.assumptions.Sound) (now : Instant) (call : Call) :
    Steps e (e.after now call) := by
  cases call with
  | update id value => exact traced_updateAssumption now id value e
  | reset id => exact traced_resetAssumption now id e
  | resetAll => exact traced_resetAllAssumptions now e
  | importAll values =>
    simp only [after]
    split
    · next h =>
      obtain ⟨hcheck, rfl⟩ := (importAssumptions_eq_ok_iff hr).1 h
      exact .single (.imported now values hcheck)
    · exact .refl
  | evaluate formulaId context => exact (observes_evaluateFormula now formulaId context).traced e
  | sum label terms target => exact (observes_sumValues now label terms target).traced e
  | driverBenefits raw => exact (observes_driverBenefits now raw).traced e
  | tokenCosts usage => exact (observes_tokenCosts now usage).traced e
  | priority inputs => exact (observes_priority now inputs).traced e
  | monteCarlo vs formulaId size seed fixed =>
    exact (observes_runMonteCarlo now vs formulaId size seed fixed).traced e

theorem steps_afterAll {e : Engine} (hr : e.assumptions.Sound) (calls : List (Instant × Call)) :
    Steps e (e.afterAll calls) := by
  induction calls generalizing e with
  | nil => exact .refl
  | cons call calls ih =>
    have h := steps_after hr call.1 call.2
    exact h.trans (ih (h.sound hr))

end Engine

end Appraisal
