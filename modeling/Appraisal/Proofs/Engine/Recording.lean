import Appraisal.Proofs.Audit.Order
import Appraisal.Proofs.Engine.BulkEdits
import Appraisal.Proofs.Except

/-!
# Entries of calls

A call that edits the assumptions, evaluates a formula, sums up values or runs a simulation leaves
one entry in the log if it is answered. If it is refused it leaves nothing, but for a run of which
no sample is valid: that is recorded and then refused. The error of such a run is an internal one,
and the refusals before anything was done never are. A run that does not end leaves nothing, either.
-/

namespace Appraisal

/-- A refusal, if there is one, lies with what was asked for. -/
def NeverInternal {α : Type} (x : Except EngineError α) : Prop :=
  ∀ problem, x = .error problem → problem.kind ≠ .internal

namespace NeverInternal

variable {α β : Type}

theorem ok (a : α) : NeverInternal (.ok a) :=
  nofun

theorem invalid {problem : EngineError} (h : problem.kind = .validation) :
    NeverInternal (.error problem : Except EngineError α) := by
  rintro _ ⟨⟩
  rw [h]
  decide

theorem notFound {problem : EngineError} (h : problem.kind = .notFound) :
    NeverInternal (.error problem : Except EngineError α) := by
  rintro _ ⟨⟩
  rw [h]
  decide

theorem bind {x : Except EngineError α} {f : α → Except EngineError β} (hx : NeverInternal x)
    (hf : ∀ a, NeverInternal (f a)) : NeverInternal (x >>= f) := by
  intro problem h
  obtain h | ⟨a, -, h⟩ := bind_eq_error_iff.1 h
  · exact hx problem h
  · exact hf a problem h

end NeverInternal

theorem Assumption.neverInternal_check (a : Assumption) (value : Float) :
    NeverInternal (a.check value) := by
  rw [check]
  split_ifs
  · exact .invalid rfl
  · exact .invalid rfl
  · exact .invalid rfl
  · exact .ok ()

namespace AssumptionRegistry

variable (r : AssumptionRegistry) (id : String) (value : Float)

theorem neverInternal_find : NeverInternal (r.find id) := by
  rw [find]
  cases r.get? id with
  | none => exact .notFound rfl
  | some a => exact .ok a

theorem neverInternal_check : NeverInternal (r.check id value) :=
  (r.neverInternal_find id).bind fun a => a.neverInternal_check value

theorem neverInternal_update : NeverInternal (r.update id value) :=
  (r.neverInternal_find id).bind fun a => (a.neverInternal_check value).bind fun _ => .ok _

end AssumptionRegistry

theorem Measure.neverInternal_convert (x : Float) (source target : Measure) :
    NeverInternal (convert x source target) := by
  rw [convert, checkCompatible]
  split_ifs
  · exact .ok _
  · exact .invalid rfl

theorem UncertainVariable.neverInternal_validate (v : UncertainVariable) :
    NeverInternal v.validate := by
  rw [validate]
  split_ifs
  · exact .invalid rfl
  · exact .invalid rfl
  · exact .ok ()

namespace Engine

theorem neverInternal_formula (e : Engine) (id : String) : NeverInternal (e.formula id) := by
  rw [formula]
  cases e.formulas.get? id with
  | none => exact .notFound rfl
  | some f => exact .ok f

theorem neverInternal_sumOf (now : Instant) (terms : List (String × CalculatedValue))
    (target : Measure) : NeverInternal (sumOf now terms target) := by
  have hterms : NeverInternal (convertTerms target terms) := by
    induction terms with
    | nil => exact .ok []
    | cons t terms ih =>
      exact (Measure.neverInternal_convert t.2.value t.2.unit target).bind fun _ =>
        ih.bind fun _ => .ok _
  refine hterms.bind fun converted => ?_
  cases terms.find? (!·.2.isOk) with
  | none => exact .ok _
  | some t => exact .ok _

theorem neverInternal_firstInvalid (vs : List UncertainVariable) :
    NeverInternal (firstInvalid vs) := by
  induction vs with
  | nil => exact .ok ()
  | cons v vs ih => exact v.neverInternal_validate.bind fun _ => ih

theorem neverInternal_importProblems {r : AssumptionRegistry} {values : List AssumptionValue} :
    ∀ problem ∈ importProblems r values, problem.kind ≠ .internal := by
  intro problem h
  obtain ⟨v, -, hv⟩ := List.mem_filterMap.1 h
  cases hcheck : r.check v.id v.value with
  | ok => simp [hcheck] at hv
  | error =>
    obtain rfl : _ = problem := by simpa [hcheck] using hv
    exact r.neverInternal_check v.id v.value _ hcheck

/-- Whether an operation is refused, and the session after it. -/
def verdict {α : Type} (e : Engine) (op : Op α) : Except (List EngineError) Unit × Engine :=
  (((e.run op).1.map fun _ => ()).mapError ([·]), (e.run op).2)

/-- Whether a call is refused, and the session after it. -/
def perform (e : Engine) (now : Instant) : Call → Except (List EngineError) Unit × Engine
  | .update id value => e.verdict (updateAssumption now id value)
  | .reset id => e.verdict (resetAssumption now id)
  | .resetAll => e.verdict (resetAllAssumptions now)
  | .importAll values => importing now values e
  | .evaluate formulaId context => e.verdict (evaluateFormula now formulaId context)
  | .sum label terms target => e.verdict (sumValues now label terms target)
  | .driverBenefits raw => e.verdict (driverBenefits now raw)
  | .tokenCosts usage => e.verdict (tokenCosts now usage)
  | .priority inputs => e.verdict (priority now inputs)
  | .monteCarlo vs formulaId size seed fixed =>
    e.verdict (runMonteCarlo now vs formulaId size seed fixed)

variable {e : Engine}

theorem snd_perform (hr : e.assumptions.Sound) (now : Instant) (call : Call) :
    (e.perform now call).2 = e.after now call := by
  cases call with
  | importAll values =>
    simp only [perform, after, importAssumptions_eq_importing]
    by_cases h : importProblems e.assumptions values = []
    · rw [importing_of_checked hr now (importProblems_eq_nil_iff.1 h)]
      rfl
    · rw [importing_of_not_checked now h]
      rfl
  | _ => rfl

/-- The action of the one entry that a call leaves, for a call that leaves one. -/
def Call.action? : Call → Option Audit.Action
  | .update .. => some .updateAssumption
  | .reset .. => some .resetAssumption
  | .resetAll => some .resetAllAssumptions
  | .importAll .. => some .importAssumptions
  | .evaluate .. => some .evaluateFormula
  | .sum .. => some .aggregate
  | .monteCarlo .. => some .monteCarlo
  | .driverBenefits .. | .tokenCosts .. | .priority .. => none

/-- An action is recorded and answered, or refused before anything was done. A simulation may also
be recorded and then refused, or go on without end before it is recorded. -/
inductive Recorded (action : Audit.Action) (e : Engine) :
    Except (List EngineError) Unit × Engine → Prop
  | answered (now : Instant) (assumptions : AssumptionRegistry) (details : Json)
      (h : action.isObservation = true → assumptions = e.assumptions) :
      Recorded action e (.ok (), { e with
        assumptions, audit := e.audit.record now action details })
  | refused (problems : List EngineError) (h : ∀ problem ∈ problems, problem.kind ≠ .internal) :
      Recorded action e (.error problems, e)
  | failed (now : Instant) (details : Json) (n : Nat) (h : action = .monteCarlo) :
      Recorded action e (.error [.noValidSamples n], { e with
        audit := e.audit.record now action details })
  | endless (h : action = .monteCarlo) : Recorded action e (.error [.endless], e)

theorem Recorded.refused_one {action : Audit.Action} {problem : EngineError}
    (h : problem.kind ≠ .internal) : Recorded action e (.error [problem], e) :=
  .refused _ (List.forall_mem_singleton.2 h)

/-- What is read off the session first may be refused, without a trace. -/
theorem recorded_ask {α β : Type} {action : Audit.Action} {read : Engine → Except EngineError α}
    {op : α → Op β} (hread : NeverInternal (read e))
    (hop : ∀ a, Recorded action e (e.verdict (op a))) :
    Recorded action e (e.verdict (Op.ask read >>= op)) := by
  rw [verdict, run_bind, run_ask]
  cases h : read e with
  | error problem => exact .refused_one (hread problem h)
  | ok a => exact hop a

theorem recorded_evaluateFormula (now : Instant) (id : String) (context : Context) :
    Recorded .evaluateFormula e (e.verdict (evaluateFormula now id context)) :=
  recorded_ask ((e.neverInternal_formula id).bind fun _ => .ok _) fun _ =>
    .answered now e.assumptions _ fun _ => rfl

theorem recorded_sumValues (now : Instant) (label : String)
    (terms : List (String × CalculatedValue)) (target : Measure) :
    Recorded .aggregate e (e.verdict (sumValues now label terms target)) :=
  recorded_ask (neverInternal_sumOf now terms target) fun _ =>
    .answered now e.assumptions _ fun _ => rfl

/-- A run of which no sample is valid is the only one that is refused after it was recorded. -/
theorem recorded_runMonteCarlo (now : Instant) (vs : List UncertainVariable) (formulaId : String)
    (size : Nat) (seed : UInt64) (fixed : Context) :
    Recorded .monteCarlo e (e.verdict (runMonteCarlo now vs formulaId size seed fixed)) := by
  refine recorded_ask ?_ fun ⟨f, base⟩ => ?_
  · split_ifs
    · exact .invalid rfl
    · exact (neverInternal_firstInvalid vs).bind fun _ =>
        (e.neverInternal_formula formulaId).bind fun _ => .ok _
  · rw [verdict, run_bind, run_await]
    cases outputs? f base vs size seed with
    | none => exact .endless rfl
    | some values =>
      -- The entry is left before the summary decides on the answer.
      simp only [Option.elim, Simulation.summarize]
      split_ifs
      · exact .failed now _ _ rfl
      · exact .answered now e.assumptions _ fun _ => rfl

theorem recorded_perform (now : Instant) {call : Call} {action : Audit.Action}
    (hr : e.assumptions.Sound) (h : call.action? = some action) :
    Recorded action e (e.perform now call) := by
  cases call with
  | update id value =>
    cases h
    rw [perform, verdict, run_updateAssumption]
    rcases hupdate : e.assumptions.update id value with problem | ⟨previous, assumptions⟩
    · exact .refused_one (e.assumptions.neverInternal_update id value problem hupdate)
    · exact .answered now assumptions _ nofun
  | reset id =>
    cases h
    rw [perform, verdict, run_resetAssumption]
    cases hfind : e.assumptions.find id with
    | error problem => exact .refused_one (e.assumptions.neverInternal_find id problem hfind)
    | ok a => exact .answered now _ _ nofun
  | resetAll =>
    cases h
    exact .answered now e.assumptions.resetAll _ nofun
  | importAll values =>
    cases h
    rw [perform]
    by_cases hproblems : importProblems e.assumptions values = []
    · rw [importing_of_checked hr now (importProblems_eq_nil_iff.1 hproblems)]
      exact .answered now (e.assumptions.assignAll values) _ nofun
    · rw [importing_of_not_checked now hproblems]
      exact .refused _ neverInternal_importProblems
  | evaluate formulaId context =>
    cases h
    exact recorded_evaluateFormula now formulaId context
  | sum label terms target =>
    cases h
    exact recorded_sumValues now label terms target
  | monteCarlo vs formulaId size seed fixed =>
    cases h
    exact recorded_runMonteCarlo now vs formulaId size seed fixed
  | driverBenefits | tokenCosts | priority => cases h

theorem entries_record (l : Audit.Log) (now : Instant) (action : Audit.Action) (details : Json) :
    ∃ entry, entry.action = action ∧ l.record now action details = ⟨l.entries ++ [entry]⟩ :=
  ⟨l.next now action details, l.next_action now action details, rfl⟩

/-- A call that is answered leaves one entry of its own action behind the ones before it, and one
that is refused leaves the session as it was. Only a simulation without a valid sample is refused
with an entry. Evaluations, sums and simulations change no assumption, and nothing changes the
formulas. -/
theorem one_entry_of_call {e₀ : Engine} (h₀ : Opened e₀) (calls : List (Instant × Call))
    (now : Instant) (call : Call) {action : Audit.Action} (hcall : call.action? = some action) :
    let e := e₀.afterAll calls
    let e' := e.after now call
    ∃ result, e.perform now call = (result, e') ∧ e'.formulas = e.formulas ∧
      (action.isObservation = true → e'.assumptions = e.assumptions) ∧
      (result = .ok () → ∃ entry : Audit.Entry, entry.action = action ∧
        e'.audit.entries = e.audit.entries ++ [entry]) ∧
      ∀ problems, result = .error problems →
        (∀ failed, problems ≠ [.noValidSamples failed]) ∧ e' = e ∨
        ∃ failed, ∃ entry : Audit.Entry, problems = [.noValidSamples failed] ∧
          action = .monteCarlo ∧ entry.action = .monteCarlo ∧
          e' = { e with audit := ⟨e.audit.entries ++ [entry]⟩ } := by
  intro e e'
  have hr : e.assumptions.Sound := h₀.sound_afterAll calls
  have hformulas : e'.formulas = e.formulas := (steps_after hr now call).formulas_eq
  have hperform : e.perform now call = ((e.perform now call).1, e') :=
    Prod.ext rfl (snd_perform hr now call)
  have hrecorded := recorded_perform now hr hcall
  refine ⟨_, hperform, hformulas, ?_⟩
  rw [hperform] at hrecorded
  clear_value e'
  generalize (e.perform now call).1 = result at hrecorded
  cases hrecorded with
  | answered now assumptions details h =>
    obtain ⟨entry, haction, hrecord⟩ := entries_record e.audit now action details
    exact ⟨h, fun _ => ⟨entry, haction, congrArg Audit.Log.entries hrecord⟩, nofun⟩
  | refused problems h =>
    refine ⟨fun _ => rfl, nofun, ?_⟩
    rintro _ ⟨⟩
    refine .inl ⟨?_, rfl⟩
    rintro failed rfl
    exact h _ (List.mem_singleton_self _) rfl
  | endless =>
    refine ⟨fun _ => rfl, nofun, ?_⟩
    rintro _ ⟨⟩
    exact .inl ⟨nofun, rfl⟩
  | failed now details failed h =>
    subst h
    obtain ⟨entry, haction, hrecord⟩ := entries_record e.audit now .monteCarlo details
    refine ⟨fun _ => rfl, nofun, ?_⟩
    rintro _ ⟨⟩
    exact .inr ⟨failed, entry, rfl, rfl, haction, by rw [hrecord]⟩

/-- A simulation over a formula whose variables are missing has no valid sample. -/
theorem one_entry_of_failed_simulation :
    let e := new ⟨0, 0⟩
    let call : Call := .monteCarlo [] "payback_period" 1 0 .empty
    Opened e ∧ call.action? = some .monteCarlo ∧
      ∃ failed, ∃ entry : Audit.Entry, entry.action = .monteCarlo ∧
        e.perform ⟨1, 0⟩ call = (.error [.noValidSamples failed],
          { e with audit := ⟨e.audit.entries ++ [entry]⟩ }) := by
  intro e call
  have h : Opened e := .fresh .standard ⟨0, 0⟩
  have hrefused : (e.perform ⟨1, 0⟩ call).1.isOk = false := by decide +kernel
  have hsize : (e.after ⟨1, 0⟩ call).audit.size ≠ e.audit.size := by decide +kernel
  obtain ⟨result, hperform, -, -, -, herror⟩ := one_entry_of_call h [] ⟨1, 0⟩ call rfl
  change e.perform ⟨1, 0⟩ call = _ at hperform
  rw [hperform] at hrefused
  cases result with
  | ok => cases hrefused
  | error problems =>
    obtain ⟨-, hafter⟩ | ⟨failed, entry, rfl, -, haction, hafter⟩ := herror problems rfl
    · exact absurd (congrArg (·.audit.size) hafter) hsize
    · exact ⟨h, rfl, failed, entry, haction, hperform.trans (congrArg (Prod.mk _) hafter)⟩

end Engine

end Appraisal
