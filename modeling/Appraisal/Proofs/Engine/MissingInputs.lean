import Appraisal.Proofs.Engine.Recomputation
import Appraisal.Proofs.Engine.Simulation
import Appraisal.Proofs.Formula.Strictness

/-!
# Calls without an input

An evaluation looks for missing variables before it computes, but an undefined number passes for a
value. A simulation does not look for them at all: it relies on the formula to be undefined without
them, so that no sample is valid. All standard formulas but one are. Before that it draws, and does
not come to an end if the draws do not.
-/

namespace Appraisal

open Engine (runMonteCarlo evaluateFormula columnDraws?)

/-- No result comes from a context that lacks a variable: no finite number, no evaluation without a
flaw and no summary of a simulation, which has no valid sample if its draws end. An evaluation lists
the variable if it is absent. -/
structure Formula.Strict (f : Formula) : Prop where
  evaluate : ∀ c, f.LacksInput c → (f.evaluate c).isFinite = false
  evaluation : ∀ (e : Engine) (now : Instant) (context : Context) (v : CalculatedValue),
    e.formulas.get? f.id = some f → f.LacksInput (e.callContext context) →
    (e.run (evaluateFormula now f.id context)).1 = .ok v → v.flaw ≠ none
  simulation : ∀ (e : Engine) (now : Instant) (vs : List UncertainVariable) (size : Nat)
    (seed : UInt64) (fixed : Context), e.formulas.get? f.id = some f → size ≠ 0 →
    (∀ v ∈ vs, v.validate = .ok ()) → ∀ name ∈ f.requiredVariables,
    name ∉ e.assumptions.formulaContext → name ∉ fixed → name ∉ vs.map (·.id) →
    (∀ columns, columnDraws? vs size seed = some columns →
      (e.run (runMonteCarlo now vs f.id size seed fixed)).1 = .error (.noValidSamples size)) ∧
    (columnDraws? vs size seed = none →
      (e.run (runMonteCarlo now vs f.id size seed fixed)).1 = .error .endless) ∧
    ∃ v names, (e.run (evaluateFormula now f.id fixed)).1 = .ok v ∧
      v.flaw = some (.missingVariables names) ∧ name ∈ names

namespace Engine

variable {e : Engine} {f : Formula} {vs : List UncertainVariable} {size : Nat} {seed : UInt64}
  {fixed : Context} {name : String} {columns : List (String × List Float)}

theorem get?_callContext_of_notMem (hassumptions : name ∉ e.assumptions.formulaContext)
    (hfixed : name ∉ fixed) : (e.callContext fixed).get? name = none := by
  rw [Context.mem_iff_isSome_get?, Option.not_isSome_iff_eq_none] at hassumptions hfixed
  rw [callContext, Context.get?_overlay, hassumptions, hfixed]
  rfl

/-- A variable that is neither drawn nor given in another way is in no sample. -/
theorem get?_sampled_of_notMem (hassumptions : name ∉ e.assumptions.formulaContext)
    (hfixed : name ∉ fixed) (hcolumns : name ∉ columns.map (·.1)) (i : Nat) :
    (e.sampled fixed columns i).get? name = none := by
  have hdraws : (placeOf columns i).reverse.lookup name = none := by
    apply lookup_eq_none_of_notMem
    rwa [List.map_reverse, List.mem_reverse, map_fst_placeOf]
  have hcall := get?_callContext_of_notMem hassumptions hfixed
  rw [callContext, Context.get?_overlay] at hcall
  rw [get?_sampled, hdraws, Option.none_or, hcall]

theorem flaw_valueOf_ne_none {full : Context} (h : (f.evaluate full).isFinite = false)
    (now : Instant) : (valueOf now f full).flaw ≠ none := by
  rw [Ne, flaw_valueOf_eq_none_iff, h]
  exact fun hflaw => Bool.false_ne_true hflaw.2

/-- An evaluation without a required variable lists it. -/
theorem lists_missing (hf : e.formulas.get? f.id = some f) (hname : name ∈ f.requiredVariables)
    (hassumptions : name ∉ e.assumptions.formulaContext) (hfixed : name ∉ fixed) (now : Instant) :
    ∃ v names, (e.run (evaluateFormula now f.id fixed)).1 = .ok v ∧
      v.flaw = some (.missingVariables names) ∧ name ∈ names := by
  have habsent : name ∉ e.callContext fixed := by
    rw [Context.mem_iff_isSome_get?, get?_callContext_of_notMem hassumptions hfixed]
    exact Bool.false_ne_true
  have hmissing : name ∈ f.missingVariables (e.callContext fixed) :=
    Formula.mem_missingVariables_iff.2 ⟨hname, habsent⟩
  refine ⟨valueOf now f (e.callContext fixed), f.missingVariables (e.callContext fixed), ?_, ?_,
    hmissing⟩
  · rw [run_evaluateFormula hf]
  · exact flaw_valueOf_eq_missing_iff.2 ⟨List.ne_nil_of_mem hmissing, rfl⟩

end Engine

namespace Formula

open Engine (run_evaluateFormula run_runMonteCarlo_of_ok run_runMonteCarlo_of_error
  checkedOutputs_of_known)

variable {f : Formula}

/-- The rest follows from the numbers alone. -/
theorem strict_of_evaluate (h : ∀ c, f.LacksInput c → (f.evaluate c).isFinite = false) :
    f.Strict where
  evaluate := h
  evaluation := by
    intro e now context v hf hlacks hv
    rw [run_evaluateFormula hf] at hv
    cases hv
    exact Engine.flaw_valueOf_ne_none (h _ hlacks) now
  simulation := by
    intro e now vs size seed fixed hf hsize hvs name hname hassumptions hfixed hdrawn
    have hread := checkedOutputs_of_known hsize hvs hf seed fixed
    refine ⟨fun columns hcolumns => ?_, fun hnone => ?_,
      Engine.lists_missing hf hname hassumptions hfixed now⟩
    · have hnames : name ∉ columns.map (·.1) := by
        rwa [(Engine.isTable_of_columnDraws? hcolumns).ids]
      have houtputs : ∀ x ∈ e.sampledOutputs f fixed columns size, x.isFinite = false := by
        intro x hx
        obtain ⟨i, -, rfl⟩ := List.mem_map.1 hx
        have hlacks : (e.sampled fixed columns i).Lacks name :=
          Context.lacks_of_get?_eq_none
            (Engine.get?_sampled_of_notMem hassumptions hfixed hnames i)
        exact h _ ⟨name, hname, hlacks⟩
      rw [hcolumns] at hread
      obtain ⟨entry, hrun, -⟩ := run_runMonteCarlo_of_ok hread now
      rw [hrun, Simulation.ofValues_eq_noValidSamples_iff.2 houtputs, Engine.length_sampledOutputs]
    · rw [hnone] at hread
      rw [run_runMonteCarlo_of_error hread]

/-- The score of the time to value is the only standard formula that gives a result without its
input. It is zero then, the worst score there is. -/
theorem strict_iff (hf : f ∈ FormulaRegistry.standard.formulas) :
    (f.Strict ↔ f.id ≠ "ttv_score") ∧
      (f.id = "ttv_score" → ∀ c, f.LacksInput c → f.evaluate c = 0) := by
  refine ⟨⟨fun hstrict hid => ?_, fun hid => ?_⟩, fun hid c hlacks => ?_⟩
  · obtain rfl := eq_ttvScore hf hid
    have hlacks : ttvScore.LacksInput .empty :=
      ⟨"timeToValueMonths", List.mem_singleton_self _, nofun⟩
    have hnot := hstrict.evaluate _ hlacks
    rw [evaluate_ttvScore hlacks] at hnot
    cases hnot
  · exact strict_of_evaluate fun c hlacks =>
      not_isFinite_of_isNaN (carries_evaluate hf hid c hlacks)
  · obtain rfl := eq_ttvScore hf hid
    exact evaluate_ttvScore hlacks

theorem strict_driverBenefit :
    driverBenefit ∈ FormulaRegistry.standard.formulas ∧ driverBenefit.Strict := by
  have hf : driverBenefit ∈ FormulaRegistry.standard.formulas := List.mem_cons_self
  exact ⟨hf, (strict_iff hf).1.2 (by decide)⟩

/-- Without the time to value, or with an undefined one, the score is a zero without a flaw. -/
theorem not_strict_ttvScore :
    let e := Engine.new ⟨0, 0⟩
    let context := Context.ofPairs [("timeToValueMonths", 0 / 0)]
    e.formulas.get? ttvScore.id = some ttvScore ∧ ¬ ttvScore.Strict ∧
    ttvScore.LacksInput .empty ∧ ttvScore.evaluate .empty = 0 ∧
    (∃ v, (e.run (evaluateFormula ⟨1, 0⟩ "ttv_score" context)).1 = .ok v ∧
      v.flaw = none ∧ v.value = 0) ∧
    ∃ s, (e.run (runMonteCarlo ⟨1, 0⟩ [] "ttv_score" 3 0 .empty)).1 = .ok s := by
  intro e context
  have hf : e.formulas.get? "ttv_score" = some ttvScore := rfl
  have hlacks : ttvScore.LacksInput .empty :=
    ⟨"timeToValueMonths", List.mem_singleton_self _, nofun⟩
  have hzero := evaluate_ttvScore hlacks
  refine ⟨hf, fun hstrict => ?_, hlacks, hzero, ?_, ?_⟩
  · have hnot := hstrict.evaluate _ hlacks
    rw [hzero] at hnot
    cases hnot
  · have hrun := congrArg Prod.fst (run_evaluateFormula hf ⟨1, 0⟩ context)
    exact ⟨_, hrun, by decide +kernel, by decide +kernel⟩
  · exact exists_of_isOk (by decide +kernel)

end Formula

end Appraisal
