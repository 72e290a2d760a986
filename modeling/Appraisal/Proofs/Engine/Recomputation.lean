import Appraisal.Proofs.Assumption.FormulaContext
import Appraisal.Proofs.Engine.Checkpoint
import Appraisal.Proofs.Formula.Registry

/-!
# Computing again

A calculated value carries the inputs that its formula read. They are all that the formula needs,
and id and version lead back to the formula, so the value can be computed again from the record
alone.
-/

namespace Appraisal.Engine

variable {e : Engine} {f : Formula} {context full : Context} {name : String} {now : Instant}

/-- The number that a call gives for a variable: the one of its context, else the value of the
assumption that feeds the variable. -/
def given? (e : Engine) (context : Context) (name : String) : Option Float :=
  (context.get? name).or ((e.assumptions.feeding? name).map (·.currentValue))

theorem get?_callContext (hr : e.assumptions.Sound) (context : Context)
    (h : name ∉ Assumption.defaults.map (·.id)) :
    (e.callContext context).get? name = e.given? context name := by
  rw [callContext, Context.get?_overlay, hr.get?_formulaContext h, given?]

theorem flaw_valueOf_eq_missing_iff {names : List String} :
    (valueOf now f full).flaw = some (.missingVariables names) ↔
      names ≠ [] ∧ f.missingVariables full = names := by
  by_cases hmissing : f.missingVariables full = []
  · have hnot : ¬(names ≠ [] ∧ [] = names) := fun h => h.1 h.2.symm
    rw [hmissing, iff_false_right hnot, valueOf, hmissing]
    split_ifs <;> simp_all [CalculatedValue.flawed]
  · have hflaw : (valueOf now f full).flaw =
        some (.missingVariables (f.missingVariables full)) := by
      rw [valueOf, if_pos (by simpa using hmissing)]
      rfl
    rw [hflaw, Option.some.injEq, Flaw.missingVariables.injEq, iff_and_self]
    rintro rfl
    exact hmissing

theorem valueOf_of_flaw_eq_none (h : (valueOf now f full).flaw = none) :
    f.missingVariables full = [] ∧ (valueOf now f full).value = f.evaluate full := by
  rw [valueOf] at h ⊢
  split_ifs at h ⊢ with hmissing hfinite
  · cases h
  · exact ⟨by simpa using hmissing, rfl⟩
  · cases h

theorem flaw_valueOf_eq_none_iff :
    (valueOf now f full).flaw = none ↔
      f.missingVariables full = [] ∧ (f.evaluate full).isFinite = true := by
  rw [valueOf]
  split_ifs with hmissing hfinite
  · simpa [CalculatedValue.flawed] using fun h => absurd h (by simpa using hmissing)
  · exact iff_of_true rfl ⟨by simpa using hmissing, hfinite⟩
  · exact iff_of_false (Option.some_ne_none _) fun h => hfinite h.2

theorem flaw_valueOf_eq_nonFinite_iff :
    (valueOf now f full).flaw = some .nonFinite ↔
      f.missingVariables full = [] ∧ (f.evaluate full).isFinite = false := by
  rw [valueOf]
  split_ifs with hmissing hfinite
  · simpa [CalculatedValue.flawed] using fun h => absurd h (by simpa using hmissing)
  · exact iff_of_false not_false fun h => by cases hfinite.symm.trans h.2
  · exact iff_of_true rfl ⟨by simpa using hmissing, by simpa using hfinite⟩

/-- What a standard formula gives in a context it gives in the inputs it recorded as well. -/
theorem evaluate_inputs (hf : f ∈ FormulaRegistry.standard.formulas) (full : Context) :
    f.evaluate (f.inputs full) = f.evaluate full := by
  apply Formula.evaluate_congr hf
  intro name hname
  rw [Formula.get?_inputs, if_pos hname]

theorem missingVariables_callContext (hr : e.assumptions.Sound)
    (hf : f ∈ FormulaRegistry.standard.formulas) (context : Context) :
    f.missingVariables (e.callContext context) =
      f.requiredVariables.filter fun name => (e.given? context name).isNone := by
  apply List.filter_congr
  intro name hname
  rw [← get?_callContext hr context (Formula.notMem_ids_of_mem_requiredVariables f hf name hname),
    Std.ExtTreeMap.contains_eq_isSome_getElem?, Option.not_isSome, Std.ExtTreeMap.get?_eq_getElem?]

/-- A standard formula that is still the latest of its id always gives a value. Without a flaw, the
value is that of the recorded formula on the recorded inputs, bit for bit, and the inputs are the
required variables, each as the call gave it. If some of these are not given at all, the flaw
lists them in the order of the declaration. -/
theorem recomputed_of_evaluated {e₀ : Engine} (h₀ : Opened e₀)
    (hregistered : e₀.formulas.Registered) (calls : List (Instant × Call)) {f : Formula}
    (hf : f ∈ FormulaRegistry.standard.formulas) (hlatest : e₀.formulas.get? f.id = some f)
    (now : Instant) (context : Context) :
    let e := e₀.afterAll calls
    ∃ v e', e.run (evaluateFormula now f.id context) = (.ok v, e') ∧
      (v.flaw = none →
        (∃ g, e.formulas.getVersion? v.formulaId v.formulaVersion = some g ∧
          g.evaluate v.inputs = v.value) ∧
        (∀ name, name ∈ v.inputs ↔ name ∈ f.requiredVariables) ∧
        ∀ name ∈ f.requiredVariables, v.inputs.get? name = e.given? context name) ∧
      ∀ names, v.flaw = some (.missingVariables names) ↔
        names ≠ [] ∧
          (f.requiredVariables.filter fun name => (e.given? context name).isNone) = names := by
  intro e
  have hr : e.assumptions.Sound := h₀.sound_afterAll calls
  have hformulas : e.formulas = e₀.formulas := (h₀.steps calls).formulas_eq
  have hget : e.formulas.get? f.id = some f := by rw [hformulas, hlatest]
  refine ⟨_, _, run_evaluateFormula hget now context, fun hflaw => ?_, fun names => ?_⟩
  · obtain ⟨hmissing, hvalue⟩ := valueOf_of_flaw_eq_none hflaw
    obtain ⟨hid, hversion, hinputs, -⟩ := origin_valueOf now f (e.callContext context)
    rw [hid, hversion, hinputs, hvalue]
    have hmem := (FormulaRegistry.mem_of_get? hlatest).1
    have hget? (name : String) (hname : name ∈ f.requiredVariables) :
        (f.inputs (e.callContext context)).get? name = (e.callContext context).get? name := by
      rw [Formula.get?_inputs, if_pos hname]
    refine ⟨⟨f, ?_, evaluate_inputs hf _⟩, fun name => ?_, fun name hname => ?_⟩
    · rw [hformulas]
      exact FormulaRegistry.getVersion?_of_mem hregistered.pairwise_apart hmem
    · by_cases hname : name ∈ f.requiredVariables
      · have hcontext := Formula.missingVariables_eq_nil_iff.1 hmissing name hname
        rw [iff_true_right hname, Context.mem_iff_isSome_get?, hget? name hname]
        exact Context.mem_iff_isSome_get?.1 hcontext
      · rw [iff_false_right hname, Context.mem_iff_isSome_get?, Formula.get?_inputs, if_neg hname]
        exact Bool.false_ne_true
    · rw [hget? name hname]
      exact get?_callContext hr context
        (Formula.notMem_ids_of_mem_requiredVariables f hf name hname)
  · rw [flaw_valueOf_eq_missing_iff, missingVariables_callContext hr hf]

/-- The registry here has a newer formula than the standard ones, and the context leaves one
variable to an overridden assumption. -/
theorem recomputed_of_evaluated_benefit :
    let r : FormulaRegistry :=
      ⟨FormulaRegistry.standard.formulas ++ [{ Formula.ttvScore with version := "3.0.0" }]⟩
    let e := (withFormulas r ⟨0, 0⟩).afterAll [(⟨1, 0⟩, .update "data_maturity_factor" 0.5)]
    let context := Context.ofPairs [("baseBenefit", 1000), ("conservativeFactor", 0.9)]
    r.Registered ∧ r.get? "driver_benefit" = some .driverBenefit ∧
      ∃ v e', e.run (evaluateFormula ⟨2, 0⟩ "driver_benefit" context) = (.ok v, e') ∧
        v.flaw = none ∧ (∃ g, e.formulas.getVersion? v.formulaId v.formulaVersion = some g ∧
          g.evaluate v.inputs = v.value) ∧
        v.inputs.get? "dataMaturityFactor" = some 0.5 := by
  intro r e context
  have hregistered : r.Registered :=
    .register .standard (FormulaRegistry.register_eq_ok_iff.2 ⟨by decide +kernel, rfl⟩)
  have hlatest : r.get? "driver_benefit" = some .driverBenefit := rfl
  have hmem : Formula.driverBenefit ∈ FormulaRegistry.standard.formulas := List.mem_cons_self
  obtain ⟨v, e', hrun, hcomputed, -⟩ := recomputed_of_evaluated (.fresh r ⟨0, 0⟩) hregistered
    [(⟨1, 0⟩, .update "data_maturity_factor" 0.5)] hmem hlatest ⟨2, 0⟩ context
  have hv : valueOf ⟨2, 0⟩ .driverBenefit (e.callContext context) = v := by
    have hget : e.formulas.get? "driver_benefit" = some .driverBenefit := rfl
    have h := (run_evaluateFormula hget ⟨2, 0⟩ context).symm.trans hrun
    exact Except.ok.inj (congrArg Prod.fst h)
  have hflaw : v.flaw = none := by
    rw [← hv]
    decide +kernel
  obtain ⟨hagain, -, hinputs⟩ := hcomputed hflaw
  refine ⟨hregistered, hlatest, v, e', hrun, hflaw, hagain, ?_⟩
  rw [hinputs "dataMaturityFactor" (by decide)]
  decide +kernel

end Appraisal.Engine
