import Appraisal.Formula.Standard
import Appraisal.Proofs.Assumption.Registry
import Appraisal.Proofs.Context

/-!
# Assumptions as formulas see them

No id of an assumption is a variable of a standard formula, and no two assumptions feed the same
variable. So what a formula reads is the value of the one assumption that feeds the variable.
-/

namespace Appraisal

namespace AssumptionRegistry

variable {r : AssumptionRegistry} {name : String}

/-- The assumption that feeds a formula variable. -/
def feeding? (r : AssumptionRegistry) (name : String) : Option Assumption :=
  r.assumptions.find? fun a => Assumption.formulaVariable? a.id = some name

theorem lookup_variablePairs (r : AssumptionRegistry) (name : String) :
    r.variablePairs.lookup name = (r.feeding? name).map (·.currentValue) := by
  rw [variablePairs, feeding?]
  induction r.assumptions with
  | nil => rfl
  | cons a as ih =>
    cases h : Assumption.formulaVariable? a.id with
    | none => simp [h, ih]
    | some fed =>
      by_cases hname : fed = name
      · simp [h, hname]
      · simp [h, hname, Ne.symm hname, lookup_cons_eq, ih]

theorem map_fst_variablePairs (r : AssumptionRegistry) :
    r.variablePairs.map (·.1) =
      (r.assumptions.map (·.id)).filterMap Assumption.formulaVariable? := by
  rw [variablePairs, List.map_filterMap, List.filterMap_map]
  apply List.filterMap_congr
  intro a _
  cases h : Assumption.formulaVariable? a.id <;> simp [h]

theorem nodup_formulaVariables :
    ((Assumption.defaults.map (·.id)).filterMap Assumption.formulaVariable?).Nodup := by
  decide

theorem Sound.get?_formulaContext (hr : r.Sound)
    (h : name ∉ Assumption.defaults.map (·.id)) :
    r.formulaContext.get? name = (r.feeding? name).map (·.currentValue) := by
  have hvariables : (r.variablePairs.map (·.1)).Nodup := by
    rw [map_fst_variablePairs, hr.map_id]
    exact nodup_formulaVariables
  have hids : name ∉ r.pairs.reverse.map (·.1) := by
    rw [List.map_reverse, List.mem_reverse, pairs, List.map_map]
    exact hr.map_id ▸ h
  rw [formulaContext, Context.get?_ofPairs, List.reverse_append, List.lookup_append,
    lookup_reverse name hvariables, lookup_variablePairs, lookup_eq_none_of_notMem hids,
    Option.or_none]

end AssumptionRegistry

theorem Formula.notMem_ids_of_mem_requiredVariables :
    ∀ f ∈ FormulaRegistry.standard.formulas, ∀ name ∈ f.requiredVariables,
      name ∉ Assumption.defaults.map (·.id) := by
  decide +kernel

end Appraisal
