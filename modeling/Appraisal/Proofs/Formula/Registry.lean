import Appraisal.Formula.Standard
import Appraisal.Proofs.Context
import Appraisal.Proofs.Except

/-!
# Registered formulas

Registries grow from the standard one by accepted registrations. In all of them an id with a version
names one formula for good, and the standard formulas read the variables that they declare and
no others.
-/

namespace Appraisal

/-- The two differ in id or version. -/
def Formula.Apart (f g : Formula) : Prop :=
  ¬(f.id = g.id ∧ f.version = g.version)

instance (f g : Formula) : Decidable (f.Apart g) :=
  inferInstanceAs (Decidable (¬_))

namespace FormulaRegistry

variable {r r' : FormulaRegistry} {f : Formula} {id : String}

/-- What becomes of the standard registry by accepted registrations. -/
inductive Registered : FormulaRegistry → Prop
  | standard : Registered .standard
  | register {r r' : FormulaRegistry} {f : Formula} (h : Registered r)
      (hregister : r.register f = .ok r') : Registered r'

theorem register_eq_ok_iff :
    r.register f = .ok r' ↔ (∀ g ∈ r.formulas, g.Apart f) ∧ ⟨r.formulas ++ [f]⟩ = r' := by
  have hnone : r.getVersion? f.id f.version = none ↔ ∀ g ∈ r.formulas, g.Apart f := by
    simp [getVersion?, Formula.Apart]
  rw [← hnone, register]
  cases r.getVersion? f.id f.version <;> simp

theorem pairwise_apart_standard : standard.formulas.Pairwise Formula.Apart := by
  decide +kernel

theorem Registered.pairwise_apart (h : Registered r) : r.formulas.Pairwise Formula.Apart := by
  induction h with
  | standard => exact pairwise_apart_standard
  | register _ hregister ih =>
    obtain ⟨hapart, rfl⟩ := register_eq_ok_iff.1 hregister
    refine List.pairwise_append.2 ⟨ih, List.pairwise_singleton _ _, fun g hg _ hf => ?_⟩
    obtain rfl := List.mem_singleton.1 hf
    exact hapart g hg

theorem mem_of_get? (h : r.get? id = some f) : f ∈ r.formulas ∧ f.id = id :=
  ⟨List.mem_reverse.1 (List.mem_of_find?_eq_some h), by simpa using List.find?_some h⟩

/-- A registered formula is found by its id and version. -/
theorem getVersion?_of_mem (h : r.formulas.Pairwise Formula.Apart) (hf : f ∈ r.formulas) :
    r.getVersion? f.id f.version = some f := by
  obtain ⟨before, after, hsplit⟩ := List.append_of_mem hf
  rw [hsplit] at h
  have hapart := (List.pairwise_append.1 h).2.2
  rw [getVersion?, hsplit, List.find?_append, List.find?_eq_none.2, Option.none_or,
    List.find?_cons_of_pos (by simp)]
  intro g hg
  simpa [Formula.Apart] using hapart g hg f List.mem_cons_self

end FormulaRegistry

namespace Formula

variable {f : Formula} {c c' : Context} {name : String}

theorem get?_inputs (f : Formula) (c : Context) (name : String) :
    (f.inputs c).get? name = if name ∈ f.requiredVariables then c.get? name else none := by
  rw [inputs, Context.get?_ofPairs]
  exact lookup_reverse_filterMap c.get? f.requiredVariables name

theorem missingVariables_eq_nil_iff :
    f.missingVariables c = [] ↔ ∀ name ∈ f.requiredVariables, name ∈ c := by
  simp [missingVariables]

/-- A standard formula reads no variable that it does not require. -/
theorem evaluate_congr (hf : f ∈ FormulaRegistry.standard.formulas)
    (h : ∀ name ∈ f.requiredVariables, c.get? name = c'.get? name) :
    f.evaluate c = f.evaluate c' := by
  have hread : ∀ name ∈ f.requiredVariables, read c name = read c' name := by
    intro name hname
    rw [read, read, h name hname]
  simp only [FormulaRegistry.standard, List.mem_cons, List.not_mem_nil, or_false] at hf
  rcases hf with rfl | rfl | rfl | rfl | rfl | rfl | rfl | rfl | rfl | rfl | rfl | rfl | rfl
  -- Unfolded, each formula reads variables by their names only, and they are all in its list.
  all_goals
    simp only [evaluate, driverBenefit, totalAnnualValue, tokenCostMonthly, tokenCostAnnual,
      hoursSavedValue, valueScore, ttvScore, priorityScore, roiPercentage, paybackPeriod,
      valuePerMillionTokens, floorToIncrement, riskAdjustedValue, List.forall_mem_cons] at hread ⊢
    simp only [hread]

end Formula

end Appraisal
