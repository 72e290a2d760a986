import Appraisal.Proofs.Float.Undefined
import Appraisal.Proofs.Formula.Registry

/-!
# Formulas without an input

A variable that is absent reads as an undefined number. The standard formulas are built from
arithmetic, which keeps it undefined, and three of them round or bound what they have computed. One
of these takes the larger of an undefined number and zero, and that is zero.
-/

namespace Appraisal

/-- A context gives a variable no value, or an undefined one. -/
def Context.Lacks (c : Context) (name : String) : Prop :=
  ∀ x, c.get? name = some x → x.isNaN = true

theorem Context.lacks_of_get?_eq_none {c : Context} {name : String} (h : c.get? name = none) :
    c.Lacks name := by
  intro x hx
  cases h.symm.trans hx

namespace Formula

variable {f : Formula} {c : Context} {name : String} {names names' : List String}
  {g h : Context → Float}

def LacksInput (f : Formula) (c : Context) : Prop :=
  ∃ name ∈ f.requiredVariables, c.Lacks name

theorem mem_missingVariables_iff :
    name ∈ f.missingVariables c ↔ name ∈ f.requiredVariables ∧ name ∉ c := by
  rw [missingVariables, List.mem_filter, Bool.not_eq_true', ← Bool.not_eq_true,
    Std.ExtTreeMap.contains_iff_mem]

theorem isNaN_read (hname : c.Lacks name) : (read c name).isNaN = true := by
  rw [read]
  cases hx : c.get? name with
  | none => rfl
  | some x => exact hname x hx

/-- The number is undefined wherever one of these variables is lacking. -/
def Carries (names : List String) (g : Context → Float) : Prop :=
  ∀ c : Context, (∃ name ∈ names, c.Lacks name) → (g c).isNaN = true

theorem carries_const (x : Float) : Carries [] fun _ => x := by
  rintro c ⟨name, hname, -⟩
  cases hname

theorem carries_read (name : String) : Carries [name] fun c => read c name := by
  rintro c ⟨name', hname', hlacks⟩
  obtain rfl := List.mem_singleton.1 hname'
  exact isNaN_read hlacks

theorem Carries.binary {op : Float → Float → Float}
    (hop : ∀ {x y : Float}, x.isNaN = true ∨ y.isNaN = true → (op x y).isNaN = true)
    (hg : Carries names g) (hh : Carries names' h) :
    Carries (names ++ names') fun c => op (g c) (h c) := by
  rintro c ⟨name, hname, hlacks⟩
  rcases List.mem_append.1 hname with hname | hname
  · exact hop (.inl (hg c ⟨name, hname, hlacks⟩))
  · exact hop (.inr (hh c ⟨name, hname, hlacks⟩))

theorem Carries.add (hg : Carries names g) (hh : Carries names' h) :
    Carries (names ++ names') fun c => g c + h c :=
  .binary isNaN_add hg hh

theorem Carries.sub (hg : Carries names g) (hh : Carries names' h) :
    Carries (names ++ names') fun c => g c - h c :=
  .binary isNaN_sub hg hh

theorem Carries.mul (hg : Carries names g) (hh : Carries names' h) :
    Carries (names ++ names') fun c => g c * h c :=
  .binary isNaN_mul hg hh

theorem Carries.div (hg : Carries names g) (hh : Carries names' h) :
    Carries (names ++ names') fun c => g c / h c :=
  .binary isNaN_div hg hh

theorem Carries.floor (hg : Carries names g) : Carries names fun c => Number.floor (g c) := by
  intro c hc
  change (Number.floor (g c)).isNaN = true
  rw [Number.floor_of_isNaN (hg c hc)]
  exact hg c hc

/-- A bound that leaves an undefined number alone. -/
theorem Carries.guarded (hg : Carries names g) (bound : Float → Float) :
    Carries names fun c => if (g c).isNaN then g c else bound (g c) := by
  intro c hc
  change (if (g c).isNaN then g c else bound (g c)).isNaN = true
  rw [if_pos (hg c hc)]
  exact hg c hc

theorem Carries.of_subset (hg : Carries names g) (hsubset : names' ⊆ names) : Carries names' g :=
  fun c ⟨name, hname, hlacks⟩ => hg c ⟨name, hsubset hname, hlacks⟩

/-- The proofs follow the expressions of the formulas, and a variable that occurs twice in one is
listed twice on the way. -/
theorem carries_evaluate (hf : f ∈ FormulaRegistry.standard.formulas) (hid : f.id ≠ "ttv_score") :
    Carries f.requiredVariables f.evaluate := by
  have r := carries_read
  have k := carries_const
  simp only [FormulaRegistry.standard, List.mem_cons, List.not_mem_nil, or_false] at hf
  rcases hf with rfl | rfl | rfl | rfl | rfl | rfl | rfl | rfl | rfl | rfl | rfl | rfl | rfl
  · exact ((r "baseBenefit").mul (r "conservativeFactor")).mul (r "dataMaturityFactor")
  · exact (((r "revenueBenefit").add (r "costBenefit")).add (r "cashFlowBenefit")).add
      (r "riskBenefit")
  · exact ((((r "inputTokens").mul (r "inputPricePerMillion")).div (k 1000000)).add
      (((r "outputTokens").mul (r "outputPricePerMillion")).div (k 1000000))).of_subset (by decide)
  · exact (r "monthlyCost").mul (k 12)
  · exact ((r "hoursSaved").mul (r "hourlyRate")).mul (r "adoptionRate")
  · exact (((r "totalImpact").div (r "maxImpact")).mul (k 100)).guarded (Number.smaller · 100)
  · exact absurd rfl hid
  · exact (((((r "valueScore").mul (r "valueWeight")).add ((r "ttvScore").mul (r "ttvWeight"))).add
      (((k 100).sub (r "effortScore")).mul (r "effortWeight"))).div (k 100)).of_subset (by decide)
  · exact ((((r "totalBenefit").sub (r "totalCost")).div (r "totalCost")).mul (k 100)).of_subset
      (by decide)
  · exact (r "initialInvestment").div (r "annualBenefit")
  · exact ((r "totalAnnualValue").div (r "totalAnnualTokens")).mul (k 1000000)
  · exact (((r "amount").div (r "increment")).floor.mul (r "increment")).of_subset (by decide)
  · exact ((((((r "revenueBase").mul (r "revenueFactor")).add
      ((r "costBase").mul (r "costFactor"))).add
      ((r "cashFlowBase").mul (r "cashFlowFactor"))).add
      ((r "riskBase").mul (r "riskFactor"))).mul (r "dataMaturityFactor")).of_subset (by decide)

/-- What is left of a hundred is undefined, but the larger of that and zero is zero. -/
theorem evaluate_ttvScore (hlacks : ttvScore.LacksInput c) : ttvScore.evaluate c = 0 := by
  have hraw : Carries ttvScore.requiredVariables
      fun c => 100 - read c "timeToValueMonths" * 8.33 :=
    (carries_const 100).sub ((carries_read "timeToValueMonths").mul (carries_const 8.33))
  exact Number.larger_of_isNaN (hraw c hlacks) 0

theorem eq_ttvScore (hf : f ∈ FormulaRegistry.standard.formulas) (hid : f.id = "ttv_score") :
    f = ttvScore := by
  simp only [FormulaRegistry.standard, List.mem_cons, List.not_mem_nil, or_false] at hf
  rcases hf with rfl | rfl | rfl | rfl | rfl | rfl | rfl | rfl | rfl | rfl | rfl | rfl | rfl <;>
    first | rfl | exact absurd hid (by decide)

end Formula

end Appraisal
