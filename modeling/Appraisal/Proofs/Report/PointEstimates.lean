import Appraisal.Proofs.Report.Opportunities

/-!
# The numbers behind point estimates

For its point estimates an analysis evaluates one formula with every estimate and factor of a use
case in it. They go in under names of their own, the conservative factors from one context and the
rest from another one that is laid over it.
-/

namespace Appraisal.Uncertainty

variable {e : Engine} {r : AssumptionRegistry} {k : Factors} {level : Nat}

/-- The variables of the formula, with the estimates of a use case and some factors. -/
def pointInputs (raw : RawBenefits) (k : Factors) : List (String × Float) :=
  [("revenueFactor", k.revenue), ("costFactor", k.cost), ("cashFlowFactor", k.cashFlow),
   ("riskFactor", k.risk), ("revenueBase", raw.revenue), ("costBase", raw.cost),
   ("cashFlowBase", raw.cashFlow), ("riskBase", raw.risk), ("dataMaturityFactor", k.maturity)]

/-- What an analysis evaluates for the point estimate of a use case. -/
def pointValue (now : Instant) (level : Nat) (u : UseCase) : Engine.Op CalculatedValue := do
  let maturity ← Engine.applyMaturity now level
  let fixed ← Engine.Op.ask fun e => fixedFactors e.assumptions
  Engine.evaluateFormula now formulaId (pointContext fixed (uncertainInputs u maturity))

theorem fixedFactors_eq (hk : Factors.Of r k) :
    fixedFactors r = .ok (.ofPairs [("revenueFactor", k.revenue), ("costFactor", k.cost),
      ("cashFlowFactor", k.cashFlow), ("riskFactor", k.risk)]) := by
  rw [fixedFactors, hk.revenue, hk.cost, hk.cashFlow, hk.risk]
  rfl

/-- Whatever the range of an estimate is, its mode is the estimate. -/
theorem point_driver (id label : String) (x : Float) (range : Option ImpactRange) :
    ((driver id label x range).id, (driver id label x range).mode) = (id, x) := by
  cases range <;> rfl

theorem get?_pointContext (k : Factors) (u : UseCase) (name : String) :
    (pointContext (.ofPairs [("revenueFactor", k.revenue), ("costFactor", k.cost),
        ("cashFlowFactor", k.cashFlow), ("riskFactor", k.risk)])
      (uncertainInputs u k.maturity)).get? name =
        (Context.ofPairs (pointInputs u.benefits k)).get? name := by
  rw [pointContext, Context.get?_overlay_ofPairs]
  simp only [uncertainInputs, List.map_cons, List.map_nil, point_driver]
  rfl

theorem result_pointValue (e : Engine) (now : Instant) (level : Nat) (u : UseCase) :
    (e.run (pointValue now level u)).1 = (do
      let assumptions ← e.assumptions.matured level
      let maturity ← assumptions.value maturityId
      let fixed ← fixedFactors assumptions
      let f ← e.formula formulaId
      return Engine.valueOf now f
        (assumptions.formulaContext.overlay
          (pointContext fixed (uncertainInputs u maturity)))) := by
  obtain ⟨audit, hrun⟩ := e.run_applyMaturity_eq now level
  rw [pointValue, Engine.result_bind, hrun]
  cases e.assumptions.matured level with
  | error problem => rfl
  | ok assumptions =>
    simp only [ok_bind]
    congr 1
    funext maturity
    rw [Engine.result_bind, Engine.run_ask]
    congr 1
    funext fixed
    rw [Engine.result_evaluateFormula]
    change (e.formula formulaId).map _ = _
    cases e.formula formulaId <;> rfl

/-- On a standard session the value is that of the formula on the estimates of the use case and the
factors that the session has once the maturity is set. -/
theorem exists_pointValue (he : e.formulas = .standard) (h : e.assumptions.matured level = .ok r)
    (hk : Factors.Of r k) (now : Instant) (u : UseCase) :
    ∃ point, (e.run (pointValue now level u)).1 = .ok point ∧
      point.Evaluated (pointInputs u.benefits k)
        ((u.benefits.revenue * k.revenue + u.benefits.cost * k.cost
          + u.benefits.cashFlow * k.cashFlow + u.benefits.risk * k.risk) * k.maturity) := by
  have hformula : e.formula formulaId = .ok .riskAdjustedValue := by
    rw [Engine.formula, he]
    rfl
  have hf : FormulaRegistry.standard.get? formulaId = some .riskAdjustedValue := rfl
  have hnames (name : String) : name ∈ Formula.riskAdjustedValue.requiredVariables ↔
      name ∈ (pointInputs u.benefits k).map (·.1) := by
    simp only [Formula.riskAdjustedValue, pointInputs, List.map_cons, List.map_nil, List.mem_cons]
    tauto
  have hvalue := Engine.evaluated_valueOf (FormulaRegistry.mem_of_get? hf).1
    (by simp [pointInputs]) hnames (get?_pointContext k u) r.formulaContext now
  simp only [Formula.evaluate, Formula.riskAdjustedValue, Formula.read_ofPairs] at hvalue
  refine ⟨_, ?_, hvalue⟩
  rw [result_pointValue, h, ok_bind, hk.maturity, ok_bind, fixedFactors_eq hk, ok_bind, hformula]
  rfl

/-- The point estimates of an analysis are what the formula gives for each use case on its own. -/
theorem pointEstimate_of_analyze {now : Instant} {research : Research} {size : Nat} {seed : UInt64}
    {report : UncertaintyReport} (h : (e.run (analyze now research size seed)).1 = .ok report)
    {i : Nat} {u : UseCase} (hu : research.useCases[i]? = some u) :
    ∃ o point, report.opportunities[i]? = some o ∧
      (e.run (pointValue now research.overview.dataMaturityLevel u)).1 = .ok point ∧
      o.pointEstimate = point.value := by
  obtain ⟨assumptions, audit, maturity, fixed, hmatured, hmaturity, hfixed, hrun⟩ := analyze_eq_ok h
  obtain ⟨-, hall⟩ := opportunities_eq_ok hrun
  obtain ⟨o, ho, hone⟩ := hall i u hu
  rw [result_opportunity] at hone
  obtain ⟨f, hf, hone⟩ := bind_eq_ok_iff.1 hone
  obtain ⟨distribution, -, hone⟩ := bind_eq_ok_iff.1 hone
  have hf : e.formula formulaId = .ok f := hf
  refine ⟨o, _, ho, ?_, congrArg (·.pointEstimate) (Except.ok.inj hone).symm⟩
  rw [result_pointValue, hmatured, ok_bind, hmaturity, ok_bind, hfixed, ok_bind, hf]
  rfl

end Appraisal.Uncertainty
