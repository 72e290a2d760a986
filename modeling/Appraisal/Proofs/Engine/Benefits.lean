import Appraisal.Proofs.Engine.Observation
import Appraisal.Proofs.Engine.Outcomes

/-!
# The numbers behind benefits

A benefit is an estimate under two factors, and it has a record of all three. The factors are shares
of 1, so the benefit of an amount is no larger than the amount. Only the total of four benefits may
overflow, and then it is flawed.
-/

namespace Appraisal

/-- The assumption for the maturity of the data. -/
def maturityId : String := "data_maturity_factor"

/-- The conservative factors of the four drivers, and the one of the maturity. -/
structure Factors where
  revenue : Float
  cost : Float
  cashFlow : Float
  risk : Float
  maturity : Float

namespace Factors

/-- The factors are the values of their assumptions. -/
structure Of (r : AssumptionRegistry) (k : Factors) : Prop where
  revenue : r.value "revenue_conservative_factor" = .ok k.revenue
  cost : r.value "cost_conservative_factor" = .ok k.cost
  cashFlow : r.value "cashflow_conservative_factor" = .ok k.cashFlow
  risk : r.value "risk_conservative_factor" = .ok k.risk
  maturity : r.value maturityId = .ok k.maturity

structure Shares (k : Factors) : Prop where
  revenue : UpTo 1 k.revenue
  cost : UpTo 1 k.cost
  cashFlow : UpTo 1 k.cashFlow
  risk : UpTo 1 k.risk
  maturity : UpTo 1 k.maturity

end Factors

theorem AssumptionRegistry.Sound.exists_factors {r : AssumptionRegistry} (hr : r.Sound) :
    ∃ k, Factors.Of r k ∧ k.Shares := by
  have hshare (id : String) (h : id ∈ Assumption.defaults.map (·.id))
      (hbounds : ∀ d ∈ Assumption.defaults, d.id = id →
        (d.minimum.isFinite = true ∧ d.maximum.isFinite = true) ∧ 0 ≤ d.minimum ∧ d.maximum ≤ 1) :=
    Engine.exists_value_upTo hr h hbounds rfl
  obtain ⟨revenue, hrevenue, hrevenue'⟩ := hshare "revenue_conservative_factor" (by decide)
    (by decide +kernel)
  obtain ⟨cost, hcost, hcost'⟩ := hshare "cost_conservative_factor" (by decide) (by decide +kernel)
  obtain ⟨cashFlow, hcashFlow, hcashFlow'⟩ := hshare "cashflow_conservative_factor" (by decide)
    (by decide +kernel)
  obtain ⟨risk, hrisk, hrisk'⟩ := hshare "risk_conservative_factor" (by decide) (by decide +kernel)
  obtain ⟨maturity, hmaturity, hmaturity'⟩ := hshare maturityId (by decide) (by decide +kernel)
  exact ⟨⟨revenue, cost, cashFlow, risk, maturity⟩,
    ⟨hrevenue, hcost, hcashFlow, hrisk, hmaturity⟩,
    ⟨hrevenue', hcost', hcashFlow', hrisk', hmaturity'⟩⟩

/-- Estimates that are finite and not negative. -/
structure RawBenefits.Ordinary (raw : RawBenefits) : Prop where
  revenue : UpTo raw.revenue raw.revenue
  cost : UpTo raw.cost raw.cost
  cashFlow : UpTo raw.cashFlow raw.cashFlow
  risk : UpTo raw.risk raw.risk

/-- A benefit that was calculated from an estimate and two factors. -/
structure CalculatedValue.IsBenefit (base factor maturity : Float) (v : CalculatedValue) :
    Prop where
  inputs : ∀ p ∈ [("baseBenefit", base), ("conservativeFactor", factor),
    ("dataMaturityFactor", maturity)], v.inputs.get? p.1 = some p.2
  flaw : v.flaw = none
  value : v.value = base * factor * maturity

/-- The benefits of four estimates under some factors. -/
structure DriverBenefits.Of (raw : RawBenefits) (k : Factors) (b : DriverBenefits) : Prop where
  revenue : b.revenue.IsBenefit raw.revenue k.revenue k.maturity
  cost : b.cost.IsBenefit raw.cost k.cost k.maturity
  cashFlow : b.cashFlow.IsBenefit raw.cashFlow k.cashFlow k.maturity
  risk : b.risk.IsBenefit raw.risk k.risk k.maturity
  total : b.totalAnnualValue.Evaluated
    [("revenueBenefit", b.revenue.value), ("costBenefit", b.cost.value),
     ("cashFlowBenefit", b.cashFlow.value), ("riskBenefit", b.risk.value)]
    (b.revenue.value + b.cost.value + b.cashFlow.value + b.risk.value)

namespace Engine

/-- The four benefits are usable, and the total is 0 or more. -/
structure Beneficial (b : DriverBenefits) : Prop where
  usable : ∀ v ∈ [b.revenue, b.cost, b.cashFlow, b.risk], v.flaw = none
  total : UpTo b.totalAnnualValue.value b.totalAnnualValue.value

end Engine

theorem CalculatedValue.IsBenefit.upTo {base factor maturity : Float} {v : CalculatedValue}
    (h : v.IsBenefit base factor maturity) (hbase : UpTo base base) (hfactor : UpTo 1 factor)
    (hmaturity : UpTo 1 maturity) : UpTo base v.value := by
  rw [h.value]
  exact (hbase.mul_share hfactor).mul_share hmaturity

theorem DriverBenefits.Of.beneficial {raw : RawBenefits} {k : Factors} {b : DriverBenefits}
    (h : Of raw k b) (hraw : raw.Ordinary) (hshares : k.Shares) : Engine.Beneficial b := by
  have hrevenue := h.revenue.upTo hraw.revenue hshares.revenue hshares.maturity
  have hcost := h.cost.upTo hraw.cost hshares.cost hshares.maturity
  have hcashFlow := h.cashFlow.upTo hraw.cashFlow hshares.cashFlow hshares.maturity
  have hrisk := h.risk.upTo hraw.risk hshares.risk hshares.maturity
  refine ⟨by simp [h.revenue.flaw, h.cost.flaw, h.cashFlow.flaw, h.risk.flaw], ?_⟩
  cases h.total.outcome with
  | usable _ hvalue hfinite =>
    obtain ⟨hthree, -⟩ := isFinite_of_add hfinite
    obtain ⟨htwo, -⟩ := isFinite_of_add hthree
    rw [hvalue]
    exact ((hrevenue.add_of_isFinite hcost htwo).add_of_isFinite hcashFlow
      hthree).add_of_isFinite hrisk hfinite
  | flawed _ hvalue _ =>
    rw [hvalue]
    exact upTo_zero toRat_zero.ge

namespace Engine

variable {r : AssumptionRegistry}

theorem finds_evaluated {id : String} {f : Formula} {pairs : List (String × Float)}
    (h : FormulaRegistry.standard.get? id = some f) (hnodup : (pairs.map (·.1)).Nodup)
    (hnames : ∀ name, name ∈ f.requiredVariables ↔ name ∈ pairs.map (·.1)) (now : Instant) :
    (evaluateFormula now id (.ofPairs pairs)).Finds .standard r
      (CalculatedValue.Evaluated pairs (f.evaluate (.ofPairs pairs))) := by
  refine (finds_evaluateFormula h now _).imp ?_
  rintro _ rfl
  exact evaluated_valueOf (FormulaRegistry.mem_of_get? h).1 hnodup hnames (fun _ => rfl) _ now

theorem finds_driverBenefit {factorId : String} {base factor maturity : Float}
    (hvalue : r.value factorId = .ok factor) (hbase : UpTo base base) (hfactor : UpTo 1 factor)
    (hmaturity : UpTo 1 maturity) (now : Instant) :
    (driverBenefit now base factorId maturity).Finds .standard r
      (CalculatedValue.IsBenefit base factor maturity) := by
  refine (finds_value hvalue).bind ?_
  rintro factor rfl
  refine (finds_evaluated (f := .driverBenefit) rfl (by simp)
    (by simp [Formula.driverBenefit]) now).imp fun v hv => ?_
  have houtcome := hv.outcome
  have hx : UpTo base (base * factor * maturity) := (hbase.mul_share hfactor).mul_share hmaturity
  simp only [Formula.evaluate, Formula.driverBenefit, Formula.read_ofPairs] at houtcome
  obtain ⟨hflaw, hvalue⟩ := CalculatedValue.Outcome.usable_of_finite houtcome hx.isFinite
  exact ⟨hv.inputs, hflaw, hvalue⟩

theorem finds_driverBenefits {raw : RawBenefits} {k : Factors} (hk : Factors.Of r k)
    (hshares : k.Shares) (hraw : raw.Ordinary) (now : Instant) :
    (driverBenefits now raw).Finds .standard r (DriverBenefits.Of raw k) := by
  refine (finds_value hk.maturity).bind ?_
  rintro _ rfl
  refine (finds_driverBenefit hk.revenue hraw.revenue hshares.revenue hshares.maturity now).bind
    fun revenue hrevenue => ?_
  refine (finds_driverBenefit hk.cost hraw.cost hshares.cost hshares.maturity now).bind
    fun cost hcost => ?_
  refine (finds_driverBenefit hk.cashFlow hraw.cashFlow hshares.cashFlow hshares.maturity now).bind
    fun cashFlow hcashFlow => ?_
  refine (finds_driverBenefit hk.risk hraw.risk hshares.risk hshares.maturity now).bind
    fun risk hrisk => ?_
  refine (finds_evaluated (f := .totalAnnualValue) rfl (by simp)
    (by simp [Formula.totalAnnualValue]) now).bind fun total htotal => ?_
  simp only [Formula.evaluate, Formula.totalAnnualValue, Formula.read_ofPairs] at htotal
  exact Op.finds_pure ⟨hrevenue, hcost, hcashFlow, hrisk, htotal⟩

theorem succeeds_driverBenefits_beneficial {raw : RawBenefits} (h : raw.Ordinary) (now : Instant) :
    (driverBenefits now raw).Succeeds Beneficial := by
  intro e he
  obtain ⟨k, hk, hshares⟩ := he.sound.exists_factors
  obtain ⟨b, e', hrun, he', -⟩ := succeeds_driverBenefits now raw e he
  obtain ⟨-, hfound⟩ := (he.formulas_eq ▸ finds_driverBenefits hk hshares h now).result
  exact ⟨b, e', hrun, he', (hfound b (congrArg Prod.fst hrun)).beneficial h hshares⟩

end Engine

end Appraisal
