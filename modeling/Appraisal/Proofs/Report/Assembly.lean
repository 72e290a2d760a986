import Appraisal.Proofs.Engine.Success
import Appraisal.Report.Assembly

/-!
# Assembling reports succeeds

A report is assembled stage by stage, and no stage is refused in a standard session. The stages that
go through a list answer with one result for each of its members, in order.
-/

namespace Appraisal.Engine

/-- The factors for all levels of maturity are within the bounds of the assumption. -/
theorem check_maturityFactor (level : Nat) :
    AssumptionRegistry.withDefaults.check "data_maturity_factor" (maturityFactor level) =
      .ok () := by
  unfold maturityFactor
  split <;> rfl

theorem succeeds_applyMaturity (now : Instant) (level : Nat) :
    (applyMaturity now level).Succeeds fun _ => True := by
  refine (succeeds_find (by decide)).bind fun current _ => ?_
  split
  · refine (succeeds_updateAssumption now (check_maturityFactor level)).bind fun _ _ => ?_
    exact succeeds_value (by decide)
  · exact succeeds_value (by decide)

theorem succeeds_hoursValue (now : Instant) (hours rate adoption : Float) :
    (hoursValue now hours rate adoption).Succeeds fun _ => True :=
  (succeeds_evaluateFormula (f := .hoursSavedValue) rfl now _).imp fun _ _ => trivial

theorem succeeds_frictionTable (now : Instant) (points : List FrictionPoint) :
    (frictionTable now points).Succeeds fun rows => rows.map (·.point) = points := by
  induction points with
  | nil => exact Op.succeeds_pure rfl
  | cons f fs ih =>
    refine (succeeds_hoursValue now _ _ _).bind fun burden _ => ?_
    refine ih.bind fun rows hrows => Op.succeeds_pure ?_
    rw [List.map_cons, hrows]

theorem succeeds_hoursSaved (now : Instant) (u : UseCase) :
    (hoursSaved now u).Succeeds fun _ => True := by
  rw [hoursSaved]
  split
  · split
    · refine (Op.succeeds_pure (p := fun _ => True) trivial).bind fun _ _ => ?_
      exact (succeeds_hoursValue now _ _ _).bind fun _ _ => Op.succeeds_pure trivial
    · refine (succeeds_value (by decide)).bind fun _ _ => ?_
      exact (succeeds_hoursValue now _ _ _).bind fun _ _ => Op.succeeds_pure trivial
  · exact Op.succeeds_pure trivial

/-- The figures that the dashboard sums up are money per year. -/
def Yearly (benefits : DriverBenefits) (costs : TokenCosts) : Prop :=
  (∀ v ∈ benefits.values, v.unit = .usdPerYear) ∧ costs.annualCost.unit = .usdPerYear

theorem succeeds_unscored (now : Instant) (useCases : List UseCase) :
    (unscored now useCases).Succeeds fun results =>
      results.map (·.useCase) = useCases ∧ ∀ r ∈ results, Yearly r.benefits r.tokenCosts := by
  induction useCases with
  | nil => exact Op.succeeds_pure ⟨rfl, List.forall_mem_nil _⟩
  | cons u us ih =>
    refine (succeeds_driverBenefits now u.benefits).bind fun benefits hbenefits => ?_
    refine (succeeds_tokenCosts now u.tokens).bind fun costs hcosts => ?_
    refine (succeeds_hoursSaved now u).bind fun hours _ => ?_
    refine ih.bind fun results hresults => Op.succeeds_pure ⟨?_, ?_⟩
    · rw [List.map_cons, hresults.1]
    · exact List.forall_mem_cons.2 ⟨⟨hbenefits, hcosts⟩, hresults.2⟩

theorem succeeds_scored (now : Instant) (maxImpact : Float) {results : List Unscored}
    (h : ∀ r ∈ results, Yearly r.benefits r.tokenCosts) :
    (scored now maxImpact results).Succeeds fun useCases =>
      useCases.map (·.useCase) = results.map (·.useCase) ∧
        ∀ r ∈ useCases, Yearly r.benefits r.tokenCosts := by
  induction results with
  | nil => exact Op.succeeds_pure ⟨rfl, List.forall_mem_nil _⟩
  | cons r rs ih =>
    obtain ⟨hr, hrs⟩ := List.forall_mem_cons.1 h
    refine (succeeds_priority now _).bind fun scores _ => ?_
    refine (ih hrs).bind fun useCases huseCases => Op.succeeds_pure ⟨?_, ?_⟩
    · rw [List.map_cons, List.map_cons, huseCases.1]
    · exact List.forall_mem_cons.2 ⟨hr, huseCases.2⟩

theorem succeeds_sumOver (now : Instant) (label : String)
    {figure : UseCaseResult → CalculatedValue} {useCases : List UseCaseResult}
    (h : ∀ r ∈ useCases, (figure r).unit = .usdPerYear) :
    (sumOver now label figure useCases).Succeeds fun _ => True := by
  refine succeeds_sumValues now label ?_
  rw [List.forall_mem_map]
  intro r hr
  rw [h r hr]

theorem succeeds_floorTotal (now : Instant) (increment : Float) (total : CalculatedValue) :
    (floorTotal now increment total).Succeeds fun _ => True := by
  rw [floorTotal]
  split
  · exact (succeeds_evaluateFormula (f := .floorToIncrement) rfl now _).imp fun _ _ => trivial
  · exact Op.succeeds_pure trivial

theorem succeeds_dashboard (now : Instant) (settings : ReportSettings)
    {useCases : List UseCaseResult} (h : ∀ r ∈ useCases, Yearly r.benefits r.tokenCosts) :
    (dashboard now settings useCases).Succeeds fun _ => True := by
  -- Every benefit of a use case is money per year, so no sum over the use cases is refused.
  have hbenefit (figure : DriverBenefits → CalculatedValue)
      (hfigure : ∀ b : DriverBenefits, figure b ∈ b.values) (label : String) :
      (sumOver now label (fun r => figure r.benefits) useCases).Succeeds fun _ => True :=
    succeeds_sumOver now label fun r hr => (h r hr).1 _ (hfigure r.benefits)
  refine (hbenefit (·.revenue) (by simp [DriverBenefits.values]) _).bind fun revenue _ => ?_
  refine (hbenefit (·.cost) (by simp [DriverBenefits.values]) _).bind fun cost _ => ?_
  refine (hbenefit (·.cashFlow) (by simp [DriverBenefits.values]) _).bind fun cashFlow _ => ?_
  refine (hbenefit (·.risk) (by simp [DriverBenefits.values]) _).bind fun risk _ => ?_
  refine (hbenefit (·.totalAnnualValue) (by simp [DriverBenefits.values]) _).bind fun total _ => ?_
  refine (succeeds_sumOver now _ fun r hr => (h r hr).2).bind fun tokenCost _ => ?_
  refine (succeeds_value (by decide)).bind fun ratio _ => ?_
  refine (succeeds_evaluateFormula (f := .valuePerMillionTokens) rfl now _).bind fun _ _ => ?_
  refine (succeeds_evaluateFormula (f := .roiPercentage) rfl now _).bind fun _ _ => ?_
  refine (succeeds_evaluateFormula (f := .paybackPeriod) rfl now _).bind fun _ _ => ?_
  refine (succeeds_floorTotal now _ revenue).bind fun _ _ => ?_
  refine (succeeds_floorTotal now _ cost).bind fun _ _ => ?_
  refine (succeeds_floorTotal now _ cashFlow).bind fun _ _ => ?_
  refine (succeeds_floorTotal now _ risk).bind fun _ _ => ?_
  refine (succeeds_floorTotal now _ total).bind fun _ _ => ?_
  exact Op.succeeds_pure trivial

theorem succeeds_assemble (now : Instant) (reportId : String) (settings : ReportSettings)
    (research : Research) :
    (assemble now reportId settings research).Succeeds fun report =>
      report.useCases.map (·.useCase) = research.useCases ∧
        report.company.frictionTable.map (·.point) = research.frictionPoints := by
  refine (succeeds_applyMaturity now _).bind fun factor _ => ?_
  refine (succeeds_frictionTable now _).bind fun rows hrows => ?_
  refine (succeeds_unscored now _).bind fun results hresults => ?_
  refine (succeeds_scored now _ hresults.2).bind fun useCases huseCases => ?_
  refine (succeeds_dashboard now settings huseCases.2).bind fun dashboard _ => ?_
  refine Op.succeeds_get.bind fun e _ => ?_
  exact Op.succeeds_pure ⟨huseCases.1.trans hresults.1, hrows⟩

end Appraisal.Engine
