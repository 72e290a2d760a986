import Appraisal.Proofs.Engine.Observation
import Appraisal.Proofs.Report.Maturity

/-!
# What a report changes

A report sets the maturity factor and after that only observes its session. So all that is
calculated in it is calculated on the same assumptions, the ones that it shows at its end.
-/

namespace Appraisal.Engine

theorem observes_hoursValue (now : Instant) (hours rate adoption : Float) :
    (hoursValue now hours rate adoption).Observes :=
  observes_evaluateFormula now _ _

theorem observes_frictionTable (now : Instant) (points : List FrictionPoint) :
    (frictionTable now points).Observes := by
  induction points with
  | nil => exact Op.observes_pure _
  | cons f fs ih =>
    exact (observes_hoursValue now _ _ _).bind fun _ => ih.bind fun _ => Op.observes_pure _

theorem observes_hoursSaved (now : Instant) (u : UseCase) : (hoursSaved now u).Observes := by
  rw [hoursSaved]
  split
  · split
    · refine (Op.observes_pure _).bind fun _ => ?_
      exact (observes_hoursValue now _ _ _).bind fun _ => Op.observes_pure _
    · refine (Op.observes_ask _).bind fun _ => ?_
      exact (observes_hoursValue now _ _ _).bind fun _ => Op.observes_pure _
  · exact Op.observes_pure _

theorem observes_floorTotal (now : Instant) (increment : Float) (total : CalculatedValue) :
    (floorTotal now increment total).Observes := by
  rw [floorTotal]
  split
  · exact observes_evaluateFormula now _ _
  · exact Op.observes_pure _

theorem observes_dashboard (now : Instant) (settings : ReportSettings)
    (useCases : List UseCaseResult) : (dashboard now settings useCases).Observes := by
  have hsum (label : String) (figure : UseCaseResult → CalculatedValue) :
      (sumOver now label figure useCases).Observes :=
    observes_sumValues now _ _ _
  have hfloor := observes_floorTotal now settings.roundingIncrement
  refine (hsum _ _).bind fun revenue => (hsum _ _).bind fun cost => ?_
  refine (hsum _ _).bind fun cashFlow => (hsum _ _).bind fun risk => ?_
  refine (hsum _ _).bind fun total => (hsum _ _).bind fun tokenCost => ?_
  refine (Op.observes_ask _).bind fun ratio => ?_
  refine (observes_evaluateFormula now _ _).bind fun _ => ?_
  refine (observes_evaluateFormula now _ _).bind fun _ => ?_
  refine (observes_evaluateFormula now _ _).bind fun _ => ?_
  refine (hfloor revenue).bind fun _ => (hfloor cost).bind fun _ => ?_
  refine (hfloor cashFlow).bind fun _ => (hfloor risk).bind fun _ => ?_
  exact (hfloor total).bind fun _ => Op.observes_pure _

variable {fs : FormulaRegistry} {r : AssumptionRegistry} {p : UseCase → DriverBenefits → Prop}

theorem finds_unscored {now : Instant} {useCases : List UseCase}
    (h : ∀ u ∈ useCases, (driverBenefits now u.benefits).Finds fs r (p u)) :
    (unscored now useCases).Finds fs r fun results => ∀ s ∈ results, p s.useCase s.benefits := by
  induction useCases with
  | nil => exact Op.finds_pure (List.forall_mem_nil _)
  | cons u us ih =>
    obtain ⟨hu, hus⟩ := List.forall_mem_cons.1 h
    refine hu.bind fun benefits hbenefits => ?_
    refine (observes_tokenCosts now _).finds.bind fun _ _ => ?_
    refine (observes_hoursSaved now _).finds.bind fun _ _ => ?_
    exact (ih hus).bind fun _ hresults =>
      Op.finds_pure (List.forall_mem_cons.2 ⟨hbenefits, hresults⟩)

theorem finds_scored (now : Instant) (maxImpact : Float) {results : List Unscored}
    (h : ∀ s ∈ results, p s.useCase s.benefits) :
    (scored now maxImpact results).Finds fs r fun useCases =>
      ∀ u ∈ useCases, p u.useCase u.benefits := by
  induction results with
  | nil => exact Op.finds_pure (List.forall_mem_nil _)
  | cons s rest ih =>
    obtain ⟨hs, hrest⟩ := List.forall_mem_cons.1 h
    refine (observes_priority now _).finds.bind fun _ _ => ?_
    exact (ih hrest).bind fun _ huseCases =>
      Op.finds_pure (List.forall_mem_cons.2 ⟨hs, huseCases⟩)

/-- What a report does to the assumptions is to set the maturity factor. It shows the assumptions
and the factor that it leaves, and whatever its stages are known to find on these assumptions is
true of its use cases. -/
theorem frame_of_stages {q : List Unscored → Prop} {p : List UseCaseResult → Prop} {e : Engine}
    {now : Instant} {reportId : String} {settings : ReportSettings} {research : Research}
    (h : e.assumptions.matured research.overview.dataMaturityLevel = .ok r)
    (hunscored : (unscored now research.useCases).Finds e.formulas r q)
    (hscored : ∀ results, q results →
      (scored now (maxImpact results) results).Finds e.formulas r p) :
    (e.run (assemble now reportId settings research)).2.assumptions = r ∧
      ∀ report, (e.run (assemble now reportId settings research)).1 = .ok report →
        report.assumptions = r.assumptions ∧
          r.value maturityId = .ok report.company.dataMaturityFactor ∧ p report.useCases := by
  obtain ⟨audit, hrun⟩ := e.run_applyMaturity_eq now research.overview.dataMaturityLevel
  simp only [h] at hrun
  rw [assemble, run_bind, hrun]
  cases hfactor : r.value maturityId with
  | error problem =>
    refine ⟨rfl, fun report hreport => ?_⟩
    cases hreport
  | ok factor =>
    -- What comes after the factor only observes, so the session is still on these assumptions when
    -- the report copies them.
    apply Op.Finds.result
    refine (observes_frictionTable _ _).finds.bind fun rows _ => ?_
    refine hunscored.bind fun results hresults => ?_
    refine (hscored results hresults).bind fun useCases huseCases => ?_
    refine (observes_dashboard _ _ _).finds.bind fun d _ => ?_
    refine Op.finds_get.bind fun engine hengine => Op.finds_pure ⟨?_, rfl, huseCases⟩
    rw [hengine]

/-- What is known of benefits on the assumptions of a report is true of the benefits in it. -/
theorem frame_assemble {e : Engine} {now : Instant} {reportId : String} {settings : ReportSettings}
    {research : Research} (h : e.assumptions.matured research.overview.dataMaturityLevel = .ok r)
    (hp : ∀ u ∈ research.useCases, (driverBenefits now u.benefits).Finds e.formulas r (p u)) :
    (e.run (assemble now reportId settings research)).2.assumptions = r ∧
      ∀ report, (e.run (assemble now reportId settings research)).1 = .ok report →
        report.assumptions = r.assumptions ∧
          r.value maturityId = .ok report.company.dataMaturityFactor ∧
          ∀ u ∈ report.useCases, p u.useCase u.benefits :=
  frame_of_stages h (finds_unscored hp) fun _ => finds_scored now _

theorem assumptions_assemble {e : Engine} {now : Instant} {reportId : String}
    {settings : ReportSettings} {research : Research}
    (h : e.assumptions.matured research.overview.dataMaturityLevel = .ok r) :
    (e.run (assemble now reportId settings research)).2.assumptions = r ∧
      ∀ report, (e.run (assemble now reportId settings research)).1 = .ok report →
        report.assumptions = r.assumptions ∧
          r.value maturityId = .ok report.company.dataMaturityFactor := by
  obtain ⟨hframe, hreport⟩ :=
    frame_assemble h (p := fun _ _ => True) fun _ _ => (observes_driverBenefits now _).finds
  exact ⟨hframe, fun report hok => ⟨(hreport report hok).1, (hreport report hok).2.1⟩⟩

end Appraisal.Engine
