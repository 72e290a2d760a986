import Appraisal.Proofs.Report.Flaws
import Appraisal.Proofs.Workbench.Reports

/-!
# Flaws in reports of validated research

A report passes flaws on only as long as there are none: what may fail in a report on validated
research is the total value of a use case, its monthly cost and its value score, and none of these
flaws reaches the priority or the annual cost.
-/

namespace Appraisal.Workbench

/-- In a report on validated research and admitted overrides, every value that is computed from a
flawed one is flawed just if no use case has a flawed total value, monthly cost or value score. The
totals of the dashboard and the payback period take over the flaws of what they are summed up from
in any case. -/
theorem passesFlawsOn_iff_flawless (settings : Settings) (m : Moment) {input : ResearchInput}
    {research : Research} (h : input.validate = .ok research) {overrides : List AssumptionValue}
    (hadmitted : ∀ v ∈ overrides, AssumptionRegistry.withDefaults.admits v = true) :
    ∃ report, reportWith settings m overrides research = .ok report ∧
      (report.PassesFlawsOn ↔ ∀ u ∈ report.useCases, u.Flawless) ∧
      ∀ u ∈ report.useCases, ∀ p ∈ u.summands report.dashboard, PassesFlaw p := by
  have hproblems := importProblems_withDefaults_eq_nil_iff.2 hadmitted
  obtain ⟨e, hoverridden, he⟩ := exists_overridden (Engine.standard_new m.now) m.now hproblems
  obtain ⟨report, e', hrun, -, hreport⟩ := Engine.succeeds_assemble_robust
    (ResearchInput.valid_of_validate h) m.now m.freshId settings.report e he
  refine ⟨report, ?_, Report.passesFlawsOn_iff fun u hu => (hreport u hu).1,
    fun u hu => (hreport u hu).2⟩
  rw [reportWith, hoverridden, ok_bind, hrun]
  rfl

/-- One use case with a benefit, under an override. -/
theorem passesFlawsOn_of_least_research :
    let input : ResearchInput :=
      { companyName := some "Company", overview := some ⟨none, none, none, none, some 3⟩
        frictionPoints := [], useCases := some [leastUseCase "a"] }
    let overrides : List AssumptionValue := [⟨"value_weight", 100⟩]
    input.validate = .ok input.check.value ∧
      (∀ v ∈ overrides, AssumptionRegistry.withDefaults.admits v = true) ∧
      ∃ report, reportWith .standard ⟨⟨0, 0⟩, "1"⟩ overrides input.check.value = .ok report ∧
        report.PassesFlawsOn := by
  intro input overrides
  have hproblems : input.check.problems.isEmpty = true := by decide +kernel
  have hvalidate : input.validate = .ok input.check.value :=
    ResearchInput.validate_eq_ok_iff.2 ⟨List.isEmpty_iff.1 hproblems, rfl⟩
  have hadmitted : ∀ v ∈ overrides, AssumptionRegistry.withDefaults.admits v = true := by
    decide +kernel
  obtain ⟨report, hreport, hiff, -⟩ :=
    passesFlawsOn_iff_flawless .standard ⟨⟨0, 0⟩, "1"⟩ hvalidate hadmitted
  refine ⟨hvalidate, hadmitted, report, hreport, hiff.2 fun u hu => ?_⟩
  have hflaws : (reportWith .standard ⟨⟨0, 0⟩, "1"⟩ overrides input.check.value).toOption.map
      (·.useCases.all fun u => u.benefits.totalAnnualValue.isOk && u.tokenCosts.monthlyCost.isOk &&
        u.scoring.valueScore.isOk) = some true := by
    decide +kernel
  rw [hreport] at hflaws
  have hall := List.all_eq_true.1 (Option.some.inj hflaws) u hu
  simp only [Bool.and_eq_true, CalculatedValue.isOk, Option.isNone_iff_eq_none] at hall
  exact ⟨hall.1.1, hall.1.2, hall.2⟩

/-- A use case without a benefit has no value score, as there is no largest value to compare with.
It still has a priority without a flaw. -/
theorem not_passesFlawsOn_without_benefits :
    let input : ResearchInput :=
      { companyName := some "Company", overview := some ⟨none, none, none, none, some 3⟩
        frictionPoints := []
        useCases := some [{ leastUseCase "a" with revenueImpact := some 0 }] }
    input.validate = .ok input.check.value ∧
      ∃ report, reportWith .standard ⟨⟨0, 0⟩, "1"⟩ [] input.check.value = .ok report ∧
        (∃ u ∈ report.useCases, u.scoring.valueScore.flaw = some .nonFinite ∧
          u.scoring.priorityScore.flaw = none) ∧
        ¬ report.PassesFlawsOn := by
  intro input
  have hproblems : input.check.problems.isEmpty = true := by decide +kernel
  have hvalidate : input.validate = .ok input.check.value :=
    ResearchInput.validate_eq_ok_iff.2 ⟨List.isEmpty_iff.1 hproblems, rfl⟩
  have hflaws : (reportWith .standard ⟨⟨0, 0⟩, "1"⟩ [] input.check.value).toOption.map
      (·.useCases.map fun u => (u.scoring.valueScore.flaw, u.scoring.priorityScore.flaw)) =
        some [(some .nonFinite, none)] := by
    decide +kernel
  obtain ⟨report, hreport⟩ : ∃ report,
      reportWith .standard ⟨⟨0, 0⟩, "1"⟩ [] input.check.value = .ok report := by
    cases hresult : reportWith .standard ⟨⟨0, 0⟩, "1"⟩ [] input.check.value with
    | ok report => exact ⟨report, rfl⟩
    | error problem =>
      rw [hresult] at hflaws
      cases hflaws
  rw [hreport] at hflaws
  have hflaws : report.useCases.map (fun u =>
      (u.scoring.valueScore.flaw, u.scoring.priorityScore.flaw)) = [(some .nonFinite, none)] :=
    Option.some.inj hflaws
  obtain ⟨u, hu, hflaw⟩ := List.mem_map.1 (hflaws ▸ List.mem_singleton_self _)
  obtain ⟨hvalue, hpriority⟩ := Prod.mk.inj hflaw
  refine ⟨hvalidate, report, hreport, ⟨u, hu, hvalue, hpriority⟩, fun hpasses => ?_⟩
  have hdependency : (u.scoring.valueScore, u.scoring.priorityScore) ∈ report.dependencies :=
    List.mem_append_left _ (List.mem_flatMap.2 ⟨u, hu,
      List.mem_append_left _ (by simp [UseCaseResult.dependencies])⟩)
  exact hpasses _ hdependency (by rw [hvalue]; exact Option.some_ne_none _) hpriority

end Appraisal.Workbench
