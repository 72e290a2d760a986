import Appraisal.Proofs.Report.Flaws
import Appraisal.Proofs.Report.Frame
import Appraisal.Proofs.Report.PointEstimates
import Appraisal.Proofs.Workbench.Reports

/-!
# Reports and analyses on the same numbers

A report multiplies every estimate by its two factors and adds up the benefits, an analysis adds up
before it multiplies by the maturity factor. The estimates and the factors are the same ones in
both. What is not promised is that the results are equal: each way rounds on its own, and each may
overflow where the other one does not.
-/

namespace Appraisal

/-- The benefits in a report on a standard session are calculated from the estimates of the research
and the factors that the session has once the maturity is set. -/
theorem Engine.benefits_of_assemble {e : Engine} {r : AssumptionRegistry}
    (he : e.formulas = .standard) {now : Instant} {reportId : String} {settings : ReportSettings}
    {research : Research}
    (h : e.assumptions.matured research.overview.dataMaturityLevel = .ok r) {k : Factors}
    (hk : Factors.Of r k) (hshares : k.Shares) (hvalid : ∀ u ∈ research.useCases, u.Valid)
    {report : Report} (hreport : (e.run (assemble now reportId settings research)).1 = .ok report) :
    ∀ u ∈ report.useCases, DriverBenefits.Of u.useCase.benefits k u.benefits := by
  obtain ⟨-, hall⟩ := frame_assemble h (p := fun u => DriverBenefits.Of u.benefits k) fun u hu => by
    rw [he]
    exact finds_driverBenefits hk hshares (hvalid u hu).ordinary now
  exact (hall report hreport).2.2

namespace Workbench

open Uncertainty (pointInputs pointValue)

variable {input : ResearchInput} {research : Research}

/-- For validated research there are factors with which both the benefits of a report and the point
estimates of an analysis are calculated, each from the estimates of the use case. The total of a
report is the sum of the four benefits, unless the sum is not finite. -/
theorem shared_numbers_of_validated (settings : Settings) (h : input.validate = .ok research)
    (m m' : Moment) (options : UncertaintyOptions) :
    ∃ report k, reportOf settings m research = .ok report ∧
      report.useCases.map (·.useCase) = research.useCases ∧
      k.maturity = maturityFactor research.overview.dataMaturityLevel ∧
      ∀ (i : Nat) (r : UseCaseResult), report.useCases[i]? = some r →
        let raw := r.useCase.benefits
        DriverBenefits.Of raw k r.benefits ∧
          ∃ point,
            ((Engine.new m'.now).run
              (pointValue m'.now research.overview.dataMaturityLevel r.useCase)).1 = .ok point ∧
            point.Evaluated (pointInputs raw k)
              ((raw.revenue * k.revenue + raw.cost * k.cost + raw.cashFlow * k.cashFlow
                + raw.risk * k.risk) * k.maturity) ∧
            ∀ analysis, analysisOf settings m' options research = .ok analysis →
              ∃ o, analysis.opportunities[i]? = some o ∧ o.pointEstimate = point.value := by
  obtain ⟨r, hmatured, hr, hmaturity⟩ :=
    Engine.matured_new m.now research.overview.dataMaturityLevel
  obtain ⟨k, hk, hshares⟩ := hr.exists_factors
  obtain ⟨report, e', hrun, -, huseCases, -⟩ :=
    Engine.succeeds_assemble m.now m.freshId settings.report research _
      (Engine.standard_new m.now)
  have hreport := congrArg Prod.fst hrun
  have hbenefits := Engine.benefits_of_assemble (e := Engine.new m.now) rfl hmatured hk hshares
    (ResearchInput.valid_of_validate h) hreport
  refine ⟨report, k, by rw [reportOf, hreport]; rfl, huseCases,
    Except.ok.inj (hk.maturity.symm.trans hmaturity), fun i r hr => ?_⟩
  refine ⟨hbenefits r (List.mem_of_getElem? hr), ?_⟩
  -- The two sessions differ in their clocks only.
  obtain ⟨point, hpoint, hevaluated⟩ :=
    Uncertainty.exists_pointValue (e := Engine.new m'.now) rfl hmatured hk m'.now r.useCase
  refine ⟨point, hpoint, hevaluated, fun analysis hanalysis => ?_⟩
  have hu : research.useCases[i]? = some r.useCase := by
    rw [← huseCases, List.getElem?_map, hr]
    rfl
  obtain ⟨o, point', ho, hpoint', hestimate⟩ :=
    Uncertainty.pointEstimate_of_analyze (mapError_eq_ok_iff.1 hanalysis) hu
  obtain rfl := Except.ok.inj (hpoint.symm.trans hpoint')
  exact ⟨o, ho, hestimate⟩

/-- The settings allow one sample, and the analysis is made later than the report. -/
theorem shared_numbers_of_least_research :
    let input : ResearchInput :=
      { companyName := some "Company", overview := some ⟨none, none, none, none, some 3⟩
        frictionPoints := [], useCases := some [leastUseCase "a"] }
    let research := input.check.value
    let settings : Settings := { Settings.standard with sampling := ⟨1, 1, 1, 7⟩ }
    input.validate = .ok research ∧
      ∃ report analysis, reportOf settings ⟨⟨0, 0⟩, "1"⟩ research = .ok report ∧
        analysisOf settings ⟨⟨9, 0⟩, "2"⟩ ⟨none, none⟩ research = .ok analysis ∧
        ∀ (i : Nat) (r : UseCaseResult), report.useCases[i]? = some r →
          ∃ (o : OpportunityUncertainty) (point : CalculatedValue),
            analysis.opportunities[i]? = some o ∧ o.pointEstimate = point.value ∧
            r.benefits.revenue.inputs.get? "baseBenefit" = some 100000 ∧
            point.inputs.get? "revenueBase" = some 100000 ∧
            r.benefits.revenue.inputs.get? "dataMaturityFactor" = some 0.75 ∧
            point.inputs.get? "dataMaturityFactor" = some 0.75 := by
  intro input research settings
  have hproblems : input.check.problems.isEmpty = true := by decide +kernel
  have hvalidate : input.validate = .ok research :=
    ResearchInput.validate_eq_ok_iff.2 ⟨List.isEmpty_iff.1 hproblems, rfl⟩
  have hlevel : maturityFactor research.overview.dataMaturityLevel = 0.75 := by decide +kernel
  have hrevenue : ∀ u ∈ research.useCases, u.benefits.revenue = 100000 := by decide +kernel
  have hanswered : (analysisOf settings ⟨⟨9, 0⟩, "2"⟩ ⟨none, none⟩ research).isOk = true := by
    decide +kernel
  obtain ⟨analysis, hanalysis⟩ := exists_of_isOk hanswered
  obtain ⟨report, k, hreport, huseCases, hmaturity, hall⟩ :=
    shared_numbers_of_validated settings hvalidate ⟨⟨0, 0⟩, "1"⟩ ⟨⟨9, 0⟩, "2"⟩ ⟨none, none⟩
  refine ⟨hvalidate, report, analysis, hreport, hanalysis, fun i r hr => ?_⟩
  obtain ⟨hbenefits, point, -, hevaluated, hestimates⟩ := hall i r hr
  obtain ⟨o, ho, hestimate⟩ := hestimates analysis hanalysis
  have hbase : r.useCase.benefits.revenue = 100000 :=
    hrevenue _ (huseCases ▸ List.mem_map_of_mem (List.mem_of_getElem? hr))
  have hfactor : k.maturity = 0.75 := hmaturity.trans hlevel
  rw [← hbase, ← hfactor]
  refine ⟨o, point, ho, hestimate, ?_, ?_, ?_, ?_⟩
  · exact hbenefits.revenue.inputs ("baseBenefit", _) (by simp)
  · exact hevaluated.inputs ("revenueBase", _) (by simp [pointInputs])
  · exact hbenefits.revenue.inputs ("dataMaturityFactor", _) (by simp)
  · exact hevaluated.inputs ("dataMaturityFactor", _) (by simp [pointInputs])

/-- Each of four estimates of 1.7e308 has a finite benefit, but the sum of these is not finite, so
the total is 0. -/
theorem total_ne_sum_of_validated :
    let input : ResearchInput :=
      { companyName := some "Company", overview := some ⟨none, none, none, none, some 3⟩
        frictionPoints := [], useCases := some [hugeUseCase "a"] }
    input.validate = .ok input.check.value ∧
      ∃ report, reportOf .standard ⟨⟨0, 0⟩, "1"⟩ input.check.value = .ok report ∧
        ∃ r ∈ report.useCases,
          let b := r.benefits
          b.totalAnnualValue.value = 0 ∧ b.totalAnnualValue.flaw = some .nonFinite ∧
            b.totalAnnualValue.value ≠
              b.revenue.value + b.cost.value + b.cashFlow.value + b.risk.value := by
  intro input
  have hproblems : input.check.problems.isEmpty = true := by decide +kernel
  have htotals : (reportOf .standard ⟨⟨0, 0⟩, "1"⟩ input.check.value).toOption.map
      (·.useCases.any fun r =>
        let b := r.benefits
        decide (b.totalAnnualValue.value = 0 ∧ b.totalAnnualValue.flaw = some .nonFinite ∧
          b.totalAnnualValue.value ≠
            b.revenue.value + b.cost.value + b.cashFlow.value + b.risk.value)) = some true := by
    decide +kernel
  obtain ⟨report, hreport, hany⟩ := Option.map_eq_some_iff.1 htotals
  obtain ⟨r, hr, htotal⟩ := List.any_eq_true.1 hany
  exact ⟨if_pos hproblems, report, toOption_eq_some_iff.1 hreport, r, hr, of_decide_eq_true htotal⟩

end Workbench

end Appraisal
