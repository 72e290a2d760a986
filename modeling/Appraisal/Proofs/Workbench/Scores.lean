import Appraisal.Proofs.Report.Scores
import Appraisal.Proofs.Workbench.Reports

/-!
# Scores in reports of validated research

The weights of the priority are overridden one by one, and nothing brings their sum back to a
hundred. So a report that is accepted may show a priority above 100, and it does for some research
just if the best priority under the weights is above 100.
-/

namespace Appraisal

/-- The weights once assumptions are overridden: the last value for each, or the default. -/
def Weights.after (overrides : List AssumptionValue) : Weights where
  value := (lastValue? overrides "value_weight").getD 40
  ttv := (lastValue? overrides "ttv_weight").getD 30
  effort := (lastValue? overrides "effort_weight").getD 30

theorem Weights.of_matured {r : AssumptionRegistry} {overrides : List AssumptionValue}
    {level : Nat}
    (h : (AssumptionRegistry.withDefaults.edited .override overrides).matured level = .ok r) :
    Of r (after overrides) := by
  have hvalue (id : String) (hid : id ≠ maturityId) {x : Float}
      (hdefault : AssumptionRegistry.withDefaults.value id = .ok x) :
      r.value id = .ok ((lastValue? overrides id).getD x) := by
    rw [AssumptionRegistry.value_matured h hid]
    exact AssumptionRegistry.value_edited_override overrides hdefault
  exact ⟨hvalue _ (by decide) rfl, hvalue _ (by decide) rfl, hvalue _ (by decide) rfl⟩

/-- Factors far enough from 0 to leave something of a benefit. -/
structure Factors.Substantial (k : Factors) : Prop where
  revenue : UpTo k.revenue 0.5
  maturity : UpTo k.maturity 0.25

theorem Factors.Of.substantial {r : AssumptionRegistry} {k : Factors} (h : Of r k)
    (hr : r.Sound) : k.Substantial where
  revenue := hr.upTo_value h.revenue (by decide +kernel) rfl (by decide +kernel)
  maturity := hr.upTo_value h.maturity (by decide +kernel) rfl (by decide +kernel)

theorem DriverBenefits.Of.total_of_revenue {k : Factors} {b : DriverBenefits}
    (h : Of ⟨100000, 0, 0, 0⟩ k b) (hshares : k.Shares) (hk : k.Substantial) :
    b.totalAnnualValue.value.isFinite = true ∧ 0 < toRat b.totalAnnualValue.value := by
  have hzero : UpTo (0 : Float) 0 := upTo_zero toRat_zero.ge
  have hbase : UpTo (100000 : Float) 100000 :=
    .of_le rfl rfl (by decide +kernel) (by decide +kernel)
  have hrevenue := h.revenue.upTo hbase hshares.revenue hshares.maturity
  have hcost := h.cost.upTo hzero hshares.cost hshares.maturity
  have hcashFlow := h.cashFlow.upTo hzero hshares.cashFlow hshares.maturity
  have hrisk := h.risk.upTo hzero hshares.risk hshares.maturity
  have hzeros : toRat 100000 + toRat 0 ≤ toRat 100000 := by rw [toRat_zero, add_zero]
  have htwo := hrevenue.add hcost hzeros
  have hthree := htwo.add hcashFlow hzeros
  have htotal := hthree.add hrisk hzeros
  -- The same sums over the least benefit bound the total from below.
  have hlow : UpTo b.revenue.value (100000 * 0.5 * 0.25) := by
    have hproduct := (hbase.mul_share hshares.revenue).mul_share hshares.maturity
    rw [h.revenue.value]
    exact (hbase.mul_mono hk.revenue (isFinite_of_mul hproduct.isFinite).1).mul_mono hk.maturity
      hproduct.isFinite
  have hleast := ((hlow.add_mono (upTo_zero hcost.nonneg) htwo.isFinite).add_mono
    (upTo_zero hcashFlow.nonneg) hthree.isFinite).add_mono (upTo_zero hrisk.nonneg) htotal.isFinite
  have hpos : (0 : Float) < 100000 * 0.5 * 0.25 + 0 + 0 + 0 := by decide +kernel
  rw [lt_iff_toRat_lt rfl hleast.isFinite, toRat_zero] at hpos
  rw [(h.total.outcome.usable_of_finite htotal.isFinite).2]
  exact ⟨htotal.isFinite, hpos.trans_le hleast.le⟩

open UseCaseResult (largestValue)

/-- A report in which all use cases of a research are calculated under the same weights. -/
structure Report.ScoredUnder (research : Research) (w : Weights) (report : Report) : Prop where
  useCases : report.useCases.map (·.useCase) = research.useCases
  percentages : w.Percentages
  factors : ∃ k : Factors, k.Shares ∧ k.Substantial ∧
    ∀ u ∈ report.useCases, u.CalculatedUnder k w (largestValue report.useCases)

theorem Report.ScoredUnder.bounded {research : Research} {w : Weights} {report : Report}
    (h : report.ScoredUnder research w) (hvalid : ∀ u ∈ research.useCases, u.Valid) :
    ∀ u ∈ report.useCases, u.scoring.Bounded w.best := by
  obtain ⟨k, hshares, -, hall⟩ := h.factors
  have hvalid : ∀ u ∈ report.useCases, u.useCase.Valid := fun u hu =>
    hvalid _ (h.useCases ▸ List.mem_map_of_mem hu)
  have hvalues : ∀ u ∈ report.useCases, UpTo u.annualValue u.annualValue := fun u hu =>
    (hall u hu).upTo_annualValue (hvalid u hu) hshares
  have hmax := Number.upTo_foldl_larger (List.forall_mem_map.2 hvalues) (upTo_zero toRat_zero.ge)
  exact fun u hu => (hall u hu).bounded (hvalid u hu) hshares hmax h.percentages

namespace Workbench

theorem exists_scoredUnder (settings : Settings) (m : Moment) {research : Research}
    (hvalid : ∀ u ∈ research.useCases, u.Valid) {overrides : List AssumptionValue}
    (hadmitted : ∀ v ∈ overrides, AssumptionRegistry.withDefaults.admits v = true) :
    ∃ report, reportWith settings m overrides research = .ok report ∧
      report.ScoredUnder research (.after overrides) := by
  have hnew := Engine.standard_new m.now
  have hproblems := importProblems_withDefaults_eq_nil_iff.2 hadmitted
  obtain ⟨e, hoverridden, he⟩ := exists_overridden hnew m.now hproblems
  obtain ⟨r, hmatured, hr, -⟩ := he.sound.matured research.overview.dataMaturityLevel
  obtain ⟨k, hk, hshares⟩ := hr.exists_factors
  have hw : Weights.Of r (.after overrides) :=
    Weights.of_matured (assumptions_overridden hnew.sound hoverridden ▸ hmatured)
  obtain ⟨report, e', hrun, -, huseCases, -⟩ :=
    Engine.succeeds_assemble m.now m.freshId settings.report research e he
  have hcalculated := Engine.calculated_of_assemble he.formulas_eq hmatured hk hshares hw hvalid
    (congrArg Prod.fst hrun)
  refine ⟨report, ?_, huseCases, hw.percentages hr, k, hshares, hk.substantial hr, hcalculated⟩
  rw [reportWith, hoverridden, ok_bind, hrun]
  rfl

/-- A use case with a benefit, which is there at once, and with the least effort. -/
def bestUseCase (id : String) : UseCaseInput :=
  { leastUseCase id with
    dataReadiness := some 5, integrationComplexity := some 1, changeManagement := some 1
    timeToValueMonths := some 0 }

def bestResearch : ResearchInput :=
  { companyName := some "Company", overview := some ⟨none, none, none, none, some 3⟩
    frictionPoints := [], useCases := some [bestUseCase "a"] }

theorem validate_bestResearch : bestResearch.validate = .ok bestResearch.check.value :=
  if_pos (by decide +kernel)

theorem useCases_bestResearch :
    ∃ u, bestResearch.check.value.useCases = [u] ∧ u.benefits = ⟨100000, 0, 0, 0⟩ ∧
      u.effort.timeToValueMonths = 0 ∧ u.effort.score = 20 :=
  ⟨_, rfl, rfl, by decide +kernel, by decide +kernel⟩

theorem best_of_scoredUnder {w : Weights} {report : Report}
    (h : report.ScoredUnder bestResearch.check.value w) :
    ∃ u ∈ report.useCases, u.priority = w.best := by
  obtain ⟨first, hfirst, hbenefits, hmonths, heffort⟩ := useCases_bestResearch
  obtain ⟨u, hreport, rfl⟩ := List.map_eq_singleton_iff.1 (h.useCases.trans hfirst)
  have hu : u ∈ report.useCases := hreport ▸ List.mem_singleton_self u
  have hvalid : u.useCase.Valid :=
    ResearchInput.valid_of_validate validate_bestResearch _ (hfirst ▸ List.mem_singleton_self _)
  obtain ⟨k, hshares, hk, hall⟩ := h.factors
  have hcalculated := hall u hu
  obtain ⟨hfinite, hpos⟩ := (hbenefits ▸ hcalculated.benefits).total_of_revenue hshares hk
  rw [hreport, UseCaseResult.largestValue_singleton hfinite hpos] at hcalculated
  refine ⟨u, hu, ?_⟩
  rw [hcalculated.priority_of_largest hvalid hfinite hpos h.percentages hmonths, heffort]
  rfl

/-- Validated research and admitted overrides give a report in which every score for value, time and
effort is from 0 to 100, and every priority from 0 to the best one under the weights. There is
research that has this priority, so all priorities are on the scale from 0 to 100 just if it is. -/
theorem scores_of_validated (settings : Settings) (m : Moment) {overrides : List AssumptionValue}
    (hadmitted : ∀ v ∈ overrides, AssumptionRegistry.withDefaults.admits v = true) :
    let best := (Weights.after overrides).best
    (∀ (input : ResearchInput) (research : Research), input.validate = .ok research →
      ∃ report, reportWith settings m overrides research = .ok report ∧
        ∀ u ∈ report.useCases, u.scoring.Bounded best) ∧
    (∃ (input : ResearchInput) (research : Research), input.validate = .ok research ∧
      ∃ report, reportWith settings m overrides research = .ok report ∧
        ∃ u ∈ report.useCases, u.scoring.priorityScore.value = best) ∧
    ((∀ (input : ResearchInput) (research : Research) (report : Report),
      input.validate = .ok research → reportWith settings m overrides research = .ok report →
        ∀ u ∈ report.useCases, u.scoring.Bounded 100) ↔ best ≤ 100) := by
  intro best
  have hall (input : ResearchInput) (research : Research) (h : input.validate = .ok research) :
      ∃ report, reportWith settings m overrides research = .ok report ∧
        ∀ u ∈ report.useCases, u.scoring.Bounded best := by
    have hvalid := ResearchInput.valid_of_validate h
    obtain ⟨report, hreport, hscored⟩ := exists_scoredUnder settings m hvalid hadmitted
    exact ⟨report, hreport, hscored.bounded hvalid⟩
  obtain ⟨report, hreport, hscored⟩ := exists_scoredUnder settings m
    (ResearchInput.valid_of_validate validate_bestResearch) hadmitted
  obtain ⟨u, hu, hbest⟩ := best_of_scoredUnder hscored
  have hfinite : best.isFinite = true := hscored.percentages.upTo_best.isFinite
  refine ⟨hall, ⟨_, _, validate_bestResearch, report, hreport, u, hu, hbest⟩, fun h => ?_,
    fun hle input research report h hreport u hu => ?_⟩
  · exact hbest.symm.trans_le (h _ _ report validate_bestResearch hreport u hu).priority.2
  · obtain ⟨report', hreport', hbounded⟩ := hall input research h
    obtain rfl := Except.ok.inj (hreport.symm.trans hreport')
    exact (hbounded u hu).mono hfinite rfl hle

/-- The default weights leave some room below 100, as no use case is without effort. With more
weight on the value, and less on the effort, the best priority is 100. -/
theorem scores_of_validated_of_full_mark :
    let overrides : List AssumptionValue := [⟨"value_weight", 50⟩, ⟨"effort_weight", 25⟩]
    let research := bestResearch.check.value
    bestResearch.validate = .ok research ∧
      (∀ v ∈ overrides, AssumptionRegistry.withDefaults.admits v = true) ∧
      (Weights.after []).best = 94 ∧ (Weights.after overrides).best = 100 ∧
      ∃ report, reportWith .standard ⟨⟨0, 0⟩, "1"⟩ overrides research = .ok report ∧
        ∀ u ∈ report.useCases, u.scoring.Bounded 100 := by
  intro overrides research
  have hadmitted : ∀ v ∈ overrides, AssumptionRegistry.withDefaults.admits v = true := by
    decide +kernel
  have hbest : (Weights.after overrides).best = 100 := by decide +kernel
  obtain ⟨hall, -, -⟩ := scores_of_validated .standard ⟨⟨0, 0⟩, "1"⟩ hadmitted
  obtain ⟨report, hreport, hbounded⟩ := hall bestResearch research validate_bestResearch
  exact ⟨validate_bestResearch, hadmitted, by decide +kernel, hbest, report, hreport,
    hbest ▸ hbounded⟩

/-- With all three weights at 100 the best priority is 280. -/
theorem not_bounded_of_full_weights :
    let overrides : List AssumptionValue :=
      [⟨"value_weight", 100⟩, ⟨"ttv_weight", 100⟩, ⟨"effort_weight", 100⟩]
    let research := bestResearch.check.value
    bestResearch.validate = .ok research ∧
      (∀ v ∈ overrides, AssumptionRegistry.withDefaults.admits v = true) ∧
      ∃ report, reportWith .standard ⟨⟨0, 0⟩, "1"⟩ overrides research = .ok report ∧
        ∃ u ∈ report.useCases, u.scoring.priorityScore.value = 280 ∧ ¬ u.scoring.Bounded 100 := by
  intro overrides research
  have hadmitted : ∀ v ∈ overrides, AssumptionRegistry.withDefaults.admits v = true := by
    decide +kernel
  have hpriorities : (reportWith .standard ⟨⟨0, 0⟩, "1"⟩ overrides research).toOption.map
      (·.useCases.any fun u => decide (u.scoring.priorityScore.value = 280)) = some true := by
    decide +kernel
  obtain ⟨report, hreport, hany⟩ := Option.map_eq_some_iff.1 hpriorities
  obtain ⟨u, hu, hpriority⟩ := List.any_eq_true.1 hany
  have hpriority := of_decide_eq_true hpriority
  refine ⟨validate_bestResearch, hadmitted, report, toOption_eq_some_iff.1 hreport, u, hu,
    hpriority, fun hbounded => ?_⟩
  have hle := hbounded.priority.2
  rw [hpriority] at hle
  exact absurd hle (by decide +kernel)

end Workbench

end Appraisal
