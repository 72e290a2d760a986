import Appraisal.Proofs.Engine.Scores
import Appraisal.Proofs.Report.Trail
import Appraisal.Proofs.Research.Completeness

/-!
# Flaws in a report

A flawed value counts as 0 wherever a later one is computed from it. A sum looks at the flaws of its
terms; the formulas see only the 0, and most of them give a number again.
-/

namespace Appraisal

/-- What validation establishes of the numbers of a use case. -/
structure UseCase.Valid (u : UseCase) : Prop where
  revenue : IsAmount u.benefits.revenue
  cost : IsAmount u.benefits.cost
  cashFlow : IsAmount u.benefits.cashFlow
  risk : IsAmount u.benefits.risk
  dataReadiness : IsOnScale (.ofNat u.effort.dataReadiness)
  integrationComplexity : IsOnScale (.ofNat u.effort.integrationComplexity)
  changeManagement : IsOnScale (.ofNat u.effort.changeManagement)
  timeToValueMonths : IsAmount u.effort.timeToValueMonths
  inputTokensPerRun : IsAmount u.tokens.inputTokensPerRun
  outputTokensPerRun : IsAmount u.tokens.outputTokensPerRun
  runsPerMonth : IsAmount u.tokens.runsPerMonth

theorem hasAmount_some {x : Float} (h : HasAmount (some x)) : IsAmount x := by
  obtain ⟨y, hy, hamount⟩ := h
  cases hy
  exact hamount

theorem hasScale_some {x : Float} (h : HasScale (some x)) : IsOnScale x := by
  obtain ⟨y, hy, hscale⟩ := h
  cases hy
  exact hscale

theorem UseCaseInput.CopiedTo.valid {u : UseCaseInput} {r : UseCase} (h : u.CopiedTo r)
    (hu : u.Valid) : r.Valid where
  revenue := hasAmount_some (h.revenueImpact ▸ hu.revenueImpact)
  cost := hasAmount_some (h.costImpact ▸ hu.costImpact)
  cashFlow := hasAmount_some (h.cashFlowImpact ▸ hu.cashFlowImpact)
  risk := hasAmount_some (h.riskReduction ▸ hu.riskReduction)
  dataReadiness := hasScale_some (h.dataReadiness ▸ hu.dataReadiness)
  integrationComplexity := hasScale_some (h.integrationComplexity ▸ hu.integrationComplexity)
  changeManagement := hasScale_some (h.changeManagement ▸ hu.changeManagement)
  timeToValueMonths := hasAmount_some (h.timeToValueMonths ▸ hu.timeToValueMonths)
  inputTokensPerRun := hasAmount_some (h.inputTokensPerRun ▸ hu.inputTokensPerRun)
  outputTokensPerRun := hasAmount_some (h.outputTokensPerRun ▸ hu.outputTokensPerRun)
  runsPerMonth := hasAmount_some (h.runsPerMonth ▸ hu.runsPerMonth)

/-- What holds of the copies of valid use cases holds of all use cases of a research. -/
theorem ResearchInput.forall_of_validate {p : UseCase → Prop} {input : ResearchInput}
    {research : Research} (hp : ∀ u r, UseCaseInput.CopiedTo u r → u.Valid → p r)
    (h : input.validate = .ok research) : ∀ r ∈ research.useCases, p r := by
  obtain ⟨hproblems, rfl⟩ := validate_eq_ok_iff.1 h
  have hvalid : input.Valid := by
    rw [← valid_iff, ← paths_check, Checked.paths, hproblems, List.map_nil]
  obtain ⟨us, hus, -, hall, -⟩ := hvalid.useCases
  obtain ⟨us', hus', hcopied⟩ := (copiedTo_check hproblems).useCases
  obtain rfl : us = us' := Option.some.inj (hus.symm.trans hus')
  clear hus hus'
  generalize input.check.value.useCases = rs at hcopied ⊢
  induction hcopied with
  | nil => exact List.forall_mem_nil _
  | cons hr _ ih =>
    obtain ⟨hu, hall⟩ := List.forall_mem_cons.1 hall
    exact List.forall_mem_cons.2 ⟨hp _ _ hr hu, ih hall⟩

theorem ResearchInput.valid_of_validate {input : ResearchInput} {research : Research}
    (h : input.validate = .ok research) : ∀ u ∈ research.useCases, u.Valid :=
  forall_of_validate (fun _ _ hcopied hu => hcopied.valid hu) h

theorem IsAmount.upTo {x : Float} (h : IsAmount x) : UpTo x x := by
  have hzero := h.2
  rw [le_iff_toRat_le rfl h.1, toRat_zero] at hzero
  exact upTo_self h.1 hzero

theorem UseCase.Valid.ordinary {u : UseCase} (h : u.Valid) : u.benefits.Ordinary :=
  ⟨h.revenue.upTo, h.cost.upTo, h.cashFlow.upTo, h.risk.upTo⟩

theorem UseCase.Valid.score_bounds {u : UseCase} (h : u.Valid) :
    u.effort.score.isFinite = true ∧ 20 ≤ u.effort.score ∧ u.effort.score ≤ 100 := by
  obtain ⟨a, ha₁, ha₅, ha⟩ := h.dataReadiness
  obtain ⟨b, hb₁, hb₅, hb⟩ := h.integrationComplexity
  obtain ⟨c, hc₁, hc₅, hc⟩ := h.changeManagement
  have hall : ∀ a ∈ List.range 6, ∀ b ∈ List.range 6, ∀ c ∈ List.range 6, 1 ≤ a → 1 ≤ b → 1 ≤ c →
      let score : Float := (6 - Float.ofNat a + Float.ofNat b + Float.ofNat c) / 3 * 20
      score.isFinite = true ∧ 20 ≤ score ∧ score ≤ 100 := by
    decide +kernel
  have hscore := hall a (List.mem_range.2 (by omega)) b (List.mem_range.2 (by omega)) c
    (List.mem_range.2 (by omega)) ha₁ hb₁ hc₁
  rwa [← ha, ← hb, ← hc] at hscore

theorem UseCase.Valid.upTo_score {u : UseCase} (h : u.Valid) : UpTo 100 u.effort.score := by
  obtain ⟨hfinite, hlow, hhigh⟩ := h.score_bounds
  rw [le_iff_toRat_le rfl hfinite, toRat_ofNat 20 (by norm_num)] at hlow
  rw [le_iff_toRat_le hfinite rfl] at hhigh
  exact ⟨hfinite, hlow.trans' (by norm_num), hhigh⟩

/-- No use case is without effort, so less than a hundred is left of it. -/
theorem UseCase.Valid.upTo_ease {u : UseCase} (h : u.Valid) :
    UpTo (100 - 20) (100 - u.effort.score) := by
  obtain ⟨hfinite, hlow, hhigh⟩ := h.score_bounds
  rw [le_iff_toRat_le rfl hfinite] at hlow
  rw [le_iff_toRat_le hfinite rfl] at hhigh
  refine (rounded_sub rfl hfinite).upTo_of_le ((rounded_sub rfl rfl).roundsTo rfl) ?_ ?_
  · linarith
  · linarith

/-- What the scores of a use case are computed from. -/
def UseCase.scoreInputs (u : UseCase) (totalImpact maxImpact : Float) : PriorityInputs where
  totalImpact := totalImpact
  maxImpact := maxImpact
  timeToValueMonths := wholeMonths u.effort.timeToValueMonths
  effortScore := u.effort.score

theorem UseCase.Valid.ordinary_scoreInputs {u : UseCase} (h : u.Valid)
    {totalImpact maxImpact : Float} (htotal : UpTo totalImpact totalImpact)
    (hmax : UpTo maxImpact maxImpact) : (u.scoreInputs totalImpact maxImpact).Ordinary := by
  have hmonths := h.timeToValueMonths.upTo
  obtain ⟨hfinite, hnonneg⟩ := Number.ceiling_nonneg hmonths.isFinite hmonths.nonneg
  exact ⟨htotal, hmax, upTo_self hfinite hnonneg, h.upTo_score⟩

namespace UseCaseResult

/-- The values of a use case, each with a value that is computed from it. -/
def dependencies (r : UseCaseResult) : List (CalculatedValue × CalculatedValue) :=
  [(r.benefits.revenue, r.benefits.totalAnnualValue),
   (r.benefits.cost, r.benefits.totalAnnualValue),
   (r.benefits.cashFlow, r.benefits.totalAnnualValue),
   (r.benefits.risk, r.benefits.totalAnnualValue),
   (r.tokenCosts.monthlyCost, r.tokenCosts.annualCost),
   (r.benefits.totalAnnualValue, r.scoring.priorityScore),
   (r.scoring.valueScore, r.scoring.priorityScore), (r.scoring.ttvScore, r.scoring.priorityScore)]

/-- The values of a use case, each with the total of the dashboard that is summed up from it, and
with the payback period that divides by the total value. -/
def summands (r : UseCaseResult) (d : Dashboard) : List (CalculatedValue × CalculatedValue) :=
  [(r.benefits.revenue, d.totalRevenueBenefit), (r.benefits.cost, d.totalCostBenefit),
   (r.benefits.cashFlow, d.totalCashFlowBenefit), (r.benefits.risk, d.totalRiskBenefit),
   (r.benefits.totalAnnualValue, d.totalAnnualValue),
   (r.tokenCosts.annualCost, d.totalAnnualTokenCost),
   (r.benefits.totalAnnualValue, d.paybackPeriod)]

/-- The total value and the token costs of a use case, with the ratios of the dashboard. -/
def ratioInputs (r : UseCaseResult) (d : Dashboard) : List (CalculatedValue × CalculatedValue) :=
  [r.benefits.totalAnnualValue, r.tokenCosts.monthlyCost, r.tokenCosts.annualCost] ×ˢ d.ratios

end UseCaseResult

namespace Report

/-- The values of a report, each with a value that is computed from it. A value score is computed
from the largest of all total values. -/
def dependencies (r : Report) : List (CalculatedValue × CalculatedValue) :=
  r.useCases.flatMap (fun u =>
      u.dependencies ++ (u.summands r.dashboard ++ u.ratioInputs r.dashboard)) ++
    r.useCases.map (·.benefits.totalAnnualValue) ×ˢ r.useCases.map (·.scoring.valueScore)

end Report

/-- A flaw of the first value is a flaw of the second. -/
def PassesFlaw (d : CalculatedValue × CalculatedValue) : Prop :=
  d.1.flaw ≠ none → d.2.flaw ≠ none

/-- What is computed from a flawed value is flawed. -/
def Report.PassesFlawsOn (r : Report) : Prop :=
  ∀ d ∈ r.dependencies, PassesFlaw d

/-- The total value, the monthly cost and the value score are the only values that may be flawed
among those from which others are computed. -/
structure UseCaseResult.Robust (r : UseCaseResult) : Prop where
  benefits : ∀ v ∈ [r.benefits.revenue, r.benefits.cost, r.benefits.cashFlow, r.benefits.risk],
    v.flaw = none
  annualCost : r.tokenCosts.annualCost.flaw = none
  ttvScore : r.scoring.ttvScore.flaw = none
  priorityScore : r.scoring.priorityScore.flaw = none

/-- Nothing from which another value of the report is computed is flawed. -/
structure UseCaseResult.Flawless (r : UseCaseResult) : Prop where
  totalAnnualValue : r.benefits.totalAnnualValue.flaw = none
  monthlyCost : r.tokenCosts.monthlyCost.flaw = none
  valueScore : r.scoring.valueScore.flaw = none

theorem PassesFlaw.eq_none {v w : CalculatedValue} (h : PassesFlaw (v, w)) (hw : w.flaw = none) :
    v.flaw = none :=
  not_not.1 fun hv => h hv hw

theorem PassesFlaw.trans {u v w : CalculatedValue} (h : PassesFlaw (u, v))
    (h' : PassesFlaw (v, w)) : PassesFlaw (u, w) :=
  fun hu => h' (h hu)

theorem UseCaseResult.eq_none_of_flawless {u : UseCaseResult} (hu : u.Robust) (h : u.Flawless)
    (d : Dashboard) : ∀ p ∈ u.dependencies ++ (u.summands d ++ u.ratioInputs d),
      p.1.flaw = none := by
  have hbenefits := hu.benefits
  simp only [List.forall_mem_cons, List.not_mem_nil, false_imp_iff, implies_true, and_true]
    at hbenefits
  obtain ⟨hrevenue, hcost, hcashFlow, hrisk⟩ := hbenefits
  simp [dependencies, summands, ratioInputs, Dashboard.ratios, hrevenue, hcost, hcashFlow, hrisk,
    h.totalAnnualValue, h.monthlyCost, h.valueScore, hu.annualCost, hu.ttvScore]

/-- A priority and an annual cost are never flawed, so a flaw of what they are computed from is not
passed on. -/
theorem Report.passesFlawsOn_iff {r : Report} (h : ∀ u ∈ r.useCases, u.Robust) :
    r.PassesFlawsOn ↔ ∀ u ∈ r.useCases, u.Flawless := by
  constructor
  · intro hpasses u hu
    have hown : ∀ d ∈ u.dependencies, PassesFlaw d := fun d hd =>
      hpasses d (List.mem_append_left _ (List.mem_flatMap.2 ⟨u, hu, List.mem_append_left _ hd⟩))
    simp only [UseCaseResult.dependencies, List.forall_mem_cons] at hown
    obtain ⟨-, -, -, -, hannual, htotal, hvalue, -, -⟩ := hown
    exact ⟨htotal.eq_none (h u hu).priorityScore, hannual.eq_none (h u hu).annualCost,
      hvalue.eq_none (h u hu).priorityScore⟩
  · intro hflawless d hd hflaw
    obtain hd | hd := List.mem_append.1 hd
    · obtain ⟨u, hu, hd⟩ := List.mem_flatMap.1 hd
      exact absurd (UseCaseResult.eq_none_of_flawless (h u hu) (hflawless u hu) _ d hd) hflaw
    · obtain ⟨htotal, -⟩ := List.mem_product.1 hd
      obtain ⟨u, hu, heq⟩ := List.mem_map.1 htotal
      exact absurd (heq ▸ (hflawless u hu).totalAnnualValue) hflaw

namespace Engine

variable {now : Instant}

/-- What is known of a use case before the scores. -/
structure Unscored.Robust (r : Unscored) : Prop where
  useCase : r.useCase.Valid
  benefits : Beneficial r.benefits
  annualCost : r.tokenCosts.annualCost.flaw = none

theorem succeeds_unscored_robust {useCases : List UseCase} (h : ∀ u ∈ useCases, u.Valid)
    (now : Instant) : (unscored now useCases).Succeeds fun results => ∀ r ∈ results, r.Robust := by
  induction useCases with
  | nil => exact Op.succeeds_pure (List.forall_mem_nil _)
  | cons u us ih =>
    obtain ⟨hu, hus⟩ := List.forall_mem_cons.1 h
    refine (succeeds_driverBenefits_beneficial hu.ordinary now).bind fun benefits hbenefits => ?_
    refine (succeeds_tokenCosts_usable hu.inputTokensPerRun.upTo hu.outputTokensPerRun.upTo
      hu.runsPerMonth.upTo now).bind fun costs hcosts => ?_
    refine (succeeds_hoursSaved now u).bind fun hours _ => ?_
    refine (ih hus).bind fun results hresults => Op.succeeds_pure ?_
    exact List.forall_mem_cons.2 ⟨⟨hu, hbenefits, hcosts⟩, hresults⟩

theorem upTo_maxImpact {results : List Unscored} (h : ∀ r ∈ results, r.Robust) :
    UpTo (maxImpact results) (maxImpact results) := by
  rw [maxImpact]
  exact Number.upTo_foldl_larger (List.forall_mem_map.2 fun r hr => (h r hr).benefits.total)
    (upTo_zero toRat_zero.ge)

theorem succeeds_scored_robust {results : List Unscored} {maxImpact : Float}
    (h : ∀ r ∈ results, r.Robust) (hmax : UpTo maxImpact maxImpact) (now : Instant) :
    (scored now maxImpact results).Succeeds fun useCases => ∀ u ∈ useCases, u.Robust := by
  induction results with
  | nil => exact Op.succeeds_pure (List.forall_mem_nil _)
  | cons r rs ih =>
    obtain ⟨hr, hrs⟩ := List.forall_mem_cons.1 h
    have hinputs := hr.useCase.ordinary_scoreInputs hr.benefits.total hmax
    refine (succeeds_priority_usable hinputs now).bind fun scores hscores => ?_
    refine (ih hrs).bind fun useCases huseCases => Op.succeeds_pure ?_
    exact List.forall_mem_cons.2
      ⟨⟨hr.benefits.usable, hr.annualCost, hscores.1, hscores.2⟩, huseCases⟩

theorem flaw_of_sumOf {terms : List (String × CalculatedValue)} {target : Measure}
    {v : CalculatedValue} (h : sumOf now terms target = .ok v) :
    (∀ t ∈ terms, PassesFlaw (t.2, v)) ∧ (v.flaw ≠ none → v.value = 0) := by
  obtain ⟨-, hflaw, hvalue⟩ | ⟨hterms, hflaw, -⟩ := sumOf_cases h
  · exact ⟨fun _ _ _ => hflaw, fun _ => hvalue⟩
  · exact ⟨fun t ht hflawed => absurd (hterms t ht) hflawed, fun hflawed => absurd hflaw hflawed⟩

theorem succeeds_sumOver_passes (label : String) (figure : UseCaseResult → CalculatedValue)
    {useCases : List UseCaseResult} (h : ∀ r ∈ useCases, (figure r).unit = .usdPerYear)
    (now : Instant) :
    (sumOver now label figure useCases).Succeeds fun v =>
      (∀ r ∈ useCases, PassesFlaw (figure r, v)) ∧ (v.flaw ≠ none → v.value = 0) := by
  refine (logs_sumOver now label figure h).succeeds.imp ?_
  rintro v ⟨events, -, hv⟩
  obtain ⟨hterms, hvalue⟩ := flaw_of_sumOf hv
  exact ⟨fun r hr => hterms _ (List.mem_map_of_mem hr), hvalue⟩

theorem succeeds_floorTotal_passes (now : Instant) (increment : Float) (total : CalculatedValue) :
    (floorTotal now increment total).Succeeds fun v => PassesFlaw (total, v) := by
  rw [floorTotal]
  split
  · next hok =>
    refine (succeeds_evaluateFormula (f := .floorToIncrement) rfl now _).imp fun _ _ hflaw => ?_
    exact absurd (Option.isNone_iff_eq_none.1 hok) hflaw
  · exact Op.succeeds_pure id

/-- Sums look at the flaws of their terms, and a total of 0 has no payback period. -/
theorem succeeds_dashboard_passes (settings : ReportSettings) {useCases : List UseCaseResult}
    (h : ∀ r ∈ useCases, Yearly r.benefits r.tokenCosts) (now : Instant) :
    (dashboard now settings useCases).Succeeds fun d =>
      ∀ r ∈ useCases, ∀ p ∈ r.summands d, PassesFlaw p := by
  have hbenefit (figure : DriverBenefits → CalculatedValue)
      (hfigure : ∀ b : DriverBenefits, figure b ∈ b.values) (label : String) :=
    succeeds_sumOver_passes label (fun r => figure r.benefits)
      (fun r hr => (h r hr).1 _ (hfigure r.benefits)) now
  refine (hbenefit (·.revenue) (by simp [DriverBenefits.values]) _).bind fun revenue hrevenue => ?_
  refine (hbenefit (·.cost) (by simp [DriverBenefits.values]) _).bind fun cost hcost => ?_
  refine (hbenefit (·.cashFlow) (by simp [DriverBenefits.values]) _).bind
    fun cashFlow hcashFlow => ?_
  refine (hbenefit (·.risk) (by simp [DriverBenefits.values]) _).bind fun risk hrisk => ?_
  refine (hbenefit (·.totalAnnualValue) (by simp [DriverBenefits.values]) _).bind
    fun total htotal => ?_
  refine (succeeds_sumOver_passes _ _ (fun r hr => (h r hr).2) now).bind
    fun tokenCost htokenCost => ?_
  refine (succeeds_value (by decide)).bind fun ratio _ => ?_
  refine (succeeds_evaluateFormula (f := .valuePerMillionTokens) rfl now _).bind fun _ _ => ?_
  refine (succeeds_evaluateFormula (f := .roiPercentage) rfl now _).bind fun _ _ => ?_
  refine (succeeds_outcome (f := .paybackPeriod) rfl now (by simp [Formula.paybackPeriod])).bind
    fun payback hpayback => ?_
  refine (succeeds_floorTotal_passes now _ revenue).bind fun revenue' hrevenue' => ?_
  refine (succeeds_floorTotal_passes now _ cost).bind fun cost' hcost' => ?_
  refine (succeeds_floorTotal_passes now _ cashFlow).bind fun cashFlow' hcashFlow' => ?_
  refine (succeeds_floorTotal_passes now _ risk).bind fun risk' hrisk' => ?_
  refine (succeeds_floorTotal_passes now _ total).bind fun total' htotal' => ?_
  refine Op.succeeds_pure fun r hr => ?_
  have hnoPayback : PassesFlaw (r.benefits.totalAnnualValue, payback) := by
    intro hflaw
    have hzero := htotal.2 (htotal.1 r hr hflaw)
    simp only [Formula.evaluate, Formula.paybackPeriod, Formula.read_ofPairs] at hpayback
    rw [Ne, hpayback.flaw_eq_none_iff, Bool.not_eq_true]
    change (_ / total.value).isFinite = false
    rw [hzero]
    exact isFinite_div_zero rfl toRat_zero
  simp only [UseCaseResult.summands, List.forall_mem_cons]
  exact ⟨(hrevenue.1 r hr).trans hrevenue', (hcost.1 r hr).trans hcost',
    (hcashFlow.1 r hr).trans hcashFlow', (hrisk.1 r hr).trans hrisk',
    (htotal.1 r hr).trans htotal', htokenCost.1 r hr, hnoPayback, List.forall_mem_nil _⟩

theorem succeeds_assemble_robust {research : Research} (h : ∀ u ∈ research.useCases, u.Valid)
    (now : Instant) (reportId : String) (settings : ReportSettings) :
    (assemble now reportId settings research).Succeeds fun report =>
      ∀ u ∈ report.useCases, u.Robust ∧ ∀ p ∈ u.summands report.dashboard, PassesFlaw p := by
  refine (succeeds_applyMaturity now _).bind fun factor _ => ?_
  refine (succeeds_frictionTable now _).bind fun rows _ => ?_
  refine ((succeeds_unscored now _).and (succeeds_unscored_robust h now)).bind
    fun results ⟨⟨_, hyearly⟩, hresults⟩ => ?_
  refine ((succeeds_scored now _ hyearly).and
    (succeeds_scored_robust hresults (upTo_maxImpact hresults) now)).bind
    fun useCases ⟨⟨_, hyearly⟩, huseCases⟩ => ?_
  refine (succeeds_dashboard_passes settings hyearly now).bind fun dashboard hdashboard => ?_
  refine Op.succeeds_get.bind fun e _ => ?_
  exact Op.succeeds_pure fun u hu => ⟨huseCases u hu, hdashboard u hu⟩

end Engine

end Appraisal
