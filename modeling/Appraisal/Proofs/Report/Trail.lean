import Appraisal.Proofs.Engine.Logging
import Appraisal.Proofs.Report.Assembly

/-!
# What the stages of a report record

Every stage records one evaluation for each value that it puts into the report. The dashboard also
records its six sums; a benefit sum without a flaw is evaluated once more, when it is rounded.
-/

namespace Appraisal

open Audit (Event)

namespace Engine.Unscored

def values (r : Unscored) : List CalculatedValue :=
  r.benefits.values ++ r.tokenCosts.values ++ r.hoursSavedValue.toList

end Engine.Unscored

def Scoring.values (s : Scoring) : List CalculatedValue :=
  [s.valueScore, s.ttvScore, s.priorityScore]

namespace UseCaseResult

/-- The result without its scores. -/
def unscored (r : UseCaseResult) : Engine.Unscored :=
  ⟨r.useCase, r.benefits, r.tokenCosts, r.hoursSavedValue⟩

def values (r : UseCaseResult) : List CalculatedValue :=
  r.unscored.values ++ r.scoring.values

end UseCaseResult

namespace Dashboard

def ratios (d : Dashboard) : List CalculatedValue :=
  [d.valuePerMillionTokens, d.roi, d.paybackPeriod]

/-- The totals, each with the label of the sum that it comes from. -/
def totals (d : Dashboard) : List (String × CalculatedValue) :=
  [("totalRevenueBenefit", d.totalRevenueBenefit), ("totalCostBenefit", d.totalCostBenefit),
   ("totalCashFlowBenefit", d.totalCashFlowBenefit), ("totalRiskBenefit", d.totalRiskBenefit),
   ("totalAnnualValue", d.totalAnnualValue), ("totalAnnualTokenCost", d.totalAnnualTokenCost)]

end Dashboard

namespace Report

/-- All calculated values but for the totals of the dashboard. -/
def evaluated (r : Report) : List CalculatedValue :=
  r.company.frictionTable.map (·.annualBurden) ++ r.useCases.flatMap (·.values) ++
    r.dashboard.ratios

end Report

/-- The benefits that the dashboard sums up. -/
def DriverBenefits.figures : List (DriverBenefits → CalculatedValue) :=
  [(·.revenue), (·.cost), (·.cashFlow), (·.risk), (·.totalAnnualValue)]

/-- The benefit sums over use cases, before they are rounded. -/
def Engine.benefitSums (now : Instant) (useCases : List UseCaseResult) :
    List (Except EngineError CalculatedValue) :=
  DriverBenefits.figures.map fun figure =>
    sumOf now (useCases.map fun r => (r.id, figure r.benefits)) .usdPerYear

/-- How many values are calculated for a use case: five benefits, two token costs, three scores and
the value of the hours saved if that is estimated. -/
def UseCase.evaluations (u : UseCase) : Nat :=
  if u.hoursSaved.isSome ∧ u.hourlyRate.isSome then 11 else 10

namespace Engine

variable {now : Instant}

theorem logs_hoursValue (now : Instant) (hours rate adoption : Float) :
    (hoursValue now hours rate adoption).Logs now fun v events => events = [evaluation v] :=
  (logs_evaluateFormula (f := .hoursSavedValue) rfl now _).imp fun _ _ h => h.1

theorem logs_frictionTable (now : Instant) (points : List FrictionPoint) :
    (frictionTable now points).Logs now fun rows events =>
      events = (rows.map (·.annualBurden)).map evaluation := by
  induction points with
  | nil => exact Op.logs_pure rfl
  | cons f fs ih =>
    refine (logs_hoursValue now _ _ _).bind ?_
    rintro burden _ rfl
    refine ih.bind ?_
    rintro rows _ rfl
    exact Op.logs_pure (by simp)

theorem logs_hoursSaved (now : Instant) (u : UseCase) :
    (hoursSaved now u).Logs now fun v events =>
      events = v.toList.map evaluation ∧
        v.toList.length = if u.hoursSaved.isSome ∧ u.hourlyRate.isSome then 1 else 0 := by
  have hvalue (hours rate adoption : Float) :
      Op.Logs (do return some (← hoursValue now hours rate adoption)) now fun v events =>
        events = v.toList.map evaluation ∧ v.toList.length = 1 := by
    refine (logs_hoursValue now hours rate adoption).bind ?_
    rintro v _ rfl
    exact Op.logs_pure ⟨rfl, rfl⟩
  rw [hoursSaved]
  cases u.hoursSaved with
  | none => exact Op.logs_pure ⟨rfl, by simp⟩
  | some hours =>
    cases u.hourlyRate with
    | none => exact Op.logs_pure ⟨rfl, by simp⟩
    | some rate =>
      cases u.adoptionRate with
      | some adoption => exact hvalue hours rate adoption
      | none =>
        refine (logs_value now (by decide)).bind ?_
        rintro adoption _ rfl
        exact hvalue hours rate adoption

theorem logs_unscored (now : Instant) (useCases : List UseCase) :
    (unscored now useCases).Logs now fun results events =>
      events = (results.flatMap (·.values)).map evaluation ∧
        results.map (·.values.length + 3) = useCases.map (·.evaluations) := by
  induction useCases with
  | nil => exact Op.logs_pure ⟨rfl, rfl⟩
  | cons u us ih =>
    refine (logs_driverBenefits now u.benefits).bind ?_
    rintro benefits _ rfl
    refine (logs_tokenCosts now u.tokens).bind ?_
    rintro costs _ rfl
    refine (logs_hoursSaved now u).bind ?_
    rintro hours _ ⟨rfl, hlength⟩
    refine ih.bind ?_
    rintro results _ ⟨rfl, hresults⟩
    refine Op.logs_pure ⟨by simp [Unscored.values], ?_⟩
    rw [List.map_cons, List.map_cons, hresults, UseCase.evaluations]
    simp only [Unscored.values, DriverBenefits.values, TokenCosts.values, List.length_append,
      hlength]
    split_ifs <;> rfl

theorem logs_scored (now : Instant) (maxImpact : Float) (results : List Unscored) :
    (scored now maxImpact results).Logs now fun useCases events =>
      events = (useCases.flatMap (·.scoring.values)).map evaluation ∧
        useCases.map (·.unscored) = results := by
  induction results with
  | nil => exact Op.logs_pure ⟨rfl, rfl⟩
  | cons r rs ih =>
    refine (logs_priority now _).bind ?_
    rintro scores _ rfl
    refine ih.bind ?_
    rintro useCases _ ⟨rfl, huseCases⟩
    refine Op.logs_pure ⟨by simp [Scoring.values, PriorityScores.values], ?_⟩
    rw [List.map_cons, huseCases]
    rfl

/-- What rounding a total records: the rounded total, unless the total is flawed and stays as it
is. -/
structure Rounds (total : CalculatedValue) (rounded : CalculatedValue) (events : List Event) :
    Prop where
  tally : Tally events (if total.isOk then 1 else 0) 0
  told : rounded = total ∨ evaluation rounded ∈ events ∧ rounded.formulaId ≠ aggregationId

theorem logs_floorTotal (now : Instant) (increment : Float) (total : CalculatedValue) :
    (floorTotal now increment total).Logs now (Rounds total) := by
  rw [floorTotal]
  split
  · next hok =>
    refine (logs_evaluateFormula (f := .floorToIncrement) rfl now _).imp ?_
    rintro rounded _ ⟨rfl, hid⟩
    refine ⟨by simpa [hok] using tally_evaluations [rounded], .inr ⟨by simp, ?_⟩⟩
    rw [hid]
    decide
  · next hflawed =>
    exact Op.logs_pure ⟨by simpa [hflawed] using tally_evaluations [], .inl rfl⟩

/-- A total is told by its evaluation, or by the sum that it still is. -/
def ToldIn (events : List Event) (label : String) (v : CalculatedValue) : Prop :=
  v.formulaId ≠ aggregationId ∧ evaluation v ∈ events ∨
    v.formulaId = aggregationId ∧ ∃ size, aggregation label size .usdPerYear v ∈ events

theorem formulaId_sumOf {terms : List (String × CalculatedValue)} {target : Measure}
    {v : CalculatedValue} (h : sumOf now terms target = .ok v) : v.formulaId = aggregationId := by
  obtain ⟨converted, -, h⟩ := bind_eq_ok_iff.1 h
  split at h <;> cases h <;> rfl

theorem logs_sumOver (now : Instant) (label : String) (figure : UseCaseResult → CalculatedValue)
    {useCases : List UseCaseResult} (h : ∀ r ∈ useCases, (figure r).unit = .usdPerYear) :
    (sumOver now label figure useCases).Logs now fun v events =>
      events = [aggregation label useCases.length .usdPerYear v] ∧
        sumOf now (useCases.map fun r => (r.id, figure r)) .usdPerYear = .ok v := by
  have hterms : ∀ t ∈ useCases.map fun r => (r.id, figure r),
      t.2.unit.dimension = Measure.usdPerYear.dimension := by
    rw [List.forall_mem_map]
    intro r hr
    rw [h r hr]
  refine (logs_sumValues now label hterms).imp ?_
  rintro v _ ⟨rfl, hv⟩
  exact ⟨by rw [List.length_map], hv⟩

theorem Rounds.toldIn {total rounded : CalculatedValue} {events rounding : List Event}
    {label : String} (size : Nat) (h : Rounds total rounded rounding)
    (hid : total.formulaId = aggregationId)
    (htotal : aggregation label size .usdPerYear total ∈ events) (hsub : rounding ⊆ events) :
    ToldIn events label rounded := by
  obtain rfl | ⟨hmem, hne⟩ := h.told
  · exact .inr ⟨hid, size, htotal⟩
  · exact .inl ⟨hne, hsub hmem⟩

/-- What the dashboard records: three evaluations and one more for each benefit sum without a flaw,
and six sums. -/
structure DashboardRecord (now : Instant) (useCases : List UseCaseResult) (d : Dashboard)
    (events : List Event) : Prop where
  tally : ∃ sums : List CalculatedValue, benefitSums now useCases = sums.map .ok ∧
    Tally events (3 + sums.countP (·.isOk)) 6
  ratios : ∀ v ∈ d.ratios, evaluation v ∈ events
  totals : ∀ t ∈ d.totals, ToldIn events t.1 t.2

theorem logs_dashboard (now : Instant) (settings : ReportSettings)
    {useCases : List UseCaseResult} (h : ∀ r ∈ useCases, Yearly r.benefits r.tokenCosts) :
    (dashboard now settings useCases).Logs now (DashboardRecord now useCases) := by
  have hbenefit (figure : DriverBenefits → CalculatedValue)
      (hfigure : ∀ b : DriverBenefits, figure b ∈ b.values) (label : String) :=
    logs_sumOver now label (fun r => figure r.benefits) fun r hr =>
      (h r hr).1 _ (hfigure r.benefits)
  refine (hbenefit (·.revenue) (by simp [DriverBenefits.values]) _).bind ?_
  rintro revenue _ ⟨rfl, hrevenue⟩
  refine (hbenefit (·.cost) (by simp [DriverBenefits.values]) _).bind ?_
  rintro cost _ ⟨rfl, hcost⟩
  refine (hbenefit (·.cashFlow) (by simp [DriverBenefits.values]) _).bind ?_
  rintro cashFlow _ ⟨rfl, hcashFlow⟩
  refine (hbenefit (·.risk) (by simp [DriverBenefits.values]) _).bind ?_
  rintro risk _ ⟨rfl, hrisk⟩
  refine (hbenefit (·.totalAnnualValue) (by simp [DriverBenefits.values]) _).bind ?_
  rintro total _ ⟨rfl, htotal⟩
  refine (logs_sumOver now _ _ fun r hr => (h r hr).2).bind ?_
  rintro tokenCost _ ⟨rfl, htokenCost⟩
  refine (logs_value now (by decide)).bind ?_
  rintro ratio _ rfl
  refine (logs_evaluateFormula (f := .valuePerMillionTokens) rfl now _).bind ?_
  rintro perMillion _ ⟨rfl, -⟩
  refine (logs_evaluateFormula (f := .roiPercentage) rfl now _).bind ?_
  rintro roi _ ⟨rfl, -⟩
  refine (logs_evaluateFormula (f := .paybackPeriod) rfl now _).bind ?_
  rintro payback _ ⟨rfl, -⟩
  refine (logs_floorTotal now _ revenue).bind fun revenue' events₁ h₁ => ?_
  refine (logs_floorTotal now _ cost).bind fun cost' events₂ h₂ => ?_
  refine (logs_floorTotal now _ cashFlow).bind fun cashFlow' events₃ h₃ => ?_
  refine (logs_floorTotal now _ risk).bind fun risk' events₄ h₄ => ?_
  refine (logs_floorTotal now _ total).bind fun total' events₅ h₅ => ?_
  refine Op.logs_pure ⟨⟨[revenue, cost, cashFlow, risk, total], ?_, ?_⟩, ?_, ?_⟩
  · simp [benefitSums, DriverBenefits.figures, hrevenue, hcost, hcashFlow, hrisk, htotal]
  · have hsums := tally_aggregations useCases.length .usdPerYear
      [("totalRevenueBenefit", revenue), ("totalCostBenefit", cost),
       ("totalCashFlowBenefit", cashFlow), ("totalRiskBenefit", risk),
       ("totalAnnualValue", total), ("totalAnnualTokenCost", tokenCost)]
    have hratios := tally_evaluations [perMillion, roi, payback]
    have hrounding := h₁.tally.append (h₂.tally.append (h₃.tally.append (h₄.tally.append h₅.tally)))
    have htally := hsums.append (hratios.append hrounding)
    simpa [List.countP_cons, add_comm, add_left_comm] using htally
  · simp [Dashboard.ratios]
  · simp only [Dashboard.totals, List.forall_mem_cons]
    refine ⟨h₁.toldIn useCases.length (formulaId_sumOf hrevenue) (by simp) ?_,
      h₂.toldIn useCases.length (formulaId_sumOf hcost) (by simp) ?_,
      h₃.toldIn useCases.length (formulaId_sumOf hcashFlow) (by simp) ?_,
      h₄.toldIn useCases.length (formulaId_sumOf hrisk) (by simp) ?_,
      h₅.toldIn useCases.length (formulaId_sumOf htotal) (by simp) ?_,
      .inr ⟨formulaId_sumOf htokenCost, useCases.length, by simp⟩, List.forall_mem_nil _⟩ <;>
    · intro event hevent
      simp [hevent]

end Engine

end Appraisal
