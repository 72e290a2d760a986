import Appraisal.Proofs.Report.Flaws
import Appraisal.Proofs.Report.Frame

/-!
# Scores in a report

All use cases of a report are scored under the same weights, each next to the largest annual value
among them. The score for value and the one for time are on the scale from 0 to 100, and so is the
effort. How high a priority may be is up to the weights.
-/

namespace Appraisal

/-- Scores from 0 to 100, and a priority from 0 to a bound of its own. -/
structure Scoring.Bounded (top : Float) (s : Scoring) : Prop where
  value : 0 ≤ s.valueScore.value ∧ s.valueScore.value ≤ 100
  ttv : 0 ≤ s.ttvScore.value ∧ s.ttvScore.value ≤ 100
  effort : 0 ≤ s.effortScore ∧ s.effortScore ≤ 100
  priority : 0 ≤ s.priorityScore.value ∧ s.priorityScore.value ≤ top

theorem Scoring.Bounded.mono {top higher : Float} {s : Scoring} (h : s.Bounded top)
    (htop : top.isFinite = true) (hhigher : higher.isFinite = true) (hle : top ≤ higher) :
    s.Bounded higher where
  value := h.value
  ttv := h.ttv
  effort := h.effort
  priority := by
    obtain ⟨hzero, hpriority⟩ := h.priority
    have hfinite := isFinite_of_le_of_le rfl htop hzero hpriority
    rw [le_iff_toRat_le htop hhigher] at hle
    rw [le_iff_toRat_le hfinite htop] at hpriority
    exact ⟨hzero, (le_iff_toRat_le hfinite hhigher).2 (hpriority.trans hle)⟩

namespace UseCaseResult

/-- The largest annual value, at least 0. -/
def largestValue (useCases : List UseCaseResult) : Float :=
  (useCases.map (·.annualValue)).foldl Number.larger 0

theorem largestValue_singleton {u : UseCaseResult} (hfinite : u.annualValue.isFinite = true)
    (hpos : 0 < toRat u.annualValue) : largestValue [u] = u.annualValue := by
  have hlt : 0 < u.annualValue := by rwa [lt_iff_toRat_lt rfl hfinite, toRat_zero]
  simp [largestValue, Number.larger, hlt]

/-- What a report calculates for a use case under some factors and weights, next to use cases with
annual values up to `maxImpact`. -/
structure CalculatedUnder (k : Factors) (w : Weights) (maxImpact : Float) (u : UseCaseResult) :
    Prop where
  benefits : DriverBenefits.Of u.useCase.benefits k u.benefits
  scores : PriorityScores.Of (u.useCase.scoreInputs u.annualValue maxImpact) w
    ⟨u.scoring.valueScore, u.scoring.ttvScore, u.scoring.priorityScore⟩
  effort : u.scoring.effortScore = u.useCase.effort.score

namespace CalculatedUnder

variable {u : UseCaseResult} {k : Factors} {w : Weights} {maxImpact : Float}

theorem upTo_annualValue (h : u.CalculatedUnder k w maxImpact) (hvalid : u.useCase.Valid)
    (hshares : k.Shares) : UpTo u.annualValue u.annualValue :=
  (h.benefits.beneficial hvalid.ordinary hshares).total

/-- Every score is on its scale, but for the priority, which the best one bounds. -/
theorem bounded (h : u.CalculatedUnder k w maxImpact) (hvalid : u.useCase.Valid)
    (hshares : k.Shares) (hmax : UpTo maxImpact maxImpact) (hw : w.Percentages) :
    u.scoring.Bounded w.best := by
  have hinputs := hvalid.ordinary_scoreInputs (h.upTo_annualValue hvalid hshares) hmax
  have hbest := hw.upTo_best.isFinite
  have hvalue := h.scores.upTo_value hinputs
  have httv := h.scores.upTo_ttv hinputs
  have heffort : UpTo 100 u.scoring.effortScore := h.effort ▸ hvalid.upTo_score
  have hpriority : UpTo w.best u.scoring.priorityScore.value :=
    (h.scores.priority_usable hinputs hw).2 ▸ hw.priority_mono hvalue httv hvalid.upTo_ease hbest
  exact ⟨⟨hvalue.zero_le, hvalue.le_bound rfl⟩, ⟨httv.zero_le, httv.le_bound rfl⟩,
    ⟨heffort.zero_le, heffort.le_bound rfl⟩, ⟨hpriority.zero_le, hpriority.le_bound hbest⟩⟩

/-- A use case that has the largest value, and has it at once, is held back by its effort only. -/
theorem priority_of_largest (h : u.CalculatedUnder k w u.annualValue) (hvalid : u.useCase.Valid)
    (hfinite : u.annualValue.isFinite = true) (hpos : 0 < toRat u.annualValue)
    (hw : w.Percentages) (hmonths : u.useCase.effort.timeToValueMonths = 0) :
    u.priority = w.priority 100 100 u.useCase.effort.score := by
  have htotal := upTo_self hfinite hpos.le
  have hinputs := hvalid.ordinary_scoreInputs htotal htotal
  have hvalue : u.scoring.valueScore.value = 100 := by
    have houtcome : u.scoring.valueScore.Outcome
        (PriorityScores.percentage u.annualValue u.annualValue) := h.scores.value
    rw [PriorityScores.percentage_self hfinite hpos] at houtcome
    exact (houtcome.usable_of_finite rfl).2
  have httv : u.scoring.ttvScore.value = 100 := by
    have hremainder : u.scoring.ttvScore.value =
        PriorityScores.remainder (wholeMonths u.useCase.effort.timeToValueMonths) :=
      (h.scores.ttv_usable hinputs).2
    rw [hremainder, hmonths]
    decide +kernel
  have hpriority : u.priority = w.priority u.scoring.valueScore.value u.scoring.ttvScore.value
      u.useCase.effort.score := (h.scores.priority_usable hinputs hw).2
  rw [hpriority, hvalue, httv]

end CalculatedUnder

end UseCaseResult

namespace Engine

open UseCaseResult (CalculatedUnder largestValue)

variable {r : AssumptionRegistry} {k : Factors} {w : Weights}

theorem finds_scored_under (hw : Weights.Of r w) (now : Instant) (maxImpact : Float)
    {results : List Unscored}
    (h : ∀ s ∈ results, DriverBenefits.Of s.useCase.benefits k s.benefits) :
    (scored now maxImpact results).Finds .standard r fun useCases =>
      useCases.map (·.annualValue) = results.map (·.benefits.totalAnnualValue.value) ∧
        ∀ u ∈ useCases, u.CalculatedUnder k w maxImpact := by
  induction results with
  | nil => exact Op.finds_pure ⟨rfl, List.forall_mem_nil _⟩
  | cons s rest ih =>
    obtain ⟨hs, hrest⟩ := List.forall_mem_cons.1 h
    refine (finds_priority hw _ now).bind fun scores hscores => ?_
    refine (ih hrest).bind fun useCases ⟨hvalues, huseCases⟩ => Op.finds_pure ⟨?_, ?_⟩
    · rw [List.map_cons, List.map_cons, hvalues]
      rfl
    · exact List.forall_mem_cons.2 ⟨⟨hs, hscores, rfl⟩, huseCases⟩

/-- The use cases in a report on a standard session are calculated under the factors and weights
that the session has once the maturity is set. -/
theorem calculated_of_assemble {e : Engine} (he : e.formulas = .standard) {now : Instant}
    {reportId : String} {settings : ReportSettings} {research : Research}
    (h : e.assumptions.matured research.overview.dataMaturityLevel = .ok r)
    (hk : Factors.Of r k) (hshares : k.Shares) (hw : Weights.Of r w)
    (hvalid : ∀ u ∈ research.useCases, u.Valid) {report : Report}
    (hreport : (e.run (assemble now reportId settings research)).1 = .ok report) :
    ∀ u ∈ report.useCases, u.CalculatedUnder k w (largestValue report.useCases) := by
  have hunscored : (unscored now research.useCases).Finds .standard r fun results =>
      ∀ s ∈ results, DriverBenefits.Of s.useCase.benefits k s.benefits :=
    finds_unscored (p := fun u => DriverBenefits.Of u.benefits k)
      fun u hu => finds_driverBenefits hk hshares (hvalid u hu).ordinary now
  have hscored : ∀ results : List Unscored,
      (∀ s ∈ results, DriverBenefits.Of s.useCase.benefits k s.benefits) →
        (scored now (maxImpact results) results).Finds .standard r fun useCases =>
          ∀ u ∈ useCases, u.CalculatedUnder k w (largestValue useCases) := by
    refine fun results hresults => (finds_scored_under hw now _ hresults).imp ?_
    rintro useCases ⟨hvalues, hall⟩
    rwa [largestValue, hvalues]
  rw [← he] at hunscored hscored
  obtain ⟨-, -, hall⟩ := (frame_of_stages h hunscored hscored).2 report hreport
  exact hall

end Engine

end Appraisal
