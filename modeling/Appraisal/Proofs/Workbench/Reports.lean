import Appraisal.Proofs.Report.Assembly
import Appraisal.Proofs.Research.Validation
import Appraisal.Proofs.Workbench.BulkEdits

/-!
# Reports of validated research

Research that has passed its validation always gives a report. What can be refused is the payload or
an override, and that before the calculation has begun.
-/

namespace Appraisal

/-- A report has a result for every use case of a payload and a row for every point of friction, in
their order. -/
structure Report.Covers (report : Report) (input : ResearchInput) : Prop where
  useCases : ∃ given, input.useCases = some given ∧
    report.useCases.map (some ·.id) = given.map (·.id)
  frictionPoints :
    report.company.frictionTable.map (·.point.id) = input.frictionPoints.map (·.id)

namespace Workbench

open Engine (Standard importProblems updateAll)

variable {input : ResearchInput} {research : Research} {e : Engine}

theorem covers_of_members {report : Report} (h : input.validate = .ok research)
    (huseCases : report.useCases.map (·.useCase) = research.useCases)
    (hpoints : report.company.frictionTable.map (·.point) = research.frictionPoints) :
    report.Covers input := by
  obtain ⟨⟨given, hgiven, hids⟩, hpointIds⟩ := ResearchInput.members_of_validate h
  refine ⟨⟨given, hgiven, ?_⟩, ?_⟩
  · rw [← hids, ← huseCases, List.map_map]
    rfl
  · rw [← hpointIds, ← hpoints, List.map_map]
    rfl

theorem exists_assembled (he : e.Standard) (settings : Settings) (m : Moment)
    (h : input.validate = .ok research) :
    ∃ report, (e.run (Engine.assemble m.now m.freshId settings.report research)).1.mapError
        WorkbenchError.engine = .ok report ∧ report.Covers input := by
  obtain ⟨report, e', hrun, -, huseCases, hpoints⟩ :=
    Engine.succeeds_assemble m.now m.freshId settings.report research e he
  rw [hrun]
  exact ⟨report, rfl, covers_of_members h huseCases hpoints⟩

theorem exists_reportOf (settings : Settings) (m : Moment) (h : input.validate = .ok research) :
    ∃ report, reportOf settings m research = .ok report ∧ report.Covers input :=
  exists_assembled (Engine.standard_new m.now) settings m h

theorem importProblems_withDefaults_eq_nil_iff {overrides : List AssumptionValue} :
    importProblems .withDefaults overrides = [] ↔
      ∀ v ∈ overrides, AssumptionRegistry.withDefaults.admits v = true := by
  rw [Engine.importProblems_eq_nil_iff]
  exact forall₂_congr fun v _ => AssumptionRegistry.check_eq_ok_iff_admits

theorem exists_overridden (he : e.Standard) (now : Instant) {overrides : List AssumptionValue}
    (h : importProblems e.assumptions overrides = []) :
    ∃ e', overridden now overrides e = .ok e' ∧ e'.Standard := by
  obtain ⟨e', hrun, -⟩ := Engine.run_updateAll he.sound now (Engine.importProblems_eq_nil_iff.1 h)
  have hsteps := Engine.traced_updateAll now overrides e
  rw [hrun] at hsteps
  exact ⟨e', overridden_of_checked h hrun, hsteps.formulas_eq.trans he.formulas_eq,
    hsteps.sound he.sound⟩

theorem assumptions_overridden {e' : Engine} (he : e.assumptions.Sound) {now : Instant}
    {overrides : List AssumptionValue} (h : overridden now overrides e = .ok e') :
    e'.assumptions = e.assumptions.edited .override overrides := by
  by_cases hproblems : importProblems e.assumptions overrides = []
  · obtain ⟨changed, hrun, hassumptions⟩ :=
      Engine.run_updateAll he now (Engine.importProblems_eq_nil_iff.1 hproblems)
    obtain rfl := Except.ok.inj (h.symm.trans (overridden_of_checked hproblems hrun))
    exact hassumptions.trans (e.assumptions.writeAll_eq_edited .override (fun _ _ => rfl)
      (fun _ _ _ => rfl) overrides)
  · rw [overridden_of_not_checked now hproblems] at h
    cases h

theorem exists_reportWith (settings : Settings) (m : Moment) (h : input.validate = .ok research)
    {overrides : List AssumptionValue}
    (hadmitted : ∀ v ∈ overrides, AssumptionRegistry.withDefaults.admits v = true) :
    ∃ report, reportWith settings m overrides research = .ok report ∧ report.Covers input := by
  have hproblems := importProblems_withDefaults_eq_nil_iff.2 hadmitted
  obtain ⟨e', hoverridden, he'⟩ := exists_overridden (Engine.standard_new m.now) m.now hproblems
  rw [reportWith, hoverridden]
  exact exists_assembled he' settings m h

theorem reportWith_of_not_admitted (settings : Settings) (m : Moment) (research : Research)
    {overrides : List AssumptionValue}
    (hnot : ∃ v ∈ overrides, AssumptionRegistry.withDefaults.admits v = false) :
    ∃ problems, reportWith settings m overrides research = .error (.invalidUpdates problems) := by
  have hproblems : importProblems (Engine.new m.now).assumptions overrides ≠ [] := by
    intro hnil
    obtain ⟨v, hv, hrefused⟩ := hnot
    have hadmitted := importProblems_withDefaults_eq_nil_iff.1 hnil v hv
    simp [hrefused] at hadmitted
  rw [reportWith, overridden_of_not_checked m.now hproblems]
  exact ⟨_, rfl⟩

/-- A payload is research that has passed its validation, or refused as invalid. -/
theorem readResearch_cases (payload : Json) :
    (∃ (input : ResearchInput) (research : Research), ResearchInput.ofJson? payload = some input ∧
        input.validate = .ok research ∧ readResearch payload = .ok research) ∨
      ∃ problem, readResearch payload = .error problem ∧ problem.kind = .validation := by
  cases hinput : ResearchInput.ofJson? payload with
  | none => exact .inr ⟨.malformedResearch, by simp [readResearch, hinput], rfl⟩
  | some input =>
    cases hvalidate : input.validate with
    | error problems =>
      refine .inr ⟨.invalidResearch problems, ?_, rfl⟩
      simp [readResearch, hinput, hvalidate, Except.mapError]
    | ok research =>
      refine .inl ⟨input, research, rfl, hvalidate, ?_⟩
      simp [readResearch, hinput, hvalidate, Except.mapError]

theorem calculate_cases (m : Moment) (w : Workbench) (payload : Json) :
    (∃ input research report, ResearchInput.ofJson? payload = some input ∧
      input.validate = .ok research ∧ readResearch payload = .ok research ∧
      reportOf w.settings m research = .ok report ∧ report.Covers input ∧
      calculate m payload w = (.ok report, w)) ∨
    ∃ problem, readResearch payload = .error problem ∧
      calculate m payload w = (.refused problem.refusal, w) ∧
      problem.refusal.kind = .validation := by
  obtain ⟨input, research, hinput, hvalidate, hread⟩ | ⟨problem, hread, hkind⟩ :=
    readResearch_cases payload
  · obtain ⟨report, hreport, hcovers⟩ := exists_reportOf w.settings m hvalidate
    refine .inl ⟨input, research, report, hinput, hvalidate, hread, hreport, hcovers, ?_⟩
    rw [calculate, ask, hread, ok_bind, hreport]
    rfl
  · refine .inr ⟨problem, hread, ?_, hkind⟩
    rw [calculate, ask, hread]
    rfl

/-- Validated research always gives a report, and with overrides it does just if all of them are
admitted by the default assumptions. Every use case and every point of friction of the payload is
in the report. A payload is answered with that report of its research if it can be read as research,
and otherwise refused as invalid. -/
theorem reports_of_validated (settings : Settings) (m : Moment) (overrides : List AssumptionValue) :
    (∀ (input : ResearchInput) (research : Research), input.validate = .ok research →
      (∃ report, reportOf settings m research = .ok report ∧ report.Covers input) ∧
      ((∀ v ∈ overrides, AssumptionRegistry.withDefaults.admits v = true) →
        ∃ report, reportWith settings m overrides research = .ok report ∧
          report.Covers input) ∧
      ((∃ v ∈ overrides, AssumptionRegistry.withDefaults.admits v = false) →
        ∃ problems, reportWith settings m overrides research = .error (.invalidUpdates problems))) ∧
    ∀ (w : Workbench) (payload : Json),
      (∃ input research report, ResearchInput.ofJson? payload = some input ∧
        input.validate = .ok research ∧ readResearch payload = .ok research ∧
        reportOf w.settings m research = .ok report ∧ report.Covers input ∧
        calculate m payload w = (.ok report, w)) ∨
      ∃ problem, readResearch payload = .error problem ∧
        calculate m payload w = (.refused problem.refusal, w) ∧
        problem.refusal.kind = .validation := by
  refine ⟨fun input research h => ⟨?_, ?_, ?_⟩, calculate_cases m⟩
  · exact exists_reportOf settings m h
  · exact exists_reportWith settings m h
  · exact reportWith_of_not_admitted settings m research

/-- A use case with no more than validation asks for. -/
def leastUseCase (id : String) : UseCaseInput :=
  { id := some id, name := some "Invoices"
    function := none, subFunction := none, description := none, targetFriction := none
    checkpoint := none, primitives := []
    hoursSaved := none, hourlyRate := none, adoptionRate := none
    revenueImpact := some 100000, costImpact := some 0, cashFlowImpact := some 0
    riskReduction := some 0
    dataReadiness := some 3, integrationComplexity := some 2, changeManagement := some 1
    timeToValueMonths := some 6
    inputTokensPerRun := some 1000, outputTokensPerRun := some 500, runsPerMonth := some 100
    impactRanges := .none }

/-- A use case whose estimates are all finite, but neither the sum of their benefits nor 110 percent
of any of them is. -/
def hugeUseCase (id : String) : UseCaseInput :=
  { leastUseCase id with
    revenueImpact := some 1.7e308, costImpact := some 1.7e308
    cashFlowImpact := some 1.7e308, riskReduction := some 1.7e308 }

/-- The payload of research with use cases of this kind. -/
def leastPayload (ids : List String) : Json :=
  .object [("companyName", .string "Company"),
    ("companyOverview", .object [("dataMaturityLevel", .integer 3)]),
    ("useCases", .array (ids.map fun id => .object [("id", .string id),
      ("name", .string "Invoices"), ("estimatedRevenueImpact", .integer 100000),
      ("estimatedCostImpact", .integer 0), ("estimatedCashFlowImpact", .integer 0),
      ("estimatedRiskReduction", .integer 0), ("dataReadiness", .integer 3),
      ("integrationComplexity", .integer 2), ("changeManagement", .integer 1),
      ("timeToValueMonths", .integer 6), ("inputTokensPerRun", .integer 1000),
      ("outputTokensPerRun", .integer 500), ("runsPerMonth", .integer 100)]))]

theorem reports_of_least_research :
    let input : ResearchInput :=
      { companyName := some "Company", overview := some ⟨none, none, none, none, some 3⟩
        frictionPoints := [], useCases := some [leastUseCase "b", leastUseCase "a"] }
    let research := input.check.value
    let m : Moment := ⟨⟨0, 0⟩, "1"⟩
    let w := new .standard ⟨0, 0⟩
    input.validate = .ok research ∧
      (∃ report, reportOf .standard m research = .ok report ∧
        report.useCases.map (·.id) = ["b", "a"] ∧
        calculate m (leastPayload ["b", "a"]) w = (.ok report, w)) ∧
      (∃ report, reportWith .standard m [⟨"adoption_rate", 0.5⟩] research = .ok report) ∧
      ∃ problems, reportWith .standard m [⟨"adoption_rate", 2⟩] research =
        .error (.invalidUpdates problems) := by
  intro input research m w
  have hproblems : input.check.problems.isEmpty = true := by decide +kernel
  have hvalidate : input.validate = .ok research :=
    ResearchInput.validate_eq_ok_iff.2 ⟨List.isEmpty_iff.1 hproblems, rfl⟩
  have hread : readResearch (leastPayload ["b", "a"]) = .ok research := by
    have hpayload : ResearchInput.ofJson? (leastPayload ["b", "a"]) = some input := rfl
    simp [readResearch, hpayload, hvalidate, Except.mapError]
  obtain ⟨hreports, hanswers⟩ := reports_of_validated .standard m [⟨"adoption_rate", 0.5⟩]
  obtain ⟨⟨report, hreport, hcovers⟩, haccepted, -⟩ := hreports input research hvalidate
  obtain ⟨-, -, hrefused⟩ :=
    (reports_of_validated .standard m [⟨"adoption_rate", 2⟩]).1 input research hvalidate
  obtain ⟨changed, hchanged, -⟩ := haccepted (by decide +kernel)
  refine ⟨hvalidate, ⟨report, hreport, ?_, ?_⟩, ⟨changed, hchanged⟩, hrefused (by decide +kernel)⟩
  · obtain ⟨given, hgiven, hids⟩ := hcovers.useCases
    obtain rfl : given = [leastUseCase "b", leastUseCase "a"] := (Option.some.inj hgiven).symm
    apply List.map_injective_iff.2 (Option.some_injective String)
    rw [List.map_map]
    exact hids
  · obtain ⟨-, _, answer, -, -, hread', hanswer, -, hcalculate⟩ | ⟨problem, hproblem, -⟩ :=
      hanswers w (leastPayload ["b", "a"])
    · cases hread'.symm.trans hread
      obtain rfl := Except.ok.inj (hanswer.symm.trans hreport)
      exact hcalculate
    · cases hread.symm.trans hproblem

end Workbench

end Appraisal
