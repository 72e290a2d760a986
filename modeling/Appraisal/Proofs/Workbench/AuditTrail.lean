import Appraisal.Proofs.Report.Trail
import Appraisal.Proofs.Workbench.Reports

/-!
# The audit trail of a report

The trail of a report starts with the session, goes on with the overrides and the maturity of the
data, and then has nothing but the evaluations and sums of the calculation. Nothing is missing: each
calculated value of the report is told by an entry.
-/

namespace Appraisal

open Audit (Event)

/-- The updates of a report: the overrides, and the factor for the maturity of the data unless it
is overridden. -/
def Research.updates (research : Research) (overrides : List AssumptionValue) :
    List AssumptionValue :=
  if "data_maturity_factor" ∈ overrides.map (·.id) then overrides
  else overrides ++
    [⟨"data_maturity_factor", maturityFactor research.overview.dataMaturityLevel⟩]

/-- How many values are calculated for a research, but for the totals. -/
def Research.evaluations (research : Research) : Nat :=
  research.frictionPoints.length + (research.useCases.map (·.evaluations)).sum + 3

namespace Engine

variable {e : Engine} {now : Instant} {overrides : List AssumptionValue}

/-- The events are updates to these values, one for each. -/
def Update (values : List AssumptionValue) (events : List Event) : Prop :=
  List.Forall₂ (fun v event => ∃ previous, event = updated v previous) values events

theorem logs_updateAll (now : Instant)
    (h : ∀ v ∈ overrides, AssumptionRegistry.withDefaults.check v.id v.value = .ok ()) :
    (updateAll now overrides).Logs now fun _ events => Update overrides events := by
  induction overrides with
  | nil => exact Op.logs_pure .nil
  | cons v vs ih =>
    obtain ⟨hv, hvs⟩ := List.forall_mem_cons.1 h
    refine (logs_updateAssumption now hv).bind ?_
    rintro _ _ ⟨previous, rfl⟩
    exact (ih hvs).imp fun _ events hevents => .cons ⟨previous, rfl⟩ hevents

theorem isSome_lastValue?_iff {values : List AssumptionValue} {id : String} :
    (lastValue? values id).isSome = true ↔ id ∈ values.map (·.id) := by
  simp [lastValue?]

/-- Just what has been overridden is flagged in a session that was fresh before. -/
theorem isUserOverride_of_overridden {a : Assumption} {id : String}
    (h : (AssumptionRegistry.withDefaults.edited .override overrides).find id = .ok a) :
    a.isUserOverride = true ↔ id ∈ overrides.map (·.id) := by
  obtain ⟨hmem, rfl⟩ := AssumptionRegistry.mem_of_get? (AssumptionRegistry.find_eq_ok_iff.1 h)
  obtain ⟨d, hd, rfl⟩ := List.mem_map.1 hmem
  have hflag : d.isUserOverride = false := by
    have hall : ∀ d ∈ Assumption.defaults, d.isUserOverride = false := by decide
    exact hall d hd
  rw [← isSome_lastValue?_iff, Assumption.edited]
  cases hlast : lastValue? overrides d.id with
  | none => simp [hflag, hlast]
  | some x => simp [Assumption.override, hlast]

theorem run_applyMaturity (he : e.Standard) {a : Assumption}
    (hfind : e.assumptions.find "data_maturity_factor" = .ok a) (now : Instant) (level : Nat) :
    ∃ factor events e', e.run (applyMaturity now level) = (.ok factor, e') ∧ e'.Standard ∧
      e'.audit = e.audit.recordAll (events.map (now, ·)) ∧
      Update (if a.isUserOverride then [] else [⟨"data_maturity_factor", maturityFactor level⟩])
        events := by
  have hid : "data_maturity_factor" ∈ Assumption.defaults.map (·.id) := by decide
  rw [applyMaturity, run_bind, run_ask, hfind]
  cases hflag : a.isUserOverride with
  | true =>
    obtain ⟨factor, _, e', hrun, he', haudit, rfl⟩ := logs_value now hid e he
    refine ⟨factor, [], e', ?_, he', haudit, .nil⟩
    simp only [hflag]
    exact hrun
  | false =>
    have hupdate := logs_updateAssumption now
      (v := ⟨"data_maturity_factor", maturityFactor level⟩) (check_maturityFactor level)
    obtain ⟨_, _, e₁, hrun₁, he₁, haudit₁, previous, rfl⟩ := hupdate e he
    obtain ⟨factor, _, e', hrun, he', haudit, rfl⟩ := logs_value now hid e₁ he₁
    refine ⟨factor, _, e', ?_, he', haudit.trans haudit₁, .cons ⟨previous, rfl⟩ .nil⟩
    simp only [hflag, Bool.not_false, if_true, run_bind, hrun₁]
    exact hrun

/-- What the calculation of a report records after the updates. -/
structure CalculationRecord (research : Research) (report : Report) (events : List Event) :
    Prop where
  tally : ∃ sums : List CalculatedValue,
    benefitSums report.generatedAt report.useCases = sums.map .ok ∧
      Tally events (research.evaluations + sums.countP (·.isOk)) 6
  evaluated : ∀ v ∈ report.evaluated, evaluation v ∈ events
  totals : ∀ t ∈ report.dashboard.totals, ToldIn events t.1 t.2

theorem ToldIn.mono {events events' : List Event} {label : String} {v : CalculatedValue}
    (h : ToldIn events label v) (hsub : events ⊆ events') : ToldIn events' label v := by
  obtain ⟨hid, hmem⟩ | ⟨hid, size, hmem⟩ := h
  · exact .inl ⟨hid, hsub hmem⟩
  · exact .inr ⟨hid, size, hsub hmem⟩

/-- The evaluations of the use cases are those before the scores and those of the scores. -/
theorem mem_values_of_scored {useCases : List UseCaseResult} {v : CalculatedValue}
    (h : v ∈ useCases.flatMap (·.values)) :
    v ∈ (useCases.map (·.unscored)).flatMap (·.values) ∨
      v ∈ useCases.flatMap (·.scoring.values) := by
  obtain ⟨r, hr, hv⟩ := List.mem_flatMap.1 h
  obtain hv | hv := List.mem_append.1 hv
  · exact .inl (List.mem_flatMap.2 ⟨r.unscored, List.mem_map_of_mem hr, hv⟩)
  · exact .inr (List.mem_flatMap.2 ⟨r, hr, hv⟩)

theorem length_values_of_scored (useCases : List UseCaseResult) :
    ((useCases.map (·.unscored)).flatMap (·.values)).length +
        (useCases.flatMap (·.scoring.values)).length =
      ((useCases.map (·.unscored)).map (·.values.length + 3)).sum := by
  induction useCases with
  | nil => rfl
  | cons r rs ih =>
    have hscoring : r.scoring.values.length = 3 := rfl
    simp only [List.map_cons, List.flatMap_cons, List.length_append, List.sum_cons, hscoring, ← ih]
    omega

theorem run_assemble (he : e.Standard) {a : Assumption}
    (hfind : e.assumptions.find "data_maturity_factor" = .ok a) (now : Instant)
    (reportId : String) (settings : ReportSettings) (research : Research) :
    ∃ report e' updates events,
      e.run (assemble now reportId settings research) = (.ok report, e') ∧
      report.auditTrail = (e.audit.recordAll ((updates ++ events).map (now, ·))).entries ∧
      Update (if a.isUserOverride then []
        else [⟨"data_maturity_factor", maturityFactor research.overview.dataMaturityLevel⟩])
        updates ∧
      CalculationRecord research report events := by
  obtain ⟨factor, updates, e₁, hrun₁, he₁, haudit₁, hupdates⟩ :=
    run_applyMaturity he hfind now research.overview.dataMaturityLevel
  obtain ⟨rows, events₂, e₂, hrun₂, he₂, haudit₂, rfl, hrows⟩ :=
    (logs_frictionTable now research.frictionPoints).and_succeeds
      (succeeds_frictionTable now research.frictionPoints) e₁ he₁
  obtain ⟨results, events₃, e₃, hrun₃, he₃, haudit₃, ⟨rfl, hlengths⟩, -, hyearly⟩ :=
    (logs_unscored now research.useCases).and_succeeds
      (succeeds_unscored now research.useCases) e₂ he₂
  obtain ⟨useCases, events₄, e₄, hrun₄, he₄, haudit₄, ⟨rfl, rfl⟩, -, hyearly'⟩ :=
    (logs_scored now (maxImpact results) results).and_succeeds
      (succeeds_scored now (maxImpact results) hyearly) e₃ he₃
  obtain ⟨d, events₅, e₅, hrun₅, -, haudit₅, hd⟩ := logs_dashboard now settings hyearly' e₄ he₄
  set calculated := rows.map (·.annualBurden) ++
    ((useCases.map (·.unscored)).flatMap (·.values) ++ useCases.flatMap (·.scoring.values))
    with hcalculated
  have haudit : e₅.audit = e.audit.recordAll
      ((updates ++ (calculated.map evaluation ++ events₅)).map (now, ·)) := by
    rw [haudit₅, haudit₄, haudit₃, haudit₂, haudit₁, hcalculated]
    simp only [List.map_append, Audit.Log.recordAll_append]
  have hrun : e.run (assemble now reportId settings research) = (.ok
      { id := reportId
        companyName := research.companyName
        generatedAt := now
        engineVersion := version
        assumptions := e₅.assumptions.assumptions
        company := { overview := research.overview, dataMaturityFactor := factor
                     frictionTable := rows }
        useCases, dashboard := d
        auditTrail := e₅.audit.entries
        fingerprint := e₅.fingerprint }, e₅) := by
    simp only [assemble, run_bind, hrun₁, hrun₂, hrun₃, hrun₄, hrun₅]
    rfl
  refine ⟨_, e₅, updates, calculated.map evaluation ++ events₅, hrun,
    congrArg Audit.Log.entries haudit, hupdates, ?_, ?_, ?_⟩
  · obtain ⟨sums, hsums, htally⟩ := hd.tally
    refine ⟨sums, hsums, ?_⟩
    have hlength : calculated.length + 3 = research.evaluations := by
      rw [Research.evaluations, ← hrows, ← hlengths, ← length_values_of_scored, hcalculated]
      simp only [List.length_append, List.length_map]
    have htally' := (tally_evaluations calculated).append htally
    rwa [← add_assoc, hlength] at htally'
  · intro v hv
    rw [Report.evaluated, List.mem_append, List.mem_append] at hv
    obtain (hv | hv) | hv := hv
    · exact List.mem_append_left _ (List.mem_map_of_mem (List.mem_append_left _ hv))
    · have hscored := List.mem_append.2 (mem_values_of_scored hv)
      exact List.mem_append_left _ (List.mem_map_of_mem (List.mem_append_right _ hscored))
    · exact List.mem_append_right _ (hd.ratios v hv)
  · exact fun t ht => (hd.totals t ht).mono (List.subset_append_right _ _)

end Engine

/-- The audit trail of a report has one entry for everything that was done, in order, and tells all
calculated values of the report. -/
structure Report.Audited (report : Report) (research : Research)
    (overrides : List AssumptionValue) : Prop where
  numbers : report.auditTrail.length < 2 ^ 64 →
    report.auditTrail.map (·.sequence.toNat) = List.range report.auditTrail.length
  order : ∃ start updates calculation, report.auditTrail = start :: (updates ++ calculation) ∧
    start.action = .start ∧
    List.Forall₂ (fun v entry => entry.TellsUpdate v) (research.updates overrides) updates ∧
    ∀ entry ∈ calculation, entry.action = .evaluateFormula ∨ entry.action = .aggregate
  /-- A benefit sum without a flaw is evaluated once more, when it is rounded. -/
  evaluations : ∃ sums : List CalculatedValue,
    Engine.benefitSums report.generatedAt report.useCases = sums.map .ok ∧
      report.auditTrail.countP (·.action = .evaluateFormula) =
        research.evaluations + sums.countP (·.isOk)
  sums : report.auditTrail.countP (·.action = .aggregate) = 6
  evaluated : ∀ v ∈ report.evaluated, ∃ entry ∈ report.auditTrail, entry.Tells v
  totals : ∀ t ∈ report.dashboard.totals, ∃ entry ∈ report.auditTrail,
    t.2.formulaId ≠ Engine.aggregationId ∧ entry.Tells t.2 ∨
      t.2.formulaId = Engine.aggregationId ∧ entry.TellsSum t.1 t.2

namespace Workbench

open Engine (Update CalculationRecord)

theorem exists_entry_of_mem {entries : List Audit.Entry} {events : List Event} {event : Event}
    (h : entries.map Audit.Entry.event = events) (hmem : event ∈ events) :
    ∃ entry ∈ entries, entry.event = event := by
  rw [← h] at hmem
  exact List.mem_map.1 hmem

theorem countP_event (entries : List Audit.Entry) (action : Audit.Action) :
    (entries.map Audit.Entry.event).countP (·.1 = action) =
      entries.countP (·.action = action) := by
  rw [List.countP_map]
  rfl

theorem countP_update {values : List AssumptionValue} {events : List Event}
    (h : Update values events) {action : Audit.Action} (hne : action ≠ .updateAssumption) :
    events.countP (·.1 = action) = 0 := by
  induction h with
  | nil => rfl
  | cons hevent _ ih =>
    obtain ⟨previous, rfl⟩ := hevent
    rw [List.countP_cons_of_neg (by simp [Engine.updated, hne.symm]), ih]

theorem tellsUpdate_of_update {values : List AssumptionValue} {entries : List Audit.Entry}
    (h : Update values (entries.map Audit.Entry.event)) :
    List.Forall₂ (fun v entry => entry.TellsUpdate v) values entries := by
  refine (List.forall₂_map_right_iff.1 h).imp fun v entry hentry => ?_
  obtain ⟨previous, hevent⟩ := hentry
  exact Engine.tellsUpdate_of_event hevent

/-- A log that has recorded a start, the updates and the calculation is all that was asked for. -/
theorem audited_of_log {report : Report} {research : Research} {overrides : List AssumptionValue}
    {log : Audit.Log} (hlog : report.auditTrail = log.entries) (hnumbered : log.Numbered)
    {details : Json} {updates events : List Event}
    (htold : log.told = (.start, details) :: (updates ++ events))
    (hupdates : Update (research.updates overrides) updates)
    (hevents : CalculationRecord research report events) :
    report.Audited research overrides := by
  have htrail : report.auditTrail.map Audit.Entry.event =
      (.start, details) :: (updates ++ events) := by
    rw [hlog, ← htold, Audit.Log.told]
  have hmem {event : Event} (h : event ∈ events) :
      ∃ entry ∈ report.auditTrail, entry.event = event :=
    exists_entry_of_mem htrail (List.mem_cons_of_mem _ (List.mem_append_right _ h))
  -- The start and the updates are neither evaluations nor sums.
  have hcount (action : Audit.Action) (hstart : action ≠ .start)
      (hne : action ≠ .updateAssumption) :
      report.auditTrail.countP (·.action = action) = events.countP (·.1 = action) := by
    rw [← countP_event, htrail, List.countP_cons_of_neg (by simpa using hstart.symm),
      List.countP_append, countP_update hupdates hne, zero_add]
  obtain ⟨sums, hsums, htally⟩ := hevents.tally
  refine ⟨fun h => ?_, ?_, ⟨sums, hsums, ?_⟩, ?_, fun v hv => ?_, fun t ht => ?_⟩
  · rw [hlog] at h ⊢
    exact hnumbered.map_toNat h.le
  · obtain ⟨start, rest, hentries, hstart, hrest⟩ := List.map_eq_cons_iff.1 htrail
    obtain ⟨entries, calculation, rfl, rfl, rfl⟩ := List.map_eq_append_iff.1 hrest
    refine ⟨start, entries, calculation, hentries, congrArg Prod.fst hstart,
      tellsUpdate_of_update hupdates, fun entry hentry => ?_⟩
    exact htally.only _ (List.mem_map_of_mem hentry)
  · rw [hcount .evaluateFormula (by decide) (by decide), htally.evaluations]
  · rw [hcount .aggregate (by decide) (by decide), htally.sums]
  · obtain ⟨entry, hentry, hevent⟩ := hmem (hevents.evaluated v hv)
    exact ⟨entry, hentry, Engine.tells_of_event hevent⟩
  · obtain ⟨hid, h⟩ | ⟨hid, size, h⟩ := hevents.totals t ht
    · obtain ⟨entry, hentry, hevent⟩ := hmem h
      exact ⟨entry, hentry, .inl ⟨hid, Engine.tells_of_event hevent⟩⟩
    · obtain ⟨entry, hentry, hevent⟩ := hmem h
      exact ⟨entry, hentry, .inr ⟨hid, Engine.tellsSum_of_event hevent⟩⟩

/-- A report on admitted overrides has a complete audit trail: it is numbered without gaps, has the
start, the overrides and the evaluations and sums of the calculation and nothing else, and tells
every calculated value of the report. -/
theorem audited_of_reportWith (settings : Settings) (m : Moment) (research : Research)
    {overrides : List AssumptionValue}
    (h : ∀ v ∈ overrides, AssumptionRegistry.withDefaults.admits v = true) :
    ∃ report, reportWith settings m overrides research = .ok report ∧
      report.Audited research overrides := by
  have hcheck : ∀ v ∈ overrides, AssumptionRegistry.withDefaults.check v.id v.value = .ok () :=
    fun v hv => AssumptionRegistry.check_eq_ok_iff_admits.2 (h v hv)
  have hnew := Engine.standard_new m.now
  obtain ⟨_, written, e, hrun, he, haudit, hwritten⟩ :=
    Engine.logs_updateAll m.now hcheck (.new m.now) hnew
  obtain ⟨e', hrun', hassumptions⟩ := Engine.run_updateAll hnew.sound m.now hcheck
  obtain ⟨-, rfl⟩ := Prod.mk.inj (hrun.symm.trans hrun')
  obtain ⟨a, hfind⟩ := he.exists_find (by decide : "data_maturity_factor" ∈ _)
  obtain ⟨report, e', updates, events, hassemble, htrail, hupdates, hevents⟩ :=
    Engine.run_assemble he hfind m.now m.freshId settings.report research
  have hreport : reportWith settings m overrides research = .ok report := by
    rw [reportWith, overridden_of_checked (Engine.importProblems_eq_nil_iff.2 hcheck) hrun,
      ok_bind, hassemble]
    rfl
  have hnumbered : e.audit.Numbered := by
    rw [haudit]
    exact (Audit.Log.numbered_empty.record _ _ _).recordAll _
  obtain ⟨details, hstart⟩ : ∃ details, (Engine.new m.now).audit.told = [(.start, details)] :=
    ⟨_, rfl⟩
  have htold : (e.audit.recordAll ((updates ++ events).map (m.now, ·))).told =
      (.start, details) :: ((written ++ updates) ++ events) := by
    rw [Audit.Log.told_recordAll, haudit, Audit.Log.told_recordAll, hstart]
    simp
  refine ⟨report, hreport, audited_of_log htrail (hnumbered.recordAll _) htold ?_ hevents⟩
  rw [hassumptions, AssumptionRegistry.writeAll_eq_edited _ .override (fun _ _ => rfl)
    (fun _ _ _ => rfl)] at hfind
  have hflag := Engine.isUserOverride_of_overridden hfind
  by_cases hoverridden : "data_maturity_factor" ∈ overrides.map (·.id)
  · rw [if_pos (hflag.2 hoverridden)] at hupdates
    cases hupdates
    rwa [Research.updates, if_pos hoverridden, List.append_nil]
  · rw [if_neg (hoverridden ∘ hflag.1)] at hupdates
    rw [Research.updates, if_neg hoverridden]
    exact List.rel_append hwritten hupdates

/-- One use case, and an override that is not of the maturity factor. -/
theorem audited_of_reportWith_of_least_research :
    let input : ResearchInput :=
      { companyName := some "Company", overview := some ⟨none, none, none, none, some 3⟩
        frictionPoints := [], useCases := some [leastUseCase "a"] }
    let overrides : List AssumptionValue := [⟨"adoption_rate", 0.5⟩]
    (∀ v ∈ overrides, AssumptionRegistry.withDefaults.admits v = true) ∧
      ∃ report, reportWith .standard ⟨⟨0, 0⟩, "1"⟩ overrides input.check.value = .ok report ∧
        report.Audited input.check.value overrides ∧
        report.auditTrail.map (·.sequence.toNat) = List.range 27 := by
  intro input overrides
  have hadmitted : ∀ v ∈ overrides, AssumptionRegistry.withDefaults.admits v = true := by
    decide +kernel
  obtain ⟨report, hreport, haudited⟩ :=
    audited_of_reportWith .standard ⟨⟨0, 0⟩, "1"⟩ input.check.value hadmitted
  refine ⟨hadmitted, report, hreport, haudited, ?_⟩
  have hlength : (reportWith .standard ⟨⟨0, 0⟩, "1"⟩ overrides input.check.value).toOption.map
      (·.auditTrail.length) = some 27 := by
    decide +kernel
  rw [hreport] at hlength
  have hlength : report.auditTrail.length = 27 := Option.some.inj hlength
  rw [haudited.numbers (by omega), hlength]

end Workbench

end Appraisal
