import Appraisal.Proofs.Engine.Checkpoint
import Appraisal.Proofs.Report.Frame
import Appraisal.Proofs.Research.Completeness

/-!
# Reports and the flags of overrides

Apart from the maturity factor a report only observes the session it is assembled in. The factor it
overrides, and it looks at the same flag that it sets to see whether the user did so. So a session
in which the user did not do so carries one flag too many after its first report, and the factor of
that report stays for all later ones.
-/

namespace Appraisal

/-- The ids of the assumptions that a report shows as overridden. -/
def Report.overridden (r : Report) : List String :=
  AssumptionRegistry.overridden ⟨r.assumptions⟩

/-- A report that is asked of a session. -/
structure Assembly where
  now : Instant
  reportId : String
  settings : ReportSettings
  research : Research

namespace Engine

open ResearchInput (bareUseCase)

variable {e : Engine}

/-- The answers to reports that are asked of a session one after the other, and the session after
them. A report that is refused leaves what it has changed. -/
def assembleEach (e : Engine) : List Assembly → List (Except EngineError Report) × Engine
  | [] => ([], e)
  | a :: requests =>
    let first := e.run (assemble a.now a.reportId a.settings a.research)
    let rest := first.2.assembleEach requests
    (first.1 :: rest.1, rest.2)

/-- Over the standard formulas every report is answered. -/
theorem isOk_of_assembleEach (he : e.Standard) (requests : List Assembly) :
    ∀ answer ∈ (e.assembleEach requests).1, answer.isOk = true := by
  induction requests generalizing e with
  | nil => exact List.forall_mem_nil _
  | cons a requests ih =>
    obtain ⟨report, e', hrun, he', -⟩ :=
      succeeds_assemble a.now a.reportId a.settings a.research e he
    rw [assembleEach, hrun]
    exact List.forall_mem_cons.2 ⟨rfl, ih he'⟩

/-- Once the factor counts as overridden, reports change no assumption at all. -/
theorem assembleEach_of_overridden (hr : e.assumptions.Sound)
    (hflag : maturityId ∈ e.assumptions.overridden) (requests : List Assembly) :
    (e.assembleEach requests).2.assumptions = e.assumptions ∧
      ∀ report, .ok report ∈ (e.assembleEach requests).1 →
        report.assumptions = e.assumptions.assumptions ∧
          e.assumptions.value maturityId = .ok report.company.dataMaturityFactor := by
  induction requests generalizing e with
  | nil => exact ⟨rfl, fun report hmem => absurd hmem List.not_mem_nil⟩
  | cons a requests ih =>
    obtain ⟨r, hmatured, -, -, hsame, -⟩ := hr.matured a.research.overview.dataMaturityLevel
    obtain rfl := hsame hflag
    obtain ⟨hframe, hreport⟩ := assumptions_assemble hmatured
    obtain ⟨hlast, hrest⟩ := ih (hframe.symm ▸ hr) (hframe.symm ▸ hflag)
    rw [hframe] at hlast hrest
    refine ⟨hlast, fun report hmem => ?_⟩
    obtain hfirst | hmem := List.mem_cons.1 hmem
    · exact hreport report hfirst.symm
    · exact hrest report hmem

/-- The first report sets the factor, and that is all that the reports change. -/
theorem assembleEach_cons {r : AssumptionRegistry} (hr : e.assumptions.Sound) (first : Assembly)
    (rest : List Assembly)
    (hmatured : e.assumptions.matured first.research.overview.dataMaturityLevel = .ok r) :
    (e.assembleEach (first :: rest)).2.assumptions = r ∧
      ∀ report, .ok report ∈ (e.assembleEach (first :: rest)).1 →
        report.assumptions = r.assumptions ∧
          r.value maturityId = .ok report.company.dataMaturityFactor := by
  obtain ⟨hframe, hreport⟩ := assumptions_assemble hmatured
  obtain ⟨r', hmatured', hr', hflags, -⟩ := hr.matured first.research.overview.dataMaturityLevel
  obtain rfl : r = r' := Except.ok.inj (hmatured.symm.trans hmatured')
  obtain ⟨hlast, hrest⟩ := assembleEach_of_overridden (hframe.symm ▸ hr')
    (hframe.symm ▸ (hflags maturityId).2 (.inl rfl)) rest
  rw [hframe] at hlast hrest
  refine ⟨hlast, fun report hmem => ?_⟩
  obtain hfirst | hmem := List.mem_cons.1 hmem
  · exact hreport report hfirst.symm
  · exact hrest report hmem

/-- Every report and the session after all of them show the same overrides as the session before. -/
structure KeepsOverrides (e : Engine) (requests : List Assembly) : Prop where
  reports : ∀ report, .ok report ∈ (e.assembleEach requests).1 →
    ∀ id, id ∈ report.overridden ↔ id ∈ e.assumptions.overridden
  after : ∀ id, id ∈ (e.assembleEach requests).2.assumptions.overridden ↔
    id ∈ e.assumptions.overridden

/-- Reports keep the overrides of a session just if the user has overridden the maturity factor, or
none is asked for. The flag of that factor is the only one they set. The user's own factor goes into
every report, and without one the factor for the first research goes into all of them, whatever the
levels of the later ones are. -/
theorem keepsOverrides_iff {e₀ : Engine} (h₀ : Opened e₀) (edits : List (Instant × Call))
    (requests : List Assembly) :
    let e := e₀.afterAll edits
    let answers := (e.assembleEach requests).1
    let user := e.assumptions.overridden
    (KeepsOverrides e requests ↔ requests = [] ∨ maturityId ∈ user) ∧
      (e₀.formulas = .standard → ∀ answer ∈ answers, answer.isOk = true) ∧
      (∀ id, id ∈ (e.assembleEach requests).2.assumptions.overridden ↔
        (requests ≠ [] ∧ id = maturityId) ∨ id ∈ user) ∧
      ∀ report, .ok report ∈ answers →
        (∀ id, id ∈ report.overridden ↔ id = maturityId ∨ id ∈ user) ∧
        (maturityId ∈ user →
          e.assumptions.value maturityId = .ok report.company.dataMaturityFactor) ∧
        (maturityId ∉ user → ∃ first ∈ requests.head?, report.company.dataMaturityFactor =
          maturityFactor first.research.overview.dataMaturityLevel) := by
  intro e answers user
  have hr : e.assumptions.Sound := h₀.sound_afterAll edits
  have hok (hformulas : e₀.formulas = .standard) : ∀ answer ∈ answers, answer.isOk = true :=
    isOk_of_assembleEach ⟨(h₀.steps edits).formulas_eq.trans hformulas, hr⟩ requests
  cases requests with
  | nil =>
    have hnone (report : Report) : .ok report ∉ answers := List.not_mem_nil
    refine ⟨?_, hok, fun id => ?_, fun report hmem => absurd hmem (hnone report)⟩
    · exact iff_of_true ⟨fun report hmem => absurd hmem (hnone report), fun _ => Iff.rfl⟩ (.inl rfl)
    · exact (or_iff_right fun h => h.1 rfl).symm
  | cons first rest =>
    obtain ⟨r, hmatured, -, hflags, hsame, hfactor⟩ :=
      hr.matured first.research.overview.dataMaturityLevel
    obtain ⟨hafter, hreports⟩ := assembleEach_cons hr first rest hmatured
    refine ⟨?_, hok, fun id => ?_, fun report hmem => ?_⟩
    · constructor
      · intro hkeeps
        refine .inr ((hkeeps.after maturityId).1 ?_)
        rw [hafter]
        exact (hflags maturityId).2 (.inl rfl)
      · rintro (hnil | huser)
        · cases hnil
        · obtain rfl := hsame huser
          refine ⟨fun report hmem id => ?_, fun id => by rw [hafter]⟩
          rw [Report.overridden, (hreports report hmem).1]
    · rw [hafter, hflags, and_iff_right (List.cons_ne_nil first rest)]
    · obtain ⟨hassumptions, hvalue⟩ := hreports report hmem
      refine ⟨fun id => ?_, fun huser => ?_, fun huser => ⟨first, rfl, ?_⟩⟩
      · rw [Report.overridden, hassumptions]
        exact hflags id
      · rw [← hsame huser]
        exact hvalue
      · exact Except.ok.inj (hvalue.symm.trans (hfactor huser))

/-- A company of a level of maturity, with one use case. -/
def payloadAt (level : Float) : ResearchInput :=
  { companyName := some "Company", overview := some ⟨none, none, none, none, some level⟩
    frictionPoints := [], useCases := some [bareUseCase "a" (some 20)] }

def requestAt (now : Instant) (level : Float) : Assembly :=
  { now, reportId := "1", settings := .standard, research := (payloadAt level).check.value }

/-- The user has set the factor, so two reports leave all flags alone and show that factor. -/
theorem keepsOverrides_of_user :
    let edits := [((⟨1, 0⟩ : Instant), Call.update maturityId 0.5)]
    let e := (new ⟨0, 0⟩).afterAll edits
    let requests := [requestAt ⟨2, 0⟩ 3, requestAt ⟨3, 0⟩ 5]
    Opened (new ⟨0, 0⟩) ∧ KeepsOverrides e requests ∧
      (∀ answer ∈ (e.assembleEach requests).1, answer.isOk = true) ∧
      ∀ report, .ok report ∈ (e.assembleEach requests).1 →
        report.company.dataMaturityFactor = 0.5 := by
  intro edits e requests
  have hopened : Opened (new ⟨0, 0⟩) := .fresh .standard ⟨0, 0⟩
  have huser : maturityId ∈ e.assumptions.overridden := by decide +kernel
  have hvalue : (e.assumptions.value maturityId).toOption = some 0.5 := by decide +kernel
  obtain ⟨hiff, hok, -, hreports⟩ := keepsOverrides_iff hopened edits requests
  refine ⟨hopened, hiff.2 (.inr huser), hok rfl, fun report hmem => ?_⟩
  obtain ⟨-, hfactor, -⟩ := hreports report hmem
  rw [hfactor huser] at hvalue
  exact Option.some.inj hvalue

/-- In a fresh session a report flags the factor as overridden, and the next one, for a company of
another level, keeps the factor of the first. -/
theorem not_keepsOverrides_of_fresh :
    let e := new ⟨0, 0⟩
    let requests := [requestAt ⟨1, 0⟩ 3, requestAt ⟨2, 0⟩ 5]
    (∀ level ∈ [3, 5], (payloadAt level).validate = .ok (payloadAt level).check.value) ∧
      e.assumptions.overridden = [] ∧ ¬ KeepsOverrides e requests ∧
      (e.assembleEach requests).1.map (·.toOption.map (·.company.dataMaturityFactor)) =
        [some 0.75, some 0.75] ∧
      requests.map (maturityFactor ·.research.overview.dataMaturityLevel) = [0.75, 0.95] := by
  intro e requests
  have hproblems : ∀ level ∈ [3, 5], (payloadAt level).check.problems.isEmpty = true := by
    decide +kernel
  have huser : e.assumptions.overridden = [] := by decide +kernel
  have hrun : maturityId ∈ (e.assembleEach requests).2.assumptions.overridden ∧
      (e.assembleEach requests).1.map (·.toOption.map (·.company.dataMaturityFactor)) =
        [some 0.75, some 0.75] := by
    decide +kernel
  obtain ⟨hflag, hfactors⟩ := hrun
  refine ⟨fun level h => if_pos (hproblems level h), huser, fun hkeeps => ?_, hfactors,
    by decide +kernel⟩
  have hmem := (hkeeps.after maturityId).1 hflag
  rw [huser] at hmem
  exact List.not_mem_nil hmem

end Engine

end Appraisal
