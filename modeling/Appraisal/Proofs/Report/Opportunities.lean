import Appraisal.Proofs.Report.Maturity
import Appraisal.Proofs.Engine.Observation
import Appraisal.Proofs.Research.Completeness
import Appraisal.Report.Uncertainty

/-!
# Opportunities side by side

An analysis goes through the use cases in one session. What it does for one of them leaves entries
in the log and nothing else, so every opportunity is the one its use case would have on its own,
with its place added to the seed.
-/

namespace Appraisal

open Engine (Alike simulated)
open ResearchInput (bareUseCase)

namespace Uncertainty

variable {e e' : Engine} {fixed : Context} {maturity : Float} {size : Nat} {seed : UInt64}

theorem observes_opportunity (now : Instant) (fixed : Context) (maturity : Float) (size : Nat)
    (seed : UInt64) (u : UseCase) : (opportunity now fixed maturity size seed u).Observes :=
  (Engine.observes_evaluateFormula now _ _).bind fun _ =>
    (Engine.observes_runMonteCarlo now _ _ _ _ _).bind fun _ => Engine.Op.observes_pure _

theorem result_opportunity (e : Engine) (now : Instant) (u : UseCase) :
    (e.run (opportunity now fixed maturity size seed u)).1 = (do
      let inputs := uncertainInputs u maturity
      let f ← e.formula formulaId
      let distribution ← simulated f (e.callContext fixed) inputs size seed
      return { id := u.id
               name := u.name
               pointEstimate :=
                 (Engine.valueOf now f (e.callContext (pointContext fixed inputs))).value
               distribution
               sensitivity := sensitivity inputs }) := by
  have halike := (Engine.observes_evaluateFormula now formulaId
    (pointContext fixed (uncertainInputs u maturity))).alike formulaId e
  rw [opportunity, Engine.result_bind, Engine.result_evaluateFormula]
  cases hformula : e.formula formulaId with
  | error problem => rfl
  | ok f =>
    simp only [Except.map, ok_bind]
    rw [Engine.result_bind, Engine.result_runMonteCarlo (halike.formula_eq.trans hformula),
      halike.callContext_eq]
    rfl

/-- An opportunity depends on the formula and the assumptions of the session only. -/
theorem result_opportunity_congr (h : Alike formulaId e e') (now now' : Instant) (u : UseCase) :
    (e'.run (opportunity now' fixed maturity size seed u)).1 =
      (e.run (opportunity now fixed maturity size seed u)).1 := by
  simp only [result_opportunity, h.formula_eq, h.callContext_eq, Engine.value_valueOf now' now]

theorem seed_of_opportunity {now : Instant} {u : UseCase} {o : OpportunityUncertainty}
    (h : (e.run (opportunity now fixed maturity size seed u)).1 = .ok o) :
    o.distribution.seed = seed := by
  rw [result_opportunity] at h
  obtain ⟨f, -, h⟩ := bind_eq_ok_iff.1 h
  obtain ⟨s, hs, h⟩ := bind_eq_ok_iff.1 h
  cases h
  exact Engine.seed_of_simulated hs

/-- Every opportunity of a run is the one that its use case has in the session before the run. -/
theorem opportunities_eq_ok {now : Instant} {us : List UseCase} {os : List OpportunityUncertainty}
    (h : (e.run (opportunities now fixed maturity size seed us)).1 = .ok os) :
    os.length = us.length ∧ ∀ (i : Nat) (u : UseCase), us[i]? = some u → ∃ o, os[i]? = some o ∧
      (e.run (opportunity now fixed maturity size (seed + .ofNat i) u)).1 = .ok o := by
  induction us generalizing e seed os with
  | nil =>
    cases h
    refine ⟨rfl, fun i u hu => ?_⟩
    simp at hu
  | cons u us ih =>
    have halike := (observes_opportunity now fixed maturity size seed u).alike formulaId e
    rw [opportunities, Engine.result_bind] at h
    obtain ⟨o, hfirst, h⟩ := bind_eq_ok_iff.1 h
    rw [Engine.result_bind] at h
    obtain ⟨rest, hrest, ⟨⟩⟩ := bind_eq_ok_iff.1 h
    obtain ⟨hlength, hall⟩ := ih hrest
    refine ⟨by simp [hlength], fun i v hv => ?_⟩
    cases i with
    | zero =>
      cases hv
      refine ⟨o, rfl, ?_⟩
      simp [hfirst]
    | succ i =>
      obtain ⟨o', ho', hrun⟩ := hall i v hv
      refine ⟨o', ho', ?_⟩
      have hsucc : seed + .ofNat (i + 1) = seed + 1 + .ofNat i := by
        rw [UInt64.ofNat_add, UInt64.add_comm (.ofNat i), UInt64.add_assoc]
        rfl
      rw [hsucc, ← result_opportunity_congr halike now now, hrun]

/-- An analysis runs on the assumptions with the maturity factor set, and changes them no more. -/
theorem result_analyze (e : Engine) (now : Instant) (research : Research) (size : Nat)
    (seed : UInt64) :
    ∃ audit, (e.run (analyze now research size seed)).1 = (do
      let assumptions ← e.assumptions.matured research.overview.dataMaturityLevel
      let maturity ← assumptions.value maturityId
      let fixed ← fixedFactors assumptions
      let opportunities ← (({ e with assumptions, audit } : Engine).run
        (opportunities now fixed maturity size seed research.useCases)).1
      return { companyName := research.companyName
               generatedAt := now
               formulaId
               sampleSize := size
               seed, opportunities }) := by
  obtain ⟨audit, hrun⟩ := e.run_applyMaturity_eq now research.overview.dataMaturityLevel
  refine ⟨audit, ?_⟩
  rw [analyze, Engine.result_bind, hrun]
  cases e.assumptions.matured research.overview.dataMaturityLevel with
  | error problem => rfl
  | ok assumptions =>
    simp only [ok_bind]
    congr 1
    funext maturity
    rw [Engine.result_bind, Engine.run_ask]
    congr 1
    funext fixed
    rw [Engine.result_bind]
    rfl

theorem analyze_eq_ok {now : Instant} {research : Research} {report : UncertaintyReport}
    (h : (e.run (analyze now research size seed)).1 = .ok report) :
    ∃ assumptions audit maturity fixed,
      e.assumptions.matured research.overview.dataMaturityLevel = .ok assumptions ∧
      assumptions.value maturityId = .ok maturity ∧ fixedFactors assumptions = .ok fixed ∧
      (({ e with assumptions, audit } : Engine).run
        (opportunities now fixed maturity size seed research.useCases)).1 =
          .ok report.opportunities := by
  obtain ⟨audit, hresult⟩ := result_analyze e now research size seed
  rw [h, eq_comm] at hresult
  obtain ⟨assumptions, hmatured, hresult⟩ := bind_eq_ok_iff.1 hresult
  obtain ⟨maturity, hmaturity, hresult⟩ := bind_eq_ok_iff.1 hresult
  obtain ⟨fixed, hfixed, hresult⟩ := bind_eq_ok_iff.1 hresult
  obtain ⟨os, hrun, ⟨⟩⟩ := bind_eq_ok_iff.1 hresult
  exact ⟨assumptions, audit, maturity, fixed, hmatured, hmaturity, hfixed, hrun⟩

/-- Two analyses over the same formula, assumptions, level of maturity, sample size and seed give
the same opportunity for a use case that both have at one place, whatever else was asked of the
sessions and whatever use cases stand before and after it. So adding use cases at the end leaves the
opportunities before them as they are. -/
theorem opportunities_agree {e e' : Engine} (halike : Alike formulaId e e') {now now' : Instant}
    {research research' : Research} {size : Nat} {seed : UInt64}
    {report report' : UncertaintyReport}
    (hlevel : research'.overview.dataMaturityLevel = research.overview.dataMaturityLevel)
    (hreport : (e.run (analyze now research size seed)).1 = .ok report)
    (hreport' : (e'.run (analyze now' research' size seed)).1 = .ok report') :
    report.opportunities.length = research.useCases.length ∧
      (∀ (i : Nat) (o : OpportunityUncertainty), report.opportunities[i]? = some o →
        o.distribution.seed.toNat = (seed.toNat + i) % 2 ^ 64) ∧
      (∀ (i : Nat) (u : UseCase), research.useCases[i]? = some u → research'.useCases[i]? = some u →
        report'.opportunities[i]? = report.opportunities[i]?) ∧
      (research.useCases <+: research'.useCases →
        report.opportunities <+: report'.opportunities) := by
  obtain ⟨assumptions, audit, maturity, fixed, hmatured, hmaturity, hfixed, hrun⟩ :=
    analyze_eq_ok hreport
  obtain ⟨assumptions', audit', maturity', fixed', hmatured', hmaturity', hfixed', hrun'⟩ :=
    analyze_eq_ok hreport'
  -- Both runs start on the same assumptions, so all they do not share is their logs.
  rw [halike.assumptions_eq, hlevel, hmatured] at hmatured'
  cases hmatured'
  cases hmaturity.symm.trans hmaturity'
  cases hfixed.symm.trans hfixed'
  obtain ⟨hlength, hall⟩ := opportunities_eq_ok hrun
  obtain ⟨hlength', hall'⟩ := opportunities_eq_ok hrun'
  have hstart : Alike formulaId { e with assumptions, audit }
      { e' with assumptions, audit := audit' } := ⟨halike.formula_eq, rfl⟩
  have hsame (i : Nat) (u : UseCase) (hu : research.useCases[i]? = some u)
      (hu' : research'.useCases[i]? = some u) :
      report'.opportunities[i]? = report.opportunities[i]? := by
    obtain ⟨o, ho, hone⟩ := hall i u hu
    obtain ⟨o', ho', hone'⟩ := hall' i u hu'
    rw [result_opportunity_congr hstart now now' u, hone] at hone'
    rw [ho, ho', Except.ok.inj hone']
  refine ⟨hlength, fun i o ho => ?_, hsame, fun hprefix => ?_⟩
  · obtain ⟨hi, -⟩ := List.getElem?_eq_some_iff.1 ho
    obtain ⟨o', ho', hone⟩ := hall i _ (List.getElem?_eq_getElem (hlength ▸ hi))
    cases ho.symm.trans ho'
    rw [seed_of_opportunity hone, UInt64.toNat_add, UInt64.toNat_ofNat']
    exact Nat.add_mod_mod _ _ _
  · refine List.prefix_iff_getElem?.2 fun i hi => ?_
    have hu : research.useCases[i]? = some research.useCases[i] := List.getElem?_eq_getElem _
    rw [hsame i _ hu (List.prefix_iff_getElem?.1 hprefix i (hlength ▸ hi)),
      List.getElem?_eq_getElem hi]

/-- A second use case is added, and the second session is another one, read at other times, that has
made calculations before. -/
theorem opportunities_agree_of_bareUseCase :
    let payload := fun useCases : List UseCaseInput =>
      (⟨some "Company", some ⟨none, none, none, none, some 3⟩, [], some useCases⟩ : ResearchInput)
    let one := (payload [bareUseCase "a" (some 20)]).check.value
    let other := (payload [bareUseCase "b" (some 30)]).check.value
    let two := { one with useCases := one.useCases ++ other.useCases }
    let e := Engine.new ⟨0, 0⟩
    let e' := (Engine.new ⟨5, 0⟩).afterAll [(⟨6, 0⟩, .priority ⟨1, 2, 3, 4⟩)]
    ∃ report report', (e.run (analyze ⟨1, 0⟩ one 1 7)).1 = .ok report ∧
      (e'.run (analyze ⟨7, 0⟩ two 1 7)).1 = .ok report' ∧
      report.opportunities.length = 1 ∧ report.opportunities <+: report'.opportunities := by
  intro payload one other two e e'
  have hok : (e.run (analyze ⟨1, 0⟩ one 1 7)).1.isOk = true := by decide +kernel
  have hok' : (e'.run (analyze ⟨7, 0⟩ two 1 7)).1.isOk = true := by decide +kernel
  have hone : one.useCases.length = 1 := by decide +kernel
  clear_value one other
  obtain ⟨report, hreport⟩ := exists_of_isOk hok
  obtain ⟨report', hreport'⟩ := exists_of_isOk hok'
  have hframe := (Engine.observes_priority ⟨6, 0⟩ ⟨1, 2, 3, 4⟩).alike formulaId (Engine.new ⟨5, 0⟩)
  have halike : Alike formulaId e e' := ⟨hframe.formula_eq, hframe.assumptions_eq⟩
  have hlevel : two.overview.dataMaturityLevel = one.overview.dataMaturityLevel := rfl
  obtain ⟨hlength, -, -, hprefix⟩ := opportunities_agree halike hlevel hreport hreport'
  exact ⟨report, report', hreport, hreport', hlength.trans hone, hprefix (List.prefix_append _ _)⟩

end Uncertainty

end Appraisal
