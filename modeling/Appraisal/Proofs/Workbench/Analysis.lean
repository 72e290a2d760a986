import Appraisal.Proofs.Engine.Simulation
import Appraisal.Proofs.Report.PointEstimates
import Appraisal.Proofs.Report.Spreads
import Appraisal.Proofs.Workbench.Reports

/-!
# Analyses of validated research

An analysis asks for a positive number of samples and for valid variables. The settings see to the
first and the validation of the research to the second, but for estimates so large that the spread
around them overflows. Beyond that a run can only lack a valid sample.
-/

namespace Appraisal

namespace Uncertainty

open Engine (simulated)

/-- How a run over some variables may end: with an answer if all of them are valid, without a valid
sample, or with the problem of one of them. -/
inductive Ended {α : Type} (size : Nat) (vs : List UncertainVariable) :
    Except EngineError α → Prop
  | answered (a : α) (h : ∀ v ∈ vs, v.validate = .ok ()) : Ended size vs (.ok a)
  | noValidSamples : Ended size vs (.error (.noValidSamples size))
  | invalid (v : UncertainVariable) (hv : v ∈ vs) (problem : EngineError)
      (h : v.validate = .error problem) : Ended size vs (.error problem)

variable {α β : Type} {size : Nat} {vs ws : List UncertainVariable}

theorem Ended.bind {x : Except EngineError α} {f : α → Except EngineError β}
    (hx : Ended size vs x) (hf : ∀ a, x = .ok a → Ended size ws (f a)) :
    Ended size (vs ++ ws) (x >>= f) := by
  cases hx with
  | answered a h =>
    rw [ok_bind]
    generalize hrest : f a = rest
    cases hrest ▸ hf a rfl with
    | answered b h' => exact .answered b (List.forall_mem_append.2 ⟨h, h'⟩)
    | noValidSamples => exact .noValidSamples
    | invalid v hv problem h' => exact .invalid v (List.mem_append_right vs hv) problem h'
  | noValidSamples => exact .noValidSamples
  | invalid v hv problem h => exact .invalid v (List.mem_append_left ws hv) problem h

theorem Ended.map {x : Except EngineError α} (hx : Ended size vs x) (f : α → β) :
    Ended size vs (x >>= fun a => .ok (f a)) := by
  rw [← List.append_nil vs]
  exact hx.bind fun a _ => .answered (f a) (List.forall_mem_nil _)

theorem distribution_driver (id label : String) (estimate : Float) (range : Option ImpactRange) :
    (driver id label estimate range).distribution = .triangular := by
  cases range <;> rfl

/-- The inputs of an analysis are triangular, so all its draws end. -/
theorem not_searches_of_mem {u : UseCase} {maturity : Float} {v : UncertainVariable}
    (hv : v ∈ uncertainInputs u maturity) : ¬ v.Searches := by
  have htriangular : v.distribution = .triangular := by
    simp only [uncertainInputs, List.mem_cons, List.not_mem_nil, or_false] at hv
    obtain rfl | rfl | rfl | rfl | rfl := hv
    iterate 4 exact distribution_driver ..
    rfl
  rintro ⟨hpert, -⟩
  cases htriangular.symm.trans hpert

theorem ended_simulated (hsize : size ≠ 0) (hvs : ∀ v ∈ vs, ¬ v.Searches) (f : Formula)
    (base : Context) (seed : UInt64) :
    Ended size vs (simulated f base vs size seed) := by
  rw [simulated, if_neg hsize]
  cases hvalid : Engine.firstInvalid vs with
  | error problem =>
    obtain ⟨before, v, after, rfl, -, hproblem⟩ := Engine.firstInvalid_eq_error_iff.1 hvalid
    exact .invalid v (List.mem_append_right before List.mem_cons_self) problem hproblem
  | ok =>
    obtain ⟨values, houtputs, hlength⟩ := Engine.exists_outputs? hvs f base size seed
    rw [ok_bind, houtputs]
    dsimp only
    obtain ⟨s, hs, -⟩ | ⟨-, hnone⟩ := Simulation.ofValues_cases values seed
    · rw [hs]
      exact .answered s (Engine.firstInvalid_eq_ok_iff.1 hvalid)
    · rw [hnone, hlength]
      exact .noValidSamples

theorem ended_opportunities {e : Engine} {f : Formula} (hf : e.formula formulaId = .ok f)
    (hsize : size ≠ 0) (now : Instant) (fixed : Context) (maturity : Float) (seed : UInt64)
    (us : List UseCase) :
    Ended size (us.flatMap (uncertainInputs · maturity))
      (e.run (opportunities now fixed maturity size seed us)).1 := by
  induction us generalizing e seed with
  | nil => exact .answered [] (List.forall_mem_nil _)
  | cons u us ih =>
    have halike := (observes_opportunity now fixed maturity size seed u).alike formulaId e
    have hfirst : Ended size (uncertainInputs u maturity)
        (e.run (opportunity now fixed maturity size seed u)).1 := by
      rw [result_opportunity, hf]
      exact (ended_simulated hsize (fun v hv => not_searches_of_mem hv) f _ seed).map _
    rw [opportunities, Engine.result_bind, List.flatMap_cons]
    refine hfirst.bind fun o _ => ?_
    rw [Engine.result_bind]
    exact (ih (halike.formula_eq.trans hf) (seed + 1)).map _

theorem ended_analyze (hsize : size ≠ 0) (now : Instant) (research : Research) (seed : UInt64) :
    Ended size
      (research.useCases.flatMap
        (uncertainInputs · (maturityFactor research.overview.dataMaturityLevel)))
      ((Engine.new now).run (analyze now research size seed)).1 := by
  obtain ⟨audit, hresult⟩ := result_analyze (Engine.new now) now research size seed
  obtain ⟨r, hmatured, hr, hmaturity⟩ := Engine.matured_new now research.overview.dataMaturityLevel
  obtain ⟨k, hk, -⟩ := hr.exists_factors
  rw [hresult, hmatured, ok_bind, hmaturity, ok_bind, fixedFactors_eq hk, ok_bind]
  exact (ended_opportunities rfl hsize now _ _ seed research.useCases).map _

end Uncertainty

namespace Workbench

open Uncertainty (uncertainInputs Ended)

theorem clamp_of_validate {settings : Settings} (h : settings.validate = .ok ())
    (requested : Option Nat) :
    let size := settings.sampling.clamp requested
    settings.sampling.minSamples ≤ size ∧ size ≤ settings.sampling.maxSamples ∧ 1 ≤ size := by
  rw [Settings.validate] at h
  split_ifs at h
  simp only [SamplingSettings.clamp]
  omega

/-- The number of samples of an analysis on validated research is within the bounds of the settings.
The variables of a use case are all valid just if no spread around one of its estimates overflows,
and if that holds of all use cases the analysis is answered or lacks a valid sample. Else it lacks a
valid sample, or it is refused for an upper bound that is not finite. -/
theorem analysis_of_validated {settings : Settings} (hsettings : settings.validate = .ok ())
    {input : ResearchInput} {research : Research} (h : input.validate = .ok research) (m : Moment)
    (options : UncertaintyOptions) :
    let size := settings.sampling.clamp options.sampleSize
    let inputs := fun u => uncertainInputs u (maturityFactor research.overview.dataMaturityLevel)
    let result := analysisOf settings m options research
    (settings.sampling.minSamples ≤ size ∧ size ≤ settings.sampling.maxSamples ∧ 1 ≤ size) ∧
      (∀ u ∈ research.useCases, (∀ v ∈ inputs u, v.validate = .ok ()) ↔
        ∀ d ∈ u.estimates, HasSpread d) ∧
      ((∀ u ∈ research.useCases, ∀ d ∈ u.estimates, HasSpread d) →
        (∃ report, result = .ok report) ∨ result = .error (.engine (.noValidSamples size))) ∧
      ((∃ u ∈ research.useCases, ∃ d ∈ u.estimates, ¬ HasSpread d) →
        result = .error (.engine (.noValidSamples size)) ∨
          ∃ u ∈ research.useCases, ∃ v ∈ inputs u, v.high.isFinite = false ∧
            result = .error (.engine (.invalidVariable v.id "bounds must be finite"))) := by
  intro size inputs result
  have hclamp := clamp_of_validate hsettings options.sampleSize
  have hestimates := ResearchInput.estimates_of_validate h
  have hvalid (u : UseCase) (hu : u ∈ research.useCases) :
      (∀ v ∈ inputs u, v.validate = .ok ()) ↔ ∀ d ∈ u.estimates, HasSpread d :=
    Uncertainty.forall_validate_iff (hestimates u hu)
  refine ⟨hclamp, hvalid, ?_⟩
  have hended := Uncertainty.ended_analyze (Nat.one_le_iff_ne_zero.1 hclamp.2.2) m.now research
    (options.seed.getD settings.sampling.defaultSeed)
  obtain ⟨x, hx, hresult⟩ : ∃ x, Ended size (research.useCases.flatMap inputs) x ∧
      result = x.mapError .engine := ⟨_, hended, rfl⟩
  rw [hresult]
  cases hx with
  | answered report hall =>
    refine ⟨fun _ => .inl ⟨report, rfl⟩, ?_⟩
    rintro ⟨u, hu, d, hd, hnot⟩
    have hinputs : ∀ v ∈ inputs u, v.validate = .ok () := fun v hv =>
      hall v (List.mem_flatMap.2 ⟨u, hu, hv⟩)
    exact absurd ((hvalid u hu).1 hinputs d hd) hnot
  | noValidSamples => exact ⟨fun _ => .inr rfl, fun _ => .inl rfl⟩
  | invalid v hv problem hproblem =>
    obtain ⟨u, hu, hv⟩ := List.mem_flatMap.1 hv
    obtain hok | hhigh := Uncertainty.validate_of_mem (hestimates u hu) hv
    · cases hproblem.symm.trans hok
    rw [UncertainVariable.validate_of_not_finite hhigh] at hproblem
    cases hproblem
    refine ⟨fun hspreads => ?_, fun _ => .inr ⟨u, hu, v, hv, hhigh, rfl⟩⟩
    have hok := (hvalid u hu).2 (hspreads u hu) v hv
    rw [UncertainVariable.validate_of_not_finite hhigh] at hok
    cases hok

/-- Five samples are too few for the standard settings. -/
theorem analysis_of_least_research :
    let input : ResearchInput :=
      { companyName := some "Company", overview := some ⟨none, none, none, none, some 3⟩
        frictionPoints := [], useCases := some [leastUseCase "a"] }
    let research := input.check.value
    let result := analysisOf .standard ⟨⟨0, 0⟩, "1"⟩ ⟨some 5, none⟩ research
    Settings.standard.validate = .ok () ∧ input.validate = .ok research ∧
      ((∃ report, result = .ok report) ∨ result = .error (.engine (.noValidSamples 1000))) := by
  intro input research result
  have hsettings : Settings.standard.validate = .ok () := by decide +kernel
  have hproblems : input.check.problems.isEmpty = true := by decide +kernel
  have hvalidate : input.validate = .ok research :=
    ResearchInput.validate_eq_ok_iff.2 ⟨List.isEmpty_iff.1 hproblems, rfl⟩
  have hspreads : ∀ u ∈ research.useCases, ∀ d ∈ u.estimates, HasSpread d := by decide +kernel
  obtain ⟨-, -, hended, -⟩ :=
    analysis_of_validated hsettings hvalidate ⟨⟨0, 0⟩, "1"⟩ ⟨some 5, none⟩
  exact ⟨hsettings, hvalidate, hended hspreads⟩

/-- An estimate of 1.7e308 is finite and not negative, and 110 percent of it are not finite. -/
theorem refused_analysis_of_validated :
    let input : ResearchInput :=
      { companyName := some "Company", overview := some ⟨none, none, none, none, some 3⟩
        frictionPoints := [], useCases := some [hugeUseCase "a"] }
    Settings.standard.validate = .ok () ∧ input.validate = .ok input.check.value ∧
      (Response.ofResult
        (analysisOf .standard ⟨⟨0, 0⟩, "1"⟩ ⟨none, none⟩ input.check.value)).error =
          some (WorkbenchError.engine
            (.invalidVariable "revenueBase" "bounds must be finite")).refusal := by
  intro input
  have hproblems : input.check.problems.isEmpty = true := by decide +kernel
  exact ⟨by decide +kernel, if_pos hproblems, by decide +kernel⟩

end Workbench

end Appraisal
