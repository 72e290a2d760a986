import Appraisal.Proofs.Engine.Recomputation
import Appraisal.Proofs.Engine.Simulation

/-!
# Simulations without uncertainty

A simulation whose variables are all points sees one and the same context at every sample, the one
that an evaluation with their values sees. So it either repeats the answer of that evaluation in
every percentile, or no sample is valid. The mean and the deviation are computed by sums that are
rounded, and nothing is said about them.
-/

namespace Appraisal

namespace Simulation

variable {size : Nat} {x : Float}

/-- A summary that says of `size` samples nothing but this value. -/
structure Summary.Constant (s : Summary) (size : Nat) (x : Float) : Prop where
  failedSamples : s.failedSamples = 0
  sampleSize : s.sampleSize = size
  p10 : s.p10 = x
  p25 : s.p25 = x
  median : s.median = x
  p75 : s.p75 = x
  p90 : s.p90 = x

theorem constant_ofSorted (hsize : 1 ≤ size) (x : Float) (seed : UInt64) :
    (ofSorted (List.replicate size x) 0 seed).Constant size x where
  failedSamples := rfl
  sampleSize := List.length_replicate
  p10 := percentile_replicate hsize x _
  p25 := percentile_replicate hsize x _
  median := percentile_replicate hsize x _
  p75 := percentile_replicate hsize x _
  p90 := percentile_replicate hsize x _

theorem ofValues_replicate (hsize : 1 ≤ size) (hx : x.isFinite = true) (seed : UInt64) :
    ∃ s, ofValues (List.replicate size x) seed = .ok s ∧ s.Constant size x := by
  have hfilter : (List.replicate size x).filter (·.isFinite) = List.replicate size x := by
    rw [List.filter_replicate, if_pos hx]
  have hfailed : (List.replicate size x).countP (!·.isFinite) = 0 := by
    rw [← length_sub_length_filter, hfilter, Nat.sub_self]
  have hne : List.replicate size x ≠ [] := by
    rw [Ne, List.replicate_eq_nil_iff]
    omega
  refine ⟨ofSorted (List.replicate size x) 0 seed, ?_, constant_ofSorted hsize x seed⟩
  rw [ofValues_eq_ok_iff, hfilter, hfailed, sorted_replicate]
  exact ⟨hne, rfl⟩

theorem ofValues_replicate_of_not_finite (hx : x.isFinite = false) (size : Nat) (seed : UInt64) :
    ofValues (List.replicate size x) seed = .error (.noValidSamples size) := by
  have hnone : ∀ y ∈ List.replicate size x, y.isFinite = false := by
    intro y hy
    rw [List.eq_of_mem_replicate hy, hx]
  have hrefused : ofValues (List.replicate size x) seed = _ :=
    ofValues_eq_noValidSamples_iff.2 hnone
  rwa [List.length_replicate] at hrefused

end Simulation

namespace Engine

variable {e : Engine} {vs : List UncertainVariable} {size : Nat}

/-- The variables at their modes. -/
def modes (vs : List UncertainVariable) : Context :=
  .ofPairs (vs.map fun v => (v.id, v.mode))

theorem placeOf_points {i : Nat} (hi : i < size) (vs : List UncertainVariable) :
    placeOf (vs.map fun v => (v.id, List.replicate size v.mode)) i =
      vs.map fun v => (v.id, v.mode) := by
  simp [placeOf, hi]

theorem sampled_points {i : Nat} (hi : i < size) (e : Engine) (fixed : Context)
    (vs : List UncertainVariable) :
    e.sampled fixed (vs.map fun v => (v.id, List.replicate size v.mode)) i =
      e.callContext (fixed.overlay (modes vs)) := by
  apply Context.ext_get?
  intro name
  rw [get?_sampled, placeOf_points hi, callContext, Context.get?_overlay, Context.get?_overlay,
    modes, Context.get?_ofPairs, Option.or_assoc]

theorem sampledOutputs_points (e : Engine) (f : Formula) (fixed : Context)
    (vs : List UncertainVariable) (size : Nat) :
    e.sampledOutputs f fixed (vs.map fun v => (v.id, List.replicate size v.mode)) size =
      List.replicate size (f.evaluate (e.callContext (fixed.overlay (modes vs)))) := by
  rw [sampledOutputs, List.eq_replicate_iff, List.length_map, List.length_range]
  refine ⟨rfl, List.forall_mem_map.2 fun i hi => ?_⟩
  rw [sampled_points (List.mem_range.1 hi)]

/-- What a simulation over points answers is what an evaluation at the points answers: in every
percentile, or not at all. -/
theorem point_runs_agree (e : Engine) (hpoints : ∀ v ∈ vs, v.distribution = .point)
    (hvs : ∀ v ∈ vs, v.validate = .ok ()) (formulaId : String) (fixed : Context)
    (hsize : 1 ≤ size) (seed : UInt64) (now now' : Instant) :
    let context := fixed.overlay (modes vs)
    let simulation := (e.run (runMonteCarlo now' vs formulaId size seed fixed)).1
    ∀ v, (e.run (evaluateFormula now formulaId context)).1 = .ok v →
      (v.flaw = none → ∃ s, simulation = .ok s ∧ s.Constant size v.value) ∧
      (v.flaw = some .nonFinite → simulation = .error (.noValidSamples size)) := by
  intro context simulation v hv
  rcases hf : e.formulas.get? formulaId with _ | f
  · rw [result_evaluateFormula, formula, hf] at hv
    cases hv
  · have hvalue : valueOf now f (e.callContext context) = v := by
      rw [result_evaluateFormula, formula, hf] at hv
      exact Except.ok.inj hv
    have hsize0 : size ≠ 0 := Nat.one_le_iff_ne_zero.1 hsize
    have hsimulation : simulation = Simulation.ofValues
        (List.replicate size (f.evaluate (e.callContext context))) seed := by
      have hread := checkedOutputs_of_known hsize0 hvs hf seed fixed
      rw [columnDraws?_points hpoints, Option.elim, sampledOutputs_points] at hread
      obtain ⟨entry, hrun, -⟩ := run_runMonteCarlo_of_ok hread now'
      exact congrArg Prod.fst hrun
    subst hvalue
    rw [hsimulation]
    refine ⟨fun hflaw => ?_, fun hflaw => ?_⟩
    · obtain ⟨-, hfinite⟩ := flaw_valueOf_eq_none_iff.1 hflaw
      rw [(valueOf_of_flaw_eq_none hflaw).2]
      exact Simulation.ofValues_replicate hsize hfinite seed
    · obtain ⟨-, hnot⟩ := flaw_valueOf_eq_nonFinite_iff.1 hflaw
      exact Simulation.ofValues_replicate_of_not_finite hnot size seed

/-- Twelve times a known monthly cost. -/
theorem point_runs_agree_of_cost :
    let e := new ⟨0, 0⟩
    let vs : List UncertainVariable := [.point "monthlyCost" 5 .usdPerMonth]
    let context := Context.overlay .empty (modes vs)
    (∀ v ∈ vs, v.distribution = .point) ∧ (∀ v ∈ vs, v.validate = .ok ()) ∧
    ∃ v s, (e.run (evaluateFormula ⟨1, 0⟩ "token_cost_annual" context)).1 = .ok v ∧
      v.flaw = none ∧ v.value = 60 ∧
      (e.run (runMonteCarlo ⟨1, 0⟩ vs "token_cost_annual" 3 0 .empty)).1 = .ok s ∧
      s.Constant 3 60 := by
  intro e vs context
  have hpoints : ∀ v ∈ vs, v.distribution = .point := by decide +kernel
  have hvalid : ∀ v ∈ vs, v.validate.isOk = true := by decide +kernel
  have hvs : ∀ v ∈ vs, v.validate = .ok () := fun v hv => eq_ok_of_isOk (hvalid v hv)
  have hf : e.formulas.get? "token_cost_annual" = some .tokenCostAnnual := rfl
  have hrun := congrArg Prod.fst (run_evaluateFormula hf ⟨1, 0⟩ context)
  have hflaw : (valueOf ⟨1, 0⟩ .tokenCostAnnual (e.callContext context)).flaw = none := by
    decide +kernel
  have hvalue : (valueOf ⟨1, 0⟩ .tokenCostAnnual (e.callContext context)).value = 60 := by
    decide +kernel
  obtain ⟨hagree, -⟩ := point_runs_agree e hpoints hvs "token_cost_annual" .empty
    (show 1 ≤ 3 by decide) 0 ⟨1, 0⟩ ⟨1, 0⟩ _ hrun
  obtain ⟨s, hs, hconstant⟩ := hagree hflaw
  exact ⟨hpoints, hvs, _, s, hrun, hflaw, hvalue, hs, hvalue ▸ hconstant⟩

end Engine

end Appraisal
