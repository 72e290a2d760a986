import Appraisal.Proofs.Audit.Order
import Appraisal.Proofs.Engine.Observation
import Appraisal.Proofs.Engine.Samples
import Appraisal.Proofs.Simulation.Summary

/-!
# Accounts of simulations

A simulation is refused for the first thing that is wrong with it: no samples, a variable, the
formula. Else, if its draws end, each sample has one output. The finite outputs are summarized and
the others counted, in the answer and in the log, so that none is lost.
-/

namespace Appraisal

namespace UncertainVariable

theorem exists_of_validate_eq_error {v : UncertainVariable} {problem : EngineError}
    (h : v.validate = .error problem) : ∃ reason, problem = .invalidVariable v.id reason := by
  rw [validate] at h
  split_ifs at h <;> cases h <;> exact ⟨_, rfl⟩

end UncertainVariable

namespace Engine

variable {vs : List UncertainVariable}

theorem firstInvalid_eq_ok_iff :
    firstInvalid vs = .ok () ↔ ∀ v ∈ vs, v.validate = .ok () := by
  induction vs with
  | nil => simp [firstInvalid]
  | cons v vs ih =>
    rw [firstInvalid, List.forall_mem_cons, ← ih, bind_eq_ok_iff]
    exact ⟨fun ⟨_, hv, hvs⟩ => ⟨hv, hvs⟩, fun ⟨hv, hvs⟩ => ⟨(), hv, hvs⟩⟩

/-- The problem is that of a variable before which all are valid. -/
theorem firstInvalid_eq_error_iff {problem : EngineError} :
    firstInvalid vs = .error problem ↔ ∃ before v after, vs = before ++ v :: after ∧
      (∀ w ∈ before, w.validate = .ok ()) ∧ v.validate = .error problem := by
  constructor
  · intro h
    induction vs with
    | nil => cases h
    | cons v vs ih =>
      obtain hv | ⟨⟨⟩, hv, hvs⟩ := bind_eq_error_iff.1 h
      · exact ⟨[], v, vs, rfl, List.forall_mem_nil _, hv⟩
      · obtain ⟨before, w, after, rfl, hbefore, hw⟩ := ih hvs
        exact ⟨v :: before, w, after, rfl, List.forall_mem_cons.2 ⟨hv, hbefore⟩, hw⟩
  · rintro ⟨before, v, after, rfl, hbefore, hv⟩
    induction before with
    | nil => exact bind_eq_error_iff.2 (.inl hv)
    | cons w before ih =>
      obtain ⟨hw, hbefore⟩ := List.forall_mem_cons.1 hbefore
      exact bind_eq_error_iff.2 (.inr ⟨(), hw, ih hbefore⟩)

end Engine

namespace Simulation

variable {values : List Float} {seed : UInt64} {s : Summary}

/-- What is not finite is all that is not summarized. -/
theorem length_sub_length_filter (values : List Float) :
    values.length - (values.filter (·.isFinite)).length = values.countP (!·.isFinite) := by
  have hlength := values.length_eq_countP_add_countP (·.isFinite)
  simp only [Bool.not_eq_true, Bool.decide_eq_false, List.countP_eq_length_filter] at hlength ⊢
  omega

theorem sampleSize_ofSorted (h : values.filter (·.isFinite) ≠ []) :
    let s := ofSorted (sorted (values.filter (·.isFinite))) (values.countP (!·.isFinite)) seed
    1 ≤ s.sampleSize ∧ s.sampleSize + s.failedSamples = values.length := by
  intro s
  have hsize : s.sampleSize = (values.filter (·.isFinite)).length := length_sorted _
  have hfailed : s.failedSamples = values.length - (values.filter (·.isFinite)).length :=
    (length_sub_length_filter values).symm
  have hle := List.length_filter_le (·.isFinite) values
  have hpos := List.length_pos_iff.2 h
  omega

/-- A summary is that of the finite values, and it counts the others. -/
theorem ofValues_eq_ok_iff :
    ofValues values seed = .ok s ↔ values.filter (·.isFinite) ≠ [] ∧
      s = ofSorted (sorted (values.filter (·.isFinite))) (values.countP (!·.isFinite)) seed := by
  rw [ofValues, summarize, length_sub_length_filter]
  split_ifs with h
  · exact iff_of_false not_false fun hs => hs.1 (List.isEmpty_iff.1 h)
  · rw [Except.ok.injEq, eq_comm, and_iff_right (by simpa using h)]

theorem ofValues_eq_noValidSamples_iff :
    ofValues values seed = .error (.noValidSamples values.length) ↔
      ∀ x ∈ values, x.isFinite = false := by
  obtain ⟨s, hs, -⟩ | ⟨hnone, hrefused⟩ := ofValues_cases values seed
  · have hnot : ¬ ∀ x ∈ values, x.isFinite = false := by
      obtain ⟨hfinite, -⟩ := ofValues_eq_ok_iff.1 hs
      simpa using hfinite
    exact iff_of_false (fun h => by cases hs.symm.trans h) hnot
  · exact iff_of_true hrefused hnone

end Simulation

/-- An entry tells a simulation: what was asked for, and how many samples have failed. -/
structure Audit.Entry.TellsSimulation (entry : Audit.Entry) (formulaId : String) (size : Nat)
    (seed : UInt64) (failed : Nat) : Prop where
  action : entry.action = .monteCarlo
  formulaId : entry.details.get? "formulaId" = some (.string formulaId)
  sampleSize : entry.details.get? "sampleSize" = some (.count size)
  seed : entry.details.get? "seed" = some (.count seed.toNat)
  failedSamples : entry.details.get? "failedSamples" = some (.count failed)

namespace Engine

open Simulation (Summary)

variable {e : Engine} {vs : List UncertainVariable} {formulaId : String} {f : Formula} {size : Nat}
  {seed : UInt64} {columns : List (String × List Float)} {fixed : Context}

/-- The context of a sample: the assumptions, what is fixed over them, and the draws over both. -/
def sampled (e : Engine) (fixed : Context) (columns : List (String × List Float)) (i : Nat) :
    Context :=
  (placeOf columns i).foldl (fun context p => context.insert p.1 p.2) (e.callContext fixed)

/-- Of several draws for one name that of the last variable counts. -/
theorem get?_sampled (e : Engine) (fixed : Context) (columns : List (String × List Float)) (i : Nat)
    (name : String) :
    (e.sampled fixed columns i).get? name =
      ((placeOf columns i).reverse.lookup name).or
        ((fixed.get? name).or (e.assumptions.formulaContext.get? name)) := by
  rw [sampled, Context.get?_foldl_insert, callContext, Context.get?_overlay]

/-- The outputs of a simulation, sample by sample. -/
def sampledOutputs (e : Engine) (f : Formula) (fixed : Context)
    (columns : List (String × List Float)) (size : Nat) : List Float :=
  (List.range size).map fun i => f.evaluate (e.sampled fixed columns i)

theorem length_sampledOutputs : (e.sampledOutputs f fixed columns size).length = size := by
  rw [sampledOutputs, List.length_map, List.length_range]

theorem outputs?_eq (e : Engine) (f : Formula) (fixed : Context) (vs : List UncertainVariable)
    (size : Nat) (seed : UInt64) :
    outputs? f (e.callContext fixed) vs size seed =
      (columnDraws? vs size seed).map fun columns => e.sampledOutputs f fixed columns size := by
  rw [outputs?]
  cases columnDraws? vs size seed with
  | none => rfl
  | some columns => exact congrArg some (outputsOf_eq f (e.callContext fixed) columns size)

/-- What a simulation reads of the session. The first of its checks that fails refuses it. -/
def simulationInputs (e : Engine) (vs : List UncertainVariable) (formulaId : String) (size : Nat)
    (fixed : Context) : Except EngineError (Formula × Context) := do
  if size = 0 then .error .emptySample
  firstInvalid vs
  return (← e.formula formulaId, e.callContext fixed)

/-- What a simulation computes before it is recorded. -/
def checkedOutputs (e : Engine) (vs : List UncertainVariable) (formulaId : String) (size : Nat)
    (seed : UInt64) (fixed : Context) : Except EngineError (List Float) := do
  let inputs ← e.simulationInputs vs formulaId size fixed
  (outputs? inputs.1 inputs.2 vs size seed).elim (.error .endless) .ok

theorem run_runMonteCarlo_of_error {problem : EngineError}
    (h : e.checkedOutputs vs formulaId size seed fixed = .error problem) (now : Instant) :
    e.run (runMonteCarlo now vs formulaId size seed fixed) = (.error problem, e) := by
  rw [checkedOutputs] at h
  change e.run (Op.ask (·.simulationInputs vs formulaId size fixed) >>= _) = _
  rw [run_bind, run_ask]
  obtain hread | ⟨⟨f, base⟩, hread, h⟩ := bind_eq_error_iff.1 h
  · rw [hread]
  · rw [hread]
    dsimp only at h ⊢
    rw [run_bind, run_await, h]

theorem run_runMonteCarlo_of_ok {values : List Float}
    (h : e.checkedOutputs vs formulaId size seed fixed = .ok values) (now : Instant) :
    ∃ entry : Audit.Entry, e.run (runMonteCarlo now vs formulaId size seed fixed) =
        (Simulation.ofValues values seed, { e with audit := ⟨e.audit.entries ++ [entry]⟩ }) ∧
      entry.TellsSimulation formulaId size seed (values.countP (!·.isFinite)) := by
  rw [checkedOutputs] at h
  obtain ⟨⟨f, base⟩, hread, h⟩ := bind_eq_ok_iff.1 h
  change ∃ _, e.run (Op.ask (·.simulationInputs vs formulaId size fixed) >>= _) = _ ∧ _
  rw [run_bind, run_ask, hread]
  dsimp only at h ⊢
  rw [run_bind, run_await, h, ← Simulation.length_sub_length_filter]
  refine ⟨e.audit.next now .monteCarlo _, rfl, Audit.Log.next_action .., ?_, ?_, ?_, ?_⟩ <;>
    rw [Audit.Log.next_details] <;> rfl

theorem checkedOutputs_of_invalid {problem : EngineError} (hsize : size ≠ 0)
    (hvs : firstInvalid vs = .error problem) :
    e.checkedOutputs vs formulaId size seed fixed = .error problem := by
  rw [checkedOutputs, simulationInputs, if_neg hsize, hvs]
  rfl

theorem checkedOutputs_of_unknown (hsize : size ≠ 0) (hvs : ∀ v ∈ vs, v.validate = .ok ())
    (hf : e.formulas.get? formulaId = none) :
    e.checkedOutputs vs formulaId size seed fixed = .error (.unknownFormula formulaId) := by
  rw [checkedOutputs, simulationInputs, if_neg hsize, firstInvalid_eq_ok_iff.2 hvs, formula, hf]
  rfl

theorem checkedOutputs_of_known (hsize : size ≠ 0) (hvs : ∀ v ∈ vs, v.validate = .ok ())
    (hf : e.formulas.get? formulaId = some f) (seed : UInt64) (fixed : Context) :
    e.checkedOutputs vs formulaId size seed fixed =
      (columnDraws? vs size seed).elim (.error .endless) fun columns =>
        .ok (e.sampledOutputs f fixed columns size) := by
  have hread : e.simulationInputs vs formulaId size fixed = .ok (f, e.callContext fixed) := by
    rw [simulationInputs, if_neg hsize, firstInvalid_eq_ok_iff.2 hvs, formula, hf]
    rfl
  rw [checkedOutputs, hread, ok_bind, outputs?_eq]
  cases columnDraws? vs size seed <;> rfl

theorem checkedOutputs_eq_emptySample_iff (e : Engine) (vs : List UncertainVariable)
    (formulaId : String) (size : Nat) (seed : UInt64) (fixed : Context) :
    e.checkedOutputs vs formulaId size seed fixed = .error .emptySample ↔ size = 0 := by
  constructor
  · intro h
    by_contra hsize
    rcases hvs : firstInvalid vs with problem | _
    · obtain ⟨-, v, -, -, -, hv⟩ := firstInvalid_eq_error_iff.1 hvs
      obtain ⟨reason, rfl⟩ := UncertainVariable.exists_of_validate_eq_error hv
      cases (checkedOutputs_of_invalid hsize hvs).symm.trans h
    · have hvs : ∀ v ∈ vs, v.validate = .ok () := firstInvalid_eq_ok_iff.1 hvs
      rcases hf : e.formulas.get? formulaId with _ | f
      · cases (checkedOutputs_of_unknown hsize hvs hf).symm.trans h
      · rw [checkedOutputs_of_known hsize hvs hf seed fixed] at h
        cases hcolumns : columnDraws? vs size seed <;> rw [hcolumns] at h <;> cases h
  · rintro rfl
    rfl

/-- Each output is either summarized or counted as failed, in the answer as well as in the entry
that the simulation leaves. -/
structure Accounts (e : Engine) (formulaId : String) (outputs : List Float) (seed : UInt64)
    (run : Except EngineError Summary × Engine) : Prop where
  summarized : ∀ s, run.1 = .ok s ↔ outputs.filter (·.isFinite) ≠ [] ∧
    s = Simulation.ofSorted (Simulation.sorted (outputs.filter (·.isFinite)))
      (outputs.countP (!·.isFinite)) seed
  counted : ∀ s, run.1 = .ok s → 1 ≤ s.sampleSize ∧
    s.failedSamples = outputs.countP (!·.isFinite) ∧
    s.sampleSize + s.failedSamples = outputs.length
  refused : run.1 = .error (.noValidSamples outputs.length) ↔ ∀ x ∈ outputs, x.isFinite = false
  recorded : ∃ entry : Audit.Entry, run.2 = { e with audit := ⟨e.audit.entries ++ [entry]⟩ } ∧
    entry.TellsSimulation formulaId outputs.length seed (outputs.countP (!·.isFinite))

theorem accounts_runMonteCarlo {values : List Float}
    (h : e.checkedOutputs vs formulaId size seed fixed = .ok values) (hsize : values.length = size)
    (now : Instant) :
    Accounts e formulaId values seed
      (e.run (runMonteCarlo now vs formulaId size seed fixed)) := by
  obtain ⟨entry, hrun, hentry⟩ := run_runMonteCarlo_of_ok h now
  rw [hrun]
  refine ⟨fun s => Simulation.ofValues_eq_ok_iff, fun s hs => ?_,
    Simulation.ofValues_eq_noValidSamples_iff, entry, rfl, hsize ▸ hentry⟩
  obtain ⟨hfinite, rfl⟩ := Simulation.ofValues_eq_ok_iff.1 hs
  obtain ⟨hone, hsum⟩ := Simulation.sampleSize_ofSorted hfinite
  exact ⟨hone, rfl, hsum⟩

theorem result_eq_emptySample_iff (e : Engine) (now : Instant) (vs : List UncertainVariable)
    (formulaId : String) (size : Nat) (seed : UInt64) (fixed : Context) :
    (e.run (runMonteCarlo now vs formulaId size seed fixed)).1 = .error .emptySample ↔
      size = 0 := by
  rw [← checkedOutputs_eq_emptySample_iff e vs formulaId size seed fixed]
  rcases hread : e.checkedOutputs vs formulaId size seed fixed with problem | values
  · rw [run_runMonteCarlo_of_error hread, Except.error.injEq, Except.error.injEq]
  · obtain ⟨entry, hrun, -⟩ := run_runMonteCarlo_of_ok hread now
    rw [hrun]
    refine iff_of_false (fun h => ?_) nofun
    obtain ⟨s, hs, -⟩ | ⟨-, hs⟩ := Simulation.ofValues_cases values seed <;> cases hs.symm.trans h

/-- A simulation without samples is refused, then one with an invalid variable for the first of
them, then one of an unknown formula. Every other one evaluates its formula once for each sample and
accounts for all of these outputs, if its draws end; else it does not end, either. Draws end unless
they search for gamma numbers, and over a range whose width overflows the search has no end. -/
theorem accounted_of_runMonteCarlo (e : Engine) (now : Instant) (vs : List UncertainVariable)
    (formulaId : String) (size : Nat) (seed : UInt64) (fixed : Context) :
    let run := e.run (runMonteCarlo now vs formulaId size seed fixed)
    (run.1 = .error .emptySample ↔ size = 0) ∧
    (size ≠ 0 →
      (∀ before v after problem, vs = before ++ v :: after →
        (∀ w ∈ before, w.validate = .ok ()) → v.validate = .error problem →
        (∃ reason, problem = .invalidVariable v.id reason) ∧ run = (.error problem, e)) ∧
      ((∀ v ∈ vs, v.validate = .ok ()) →
        (e.formulas.get? formulaId = none → run = (.error (.unknownFormula formulaId), e)) ∧
        (∀ f, e.formulas.get? formulaId = some f →
          (∀ columns, columnDraws? vs size seed = some columns →
            IsTable vs size columns ∧
            (∀ i name, (e.sampled fixed columns i).get? name =
              ((placeOf columns i).reverse.lookup name).or
                ((fixed.get? name).or (e.assumptions.formulaContext.get? name))) ∧
            (e.sampledOutputs f fixed columns size).length = size ∧
            Accounts e formulaId (e.sampledOutputs f fixed columns size) seed run) ∧
          (columnDraws? vs size seed = none → run = (.error .endless, e))) ∧
        ((∀ v ∈ vs, ¬ v.Searches) → ∃ columns, columnDraws? vs size seed = some columns) ∧
        ((∃ v ∈ vs, v.Endless) → columnDraws? vs size seed = none))) := by
  intro run
  refine ⟨result_eq_emptySample_iff e now vs formulaId size seed fixed, fun hsize => ⟨?_, ?_⟩⟩
  · intro before v after problem hsplit hbefore hv
    have hvs : firstInvalid vs = .error problem :=
      firstInvalid_eq_error_iff.2 ⟨before, v, after, hsplit, hbefore, hv⟩
    exact ⟨UncertainVariable.exists_of_validate_eq_error hv,
      run_runMonteCarlo_of_error (checkedOutputs_of_invalid hsize hvs) now⟩
  · intro hvs
    refine ⟨fun hf => ?_, fun f hf => ⟨fun columns hcolumns => ?_, fun hnone => ?_⟩,
      fun hvs => exists_columnDraws? hvs size seed, ?_⟩
    · exact run_runMonteCarlo_of_error (checkedOutputs_of_unknown hsize hvs hf) now
    · have hread := checkedOutputs_of_known hsize hvs hf seed fixed
      rw [hcolumns] at hread
      exact ⟨isTable_of_columnDraws? hcolumns, get?_sampled e fixed columns, length_sampledOutputs,
        accounts_runMonteCarlo hread length_sampledOutputs now⟩
    · have hread := checkedOutputs_of_known hsize hvs hf seed fixed
      rw [hnone] at hread
      exact run_runMonteCarlo_of_error hread now
    · rintro ⟨v, hv, hendless⟩
      exact columnDraws?_eq_none_of_endless hv (hvs v hv) hendless hsize seed

/-- Two variables of one id: both are drawn, and the second one counts. -/
theorem accounted_of_doubled_variable :
    let e := new ⟨0, 0⟩
    let vs : List UncertainVariable :=
      [.uniform "monthlyCost" 1 2 .usdPerMonth, .point "monthlyCost" 5 .usdPerMonth]
    (∀ v ∈ vs, v.validate = .ok ()) ∧
    e.formulas.get? "token_cost_annual" = some .tokenCostAnnual ∧
    ∃ columns, columnDraws? vs 2 0 = some columns ∧
      (∀ i < 2, (e.sampled .empty columns i).get? "monthlyCost" = some 5) ∧
      Accounts e "token_cost_annual" (e.sampledOutputs .tokenCostAnnual .empty columns 2) 0
        (e.run (runMonteCarlo ⟨1, 0⟩ vs "token_cost_annual" 2 0 .empty)) := by
  intro e vs
  have hvalid : ∀ v ∈ vs, v.validate.isOk = true := by decide +kernel
  have hvs : ∀ v ∈ vs, v.validate = .ok () := fun v hv => eq_ok_of_isOk (hvalid v hv)
  have hf : e.formulas.get? "token_cost_annual" = some .tokenCostAnnual := rfl
  obtain ⟨-, hruns⟩ :=
    accounted_of_runMonteCarlo e ⟨1, 0⟩ vs "token_cost_annual" 2 0 .empty
  obtain ⟨-, hknown, hends, -⟩ := (hruns two_ne_zero).2 hvs
  obtain ⟨columns, hcolumns⟩ := hends (by decide +kernel)
  obtain ⟨-, hsampled, -, haccounts⟩ := (hknown _ hf).1 columns hcolumns
  have hdraws : ∀ i < 2, (columnDraws? vs 2 0).map (fun columns =>
      (placeOf columns i).reverse.lookup "monthlyCost") = some (some 5) := by decide +kernel
  refine ⟨hvs, hf, columns, hcolumns, fun i hi => ?_, haccounts⟩
  have hlookup := hdraws i hi
  rw [hcolumns, Option.map_some, Option.some.injEq] at hlookup
  rw [hsampled, hlookup]
  rfl

/-- The bounds are valid, and both shapes are infinite numbers over an infinite width. -/
theorem endless_of_wide_pert :
    let e := new ⟨0, 0⟩
    let vs : List UncertainVariable := [.pert "x" (-1.7e308) 0 1.7e308 .usd]
    (∀ v ∈ vs, v.validate = .ok ()) ∧
    e.formulas.get? "token_cost_annual" = some .tokenCostAnnual ∧
    e.run (runMonteCarlo ⟨1, 0⟩ vs "token_cost_annual" 2 0 .empty) = (.error .endless, e) := by
  intro e vs
  have hvalid : ∀ v ∈ vs, v.validate.isOk = true := by decide +kernel
  have hvs : ∀ v ∈ vs, v.validate = .ok () := fun v hv => eq_ok_of_isOk (hvalid v hv)
  have hf : e.formulas.get? "token_cost_annual" = some .tokenCostAnnual := rfl
  have hnone : columnDraws? vs 2 0 = none := by
    have hmem := List.mem_singleton_self (UncertainVariable.pert "x" (-1.7e308) 0 1.7e308 .usd)
    exact columnDraws?_eq_none_of_endless hmem (hvs _ hmem) (by decide +kernel) two_ne_zero 0
  have hread := checkedOutputs_of_known two_ne_zero hvs hf 0 .empty
  rw [hnone] at hread
  exact ⟨hvs, hf, run_runMonteCarlo_of_error hread ⟨1, 0⟩⟩

end Engine

end Appraisal
