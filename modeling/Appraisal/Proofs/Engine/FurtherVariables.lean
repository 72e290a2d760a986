import Appraisal.Proofs.Engine.Simulation
import Appraisal.Proofs.Formula.Registry

/-!
# Simulations with further variables

The draws of a variable are taken before those of all variables behind it, so they are the same
whatever these are, also where a draw takes as many random numbers as it happens to need. A formula
that does not require the variables behind does not see them either. But the run waits for their
draws, and these may have no end.
-/

namespace Appraisal.Engine

variable {e : Engine} {f : Formula} {vs ws : List UncertainVariable} {size : Nat} {seed : UInt64}
  {fixed : Context} {first rest : List (String × List Float)}

/-- A name that no further column has means the same with them. -/
theorem get?_sampled_append {name : String} (h : name ∉ rest.map (·.1)) (e : Engine)
    (fixed : Context) (first : List (String × List Float)) (i : Nat) :
    (e.sampled fixed (first ++ rest) i).get? name = (e.sampled fixed first i).get? name := by
  have hnone : (placeOf rest i).reverse.lookup name = none := by
    apply lookup_eq_none_of_notMem
    rwa [List.map_reverse, List.mem_reverse, map_fst_placeOf]
  have hplaces : placeOf (first ++ rest) i = placeOf first i ++ placeOf rest i := List.map_append
  rw [get?_sampled, get?_sampled, hplaces, List.reverse_append, List.lookup_append, hnone,
    Option.none_or]

theorem sampledOutputs_append (hf : f ∈ FormulaRegistry.standard.formulas)
    (hrest : ∀ name ∈ rest.map (·.1), name ∉ f.requiredVariables) :
    e.sampledOutputs f fixed (first ++ rest) size = e.sampledOutputs f fixed first size := by
  apply List.map_congr_left
  intro i _
  apply Formula.evaluate_congr hf
  intro name hname
  exact get?_sampled_append (fun hmem => hrest name hmem hname) e fixed first i

theorem firstInvalid_append (hws : ∀ w ∈ ws, w.validate = .ok ()) :
    firstInvalid (vs ++ ws) = firstInvalid vs := by
  induction vs with
  | nil => exact firstInvalid_eq_ok_iff.2 hws
  | cons v vs ih => rw [List.cons_append, firstInvalid, firstInvalid, ih]

/-- A simulation is refused before anything is drawn, or its draws tell how it goes on. -/
theorem simulated_eq (hsize : size ≠ 0) (hvs : ∀ v ∈ vs, v.validate = .ok ()) :
    simulated f (e.callContext fixed) vs size seed =
      (columnDraws? vs size seed).elim (.error .endless) fun columns =>
        Simulation.ofValues (e.sampledOutputs f fixed columns size) seed := by
  rw [simulated, if_neg hsize, firstInvalid_eq_ok_iff.2 hvs, ok_bind, outputs?_eq]
  cases columnDraws? vs size seed <;> rfl

theorem simulated_append_of_refused (hws : ∀ w ∈ ws, w.validate = .ok ())
    (h : size = 0 ∨ ∃ v ∈ vs, v.validate ≠ .ok ()) (base : Context) :
    simulated f base (vs ++ ws) size seed = simulated f base vs size seed := by
  rw [simulated, simulated, firstInvalid_append hws]
  obtain rfl | ⟨v, hv, hinvalid⟩ := h
  · rfl
  · cases hvs : firstInvalid vs with
    | error problem => rfl
    | ok => exact absurd (firstInvalid_eq_ok_iff.1 hvs v hv) hinvalid

theorem simulated_append_of_ends (hf : f ∈ FormulaRegistry.standard.formulas)
    (hws : ∀ w ∈ ws, w.validate = .ok ()) (hids : ∀ w ∈ ws, w.id ∉ f.requiredVariables)
    {columns : List (String × List Float)}
    (h : columnDraws? (vs ++ ws) size seed = some columns) :
    simulated f (e.callContext fixed) (vs ++ ws) size seed =
      simulated f (e.callContext fixed) vs size seed := by
  by_cases hrefused : size = 0 ∨ ∃ v ∈ vs, v.validate ≠ .ok ()
  · exact simulated_append_of_refused hws hrefused _
  · push Not at hrefused
    obtain ⟨hsize, hvs⟩ := hrefused
    obtain ⟨first, rest, hfirst, rfl, hrest⟩ := columnDraws?_append h
    have hnames : ∀ name ∈ rest.map (·.1), name ∉ f.requiredVariables := by
      rw [hrest]
      exact List.forall_mem_map.2 hids
    rw [simulated_eq hsize (List.forall_mem_append.2 ⟨hvs, hws⟩), simulated_eq hsize hvs, h, hfirst,
      Option.elim, Option.elim, sampledOutputs_append hf hnames]

/-- Two runs, the second one with further variables, whose formula is a standard one. The draws of
each variable are told by the seed, the number of samples and the variables up to it. So variables
that the formula does not require leave the answer as it is, also where it is a refusal, unless the
variables are drawn and some draw has no end: then the second run has none. Its draws end if those
of the first run do and no further variable searches for gamma numbers. -/
theorem further_variables_agree (e : Engine) (hf : f ∈ FormulaRegistry.standard.formulas)
    (hlatest : e.formulas.get? f.id = some f) (vs ws : List UncertainVariable)
    (hvalid : ∀ w ∈ ws, w.validate = .ok ()) (hids : ∀ w ∈ ws, w.id ∉ f.requiredVariables)
    (size : Nat) (seed : UInt64) (fixed : Context) (now now' : Instant) :
    let base := (e.run (runMonteCarlo now vs f.id size seed fixed)).1
    let further := (e.run (runMonteCarlo now' (vs ++ ws) f.id size seed fixed)).1
    (∀ us columns j, columnDraws? us size seed = some columns →
      columnDraws? (us.take j) size seed = some (columns.take j)) ∧
    (size = 0 ∨ (∃ v ∈ vs, v.validate ≠ .ok ()) ∨
      (∃ columns, columnDraws? (vs ++ ws) size seed = some columns) → further = base) ∧
    (size ≠ 0 → (∀ v ∈ vs, v.validate = .ok ()) → columnDraws? (vs ++ ws) size seed = none →
      further = .error .endless) ∧
    ((∃ columns, columnDraws? vs size seed = some columns) → (∀ w ∈ ws, ¬ w.Searches) →
      ∃ columns, columnDraws? (vs ++ ws) size seed = some columns) := by
  intro base further
  have hformula : e.formula f.id = .ok f := by
    rw [formula, hlatest]
  have hbase : base = simulated f (e.callContext fixed) vs size seed :=
    result_runMonteCarlo hformula now vs size seed fixed
  have hfurther : further = simulated f (e.callContext fixed) (vs ++ ws) size seed :=
    result_runMonteCarlo hformula now' (vs ++ ws) size seed fixed
  rw [hbase, hfurther]
  refine ⟨fun us columns j h => columnDraws?_take h j, ?_, fun hsize hvs hnone => ?_, ?_⟩
  · rintro (hsize | hinvalid | ⟨columns, hcolumns⟩)
    · exact simulated_append_of_refused hvalid (.inl hsize) _
    · exact simulated_append_of_refused hvalid (.inr hinvalid) _
    · exact simulated_append_of_ends hf hvalid hids hcolumns
  · rw [simulated_eq hsize (List.forall_mem_append.2 ⟨hvs, hvalid⟩), hnone]
    rfl
  · rintro ⟨columns, hcolumns⟩ hws
    exact exists_columnDraws?_append hcolumns hws

/-- The further variable takes two random numbers for each of its draws. -/
theorem further_variables_agree_of_cost :
    let e := new ⟨0, 0⟩
    let vs : List UncertainVariable := [.uniform "monthlyCost" 1 2 .usdPerMonth]
    let ws : List UncertainVariable := [.normal "monthlyCosts" 0 5 100 .usdPerMonth]
    (∀ w ∈ ws, w.validate = .ok ()) ∧
    (∀ w ∈ ws, w.id ∉ Formula.tokenCostAnnual.requiredVariables) ∧
    (∃ columns, columnDraws? (vs ++ ws) 3 7 = some columns ∧
      columnDraws? vs 3 7 = some (columns.take 1)) ∧
    (e.run (runMonteCarlo ⟨2, 0⟩ (vs ++ ws) "token_cost_annual" 3 7 .empty)).1 =
      (e.run (runMonteCarlo ⟨1, 0⟩ vs "token_cost_annual" 3 7 .empty)).1 := by
  intro e vs ws
  have hvalid : ∀ w ∈ ws, w.validate.isOk = true := by decide +kernel
  have hws : ∀ w ∈ ws, w.validate = .ok () := fun w hw => eq_ok_of_isOk (hvalid w hw)
  have hids : ∀ w ∈ ws, w.id ∉ Formula.tokenCostAnnual.requiredVariables := by decide +kernel
  have hf : Formula.tokenCostAnnual ∈ FormulaRegistry.standard.formulas := by
    simp [FormulaRegistry.standard]
  have hlatest : e.formulas.get? "token_cost_annual" = some .tokenCostAnnual := rfl
  obtain ⟨hdraws, hagree, -, hends⟩ := further_variables_agree e hf hlatest vs ws hws hids 3 7
    .empty ⟨1, 0⟩ ⟨2, 0⟩
  obtain ⟨columns, hcolumns⟩ :=
    hends (exists_columnDraws? (by decide +kernel) 3 7) (by decide +kernel)
  exact ⟨hws, hids, ⟨columns, hcolumns, hdraws (vs ++ ws) columns 1 hcolumns⟩,
    hagree (.inr (.inr ⟨columns, hcolumns⟩))⟩

/-- The further variable is valid, and the formula does not see it; but its range is too wide. -/
theorem further_variables_disagree_of_wide_pert :
    let e := new ⟨0, 0⟩
    let vs : List UncertainVariable := [.uniform "monthlyCost" 1 2 .usdPerMonth]
    let ws : List UncertainVariable := [.pert "x" (-1.7e308) 0 1.7e308 .usd]
    (∀ w ∈ ws, w.validate = .ok ()) ∧
    (∀ w ∈ ws, w.id ∉ Formula.tokenCostAnnual.requiredVariables) ∧
    (∃ s, (e.run (runMonteCarlo ⟨1, 0⟩ vs "token_cost_annual" 3 7 .empty)).1 = .ok s) ∧
    (e.run (runMonteCarlo ⟨2, 0⟩ (vs ++ ws) "token_cost_annual" 3 7 .empty)).1 =
      .error .endless := by
  intro e vs ws
  have hvalid : ∀ v ∈ vs ++ ws, v.validate.isOk = true := by decide +kernel
  have hall : ∀ v ∈ vs ++ ws, v.validate = .ok () := fun v hv => eq_ok_of_isOk (hvalid v hv)
  have hws : ∀ w ∈ ws, w.validate = .ok () := (List.forall_mem_append.1 hall).2
  have hids : ∀ w ∈ ws, w.id ∉ Formula.tokenCostAnnual.requiredVariables := by decide +kernel
  have hok : (e.run (runMonteCarlo ⟨1, 0⟩ vs "token_cost_annual" 3 7 .empty)).1.isOk = true := by
    decide +kernel
  have hmem : UncertainVariable.pert "x" (-1.7e308) 0 1.7e308 .usd ∈ vs ++ ws :=
    List.mem_append_right vs (List.mem_singleton_self _)
  have hnone : columnDraws? (vs ++ ws) 3 7 = none :=
    columnDraws?_eq_none_of_endless hmem (hall _ hmem) (by decide +kernel) three_ne_zero 7
  have hformula : e.formula "token_cost_annual" = .ok .tokenCostAnnual := rfl
  refine ⟨hws, hids, exists_of_isOk hok, ?_⟩
  rw [result_runMonteCarlo hformula, simulated_eq three_ne_zero hall, hnone]
  rfl

end Appraisal.Engine
