import Appraisal.Proofs.Engine.Values

/-!
# Operations that succeed

In a session over the standard formulas, with sound assumptions, nothing that a report is made of is
refused: every formula and every assumption that is asked for is there, and what is summed up has
the unit of the sum. The session stays one in which that holds.
-/

namespace Appraisal.Engine

/-- A session over the standard formulas with sound assumptions. -/
structure Standard (e : Engine) : Prop where
  formulas_eq : e.formulas = .standard
  sound : e.assumptions.Sound

theorem standard_new (now : Instant) : (new now).Standard :=
  ⟨rfl, AssumptionRegistry.sound_withDefaults⟩

/-- In every standard session the operation is answered, the answer has a property, and the session
stays standard. -/
def Op.Succeeds {α : Type} (op : Op α) (p : α → Prop) : Prop :=
  ∀ e : Engine, e.Standard → ∃ a e', e.run op = (.ok a, e') ∧ e'.Standard ∧ p a

namespace Op

variable {α β : Type} {op : Op α} {p : α → Prop} {q : β → Prop}

theorem succeeds_pure {a : α} (h : p a) : Succeeds (pure a) p :=
  fun e he => ⟨a, e, rfl, he, h⟩

theorem succeeds_get : Succeeds (get : Op Engine) fun _ => True :=
  fun e he => ⟨e, e, rfl, he, trivial⟩

theorem Succeeds.bind {f : α → Op β} (hop : op.Succeeds p) (hf : ∀ a, p a → (f a).Succeeds q) :
    (op >>= f).Succeeds q := by
  intro e he
  obtain ⟨a, e', hrun, he', ha⟩ := hop e he
  rw [run_bind, hrun]
  exact hf a ha e' he'

theorem Succeeds.imp {p' : α → Prop} (hop : op.Succeeds p) (h : ∀ a, p a → p' a) :
    op.Succeeds p' := by
  intro e he
  obtain ⟨a, e', hrun, he', ha⟩ := hop e he
  exact ⟨a, e', hrun, he', h a ha⟩

theorem succeeds_ask {read : Engine → Except EngineError α}
    (h : ∀ e : Engine, e.Standard → ∃ a, read e = .ok a ∧ p a) : Succeeds (ask read) p := by
  intro e he
  obtain ⟨a, hread, ha⟩ := h e he
  exact ⟨a, e, by rw [run_ask, hread], he, ha⟩

theorem succeeds_record (now : Instant) (action : Audit.Action)
    (details : List (String × Json)) : Succeeds (record now action details) fun _ => True :=
  fun _ he => ⟨(), _, rfl, ⟨he.formulas_eq, he.sound⟩, trivial⟩

end Op

variable {id : String}

theorem Standard.exists_find {e : Engine} (he : e.Standard)
    (h : id ∈ Assumption.defaults.map (·.id)) : ∃ a, e.assumptions.find id = .ok a :=
  he.sound.exists_find h

theorem succeeds_find (h : id ∈ Assumption.defaults.map (·.id)) :
    (Op.ask (·.assumptions.find id)).Succeeds fun _ => True := by
  refine Op.succeeds_ask fun e he => ?_
  obtain ⟨a, ha⟩ := he.exists_find h
  exact ⟨a, ha, trivial⟩

theorem succeeds_value (h : id ∈ Assumption.defaults.map (·.id)) :
    (Op.ask (·.assumptions.value id)).Succeeds fun _ => True := by
  refine Op.succeeds_ask fun e he => ?_
  obtain ⟨x, hx⟩ := he.sound.exists_value h
  exact ⟨x, hx, trivial⟩

/-- A value within the bounds of the default assumption is never refused. -/
theorem succeeds_updateAssumption (now : Instant) {value : Float}
    (h : AssumptionRegistry.withDefaults.check id value = .ok ()) :
    (updateAssumption now id value).Succeeds fun _ => True := by
  intro e he
  rw [← he.sound.check_eq] at h
  obtain ⟨a, hget, hcheck⟩ := AssumptionRegistry.check_eq_ok_iff.1 h
  have hupdate := AssumptionRegistry.update_eq_ok_iff.2 ⟨a, hget, hcheck, rfl, rfl⟩
  rw [run_updateAssumption, hupdate]
  exact ⟨(), _, rfl, ⟨he.formulas_eq, he.sound.override hget hcheck⟩, trivial⟩

theorem succeeds_evaluateFormula {f : Formula} (h : FormulaRegistry.standard.get? id = some f)
    (now : Instant) (context : Context) :
    (evaluateFormula now id context).Succeeds (·.unit = f.outputUnit) := by
  intro e he
  have hget : e.formulas.get? id = some f := by rw [he.formulas_eq, h]
  obtain ⟨-, -, -, hunit⟩ := origin_valueOf now f (e.callContext context)
  exact ⟨_, _, run_evaluateFormula hget now context, ⟨he.formulas_eq, he.sound⟩, hunit⟩

theorem succeeds_driverBenefit {factorId : String}
    (h : factorId ∈ Assumption.defaults.map (·.id)) (now : Instant) (base maturity : Float) :
    (driverBenefit now base factorId maturity).Succeeds (·.unit = .usdPerYear) :=
  (succeeds_value h).bind fun _ _ =>
    succeeds_evaluateFormula (f := .driverBenefit) rfl now _

theorem succeeds_driverBenefits (now : Instant) (raw : RawBenefits) :
    (driverBenefits now raw).Succeeds fun b => ∀ v ∈ b.values, v.unit = .usdPerYear := by
  refine (succeeds_value (by decide)).bind fun _ _ => ?_
  refine (succeeds_driverBenefit (by decide) now _ _).bind fun revenue hrevenue => ?_
  refine (succeeds_driverBenefit (by decide) now _ _).bind fun cost hcost => ?_
  refine (succeeds_driverBenefit (by decide) now _ _).bind fun cashFlow hcashFlow => ?_
  refine (succeeds_driverBenefit (by decide) now _ _).bind fun risk hrisk => ?_
  refine (succeeds_evaluateFormula (f := .totalAnnualValue) rfl now _).bind fun total htotal => ?_
  have htotal : total.unit = .usdPerYear := htotal
  refine Op.succeeds_pure ?_
  simp [DriverBenefits.values, hrevenue, hcost, hcashFlow, hrisk, htotal]

theorem succeeds_tokenCosts (now : Instant) (usage : TokenUsage) :
    (tokenCosts now usage).Succeeds (·.annualCost.unit = .usdPerYear) := by
  refine (succeeds_value (by decide)).bind fun _ _ => ?_
  refine (succeeds_value (by decide)).bind fun _ _ => ?_
  refine (succeeds_evaluateFormula (f := .tokenCostMonthly) rfl now _).bind fun _ _ => ?_
  refine (succeeds_evaluateFormula (f := .tokenCostAnnual) rfl now _).bind fun _ hannual => ?_
  exact Op.succeeds_pure hannual

theorem succeeds_priority (now : Instant) (inputs : PriorityInputs) :
    (priority now inputs).Succeeds fun _ => True := by
  refine (succeeds_evaluateFormula (f := .valueScore) rfl now _).bind fun _ _ => ?_
  refine (succeeds_evaluateFormula (f := .ttvScore) rfl now _).bind fun _ _ => ?_
  refine (succeeds_value (by decide)).bind fun _ _ => ?_
  refine (succeeds_value (by decide)).bind fun _ _ => ?_
  refine (succeeds_value (by decide)).bind fun _ _ => ?_
  refine (succeeds_evaluateFormula (f := .priorityScore) rfl now _).bind fun _ _ => ?_
  exact Op.succeeds_pure trivial

theorem succeeds_sumValues (now : Instant) (label : String)
    {terms : List (String × CalculatedValue)} {target : Measure}
    (h : ∀ t ∈ terms, t.2.unit.dimension = target.dimension) :
    (sumValues now label terms target).Succeeds fun _ => True := by
  refine (Op.succeeds_ask (p := fun _ => True) fun e _ => ?_).bind fun v _ => ?_
  · obtain ⟨v, hv⟩ := exists_sumOf now h
    exact ⟨v, hv, trivial⟩
  · exact (Op.succeeds_record now _ _).bind fun _ _ => Op.succeeds_pure trivial

end Appraisal.Engine
