import Appraisal.Proofs.Audit.Entries
import Appraisal.Proofs.Engine.Success

/-!
# What operations record

In a standard session the operations that a report is made of are answered, and what they record
can be told from their answers: one evaluation for each value that they calculate.
-/

namespace Appraisal

open Audit (Event)

/-- An entry tells a calculated value: the formula and the version that gave it, and the number,
which is `null` if it is not finite. -/
structure Audit.Entry.Tells (entry : Audit.Entry) (v : CalculatedValue) : Prop where
  action : entry.action = .evaluateFormula
  formulaId : entry.details.get? "formulaId" = some (.string v.formulaId)
  version : entry.details.get? "version" = some (.string v.formulaVersion)
  value : entry.details.get? "value" = some (.amount v.value)

/-- An entry tells a sum: its label and the number. -/
structure Audit.Entry.TellsSum (entry : Audit.Entry) (label : String) (v : CalculatedValue) :
    Prop where
  action : entry.action = .aggregate
  label : entry.details.get? "label" = some (.string label)
  value : entry.details.get? "value" = some (.amount v.value)

/-- An entry tells that a value was written. -/
structure Audit.Entry.TellsUpdate (entry : Audit.Entry) (v : AssumptionValue) : Prop where
  action : entry.action = .updateAssumption
  id : entry.details.get? "id" = some (.string v.id)
  value : entry.details.get? "value" = some (.amount v.value)

namespace Engine

/-- What an evaluation records. -/
def evaluation (v : CalculatedValue) : Event :=
  (.evaluateFormula, .object
    [("formulaId", .string v.formulaId), ("version", .string v.formulaVersion),
     ("value", .amount v.value), ("error", .optional (.string ·.message) v.flaw)])

/-- What a sum of a number of terms records. -/
def aggregation (label : String) (size : Nat) (target : Measure) (v : CalculatedValue) : Event :=
  (.aggregate, .object
    [("label", .string label), ("terms", .count size), ("unit", target.toJson),
     ("value", .amount v.value)])

/-- What an update records. -/
def updated (v : AssumptionValue) (previous : Float) : Event :=
  (.updateAssumption, .object
    [("id", .string v.id), ("previous", .amount previous), ("value", .amount v.value)])

variable {entry : Audit.Entry} {v : CalculatedValue} {label : String}

theorem tells_of_event (h : entry.event = evaluation v) : entry.Tells v := by
  obtain ⟨haction, hdetails⟩ := Prod.mk.inj h
  exact ⟨haction, by rw [hdetails]; rfl, by rw [hdetails]; rfl, by rw [hdetails]; rfl⟩

theorem tellsSum_of_event {size : Nat} {target : Measure}
    (h : entry.event = aggregation label size target v) : entry.TellsSum label v := by
  obtain ⟨haction, hdetails⟩ := Prod.mk.inj h
  exact ⟨haction, by rw [hdetails]; rfl, by rw [hdetails]; rfl⟩

theorem tellsUpdate_of_event {u : AssumptionValue} {previous : Float}
    (h : entry.event = updated u previous) : entry.TellsUpdate u := by
  obtain ⟨haction, hdetails⟩ := Prod.mk.inj h
  exact ⟨haction, by rw [hdetails]; rfl, by rw [hdetails]; rfl⟩

/-- There are so many evaluations and so many sums among the events, and nothing else. -/
structure Tally (events : List Event) (evaluations sums : Nat) : Prop where
  evaluations : events.countP (·.1 = .evaluateFormula) = evaluations
  sums : events.countP (·.1 = .aggregate) = sums
  only : ∀ event ∈ events, event.1 = .evaluateFormula ∨ event.1 = .aggregate

theorem Tally.append {events events' : List Event} {n n' k k' : Nat} (h : Tally events n k)
    (h' : Tally events' n' k') : Tally (events ++ events') (n + n') (k + k') where
  evaluations := by rw [List.countP_append, h.evaluations, h'.evaluations]
  sums := by rw [List.countP_append, h.sums, h'.sums]
  only := List.forall_mem_append.2 ⟨h.only, h'.only⟩

theorem tally_evaluations (values : List CalculatedValue) :
    Tally (values.map evaluation) values.length 0 where
  evaluations := by simp [evaluation, Function.comp_def]
  sums := by simp [evaluation, Function.comp_def]
  only := List.forall_mem_map.2 fun _ _ => .inl rfl

theorem tally_aggregations (size : Nat) (target : Measure)
    (sums : List (String × CalculatedValue)) :
    Tally (sums.map fun s => aggregation s.1 size target s.2) 0 sums.length where
  evaluations := by simp [aggregation, Function.comp_def]
  sums := by simp [aggregation, Function.comp_def]
  only := List.forall_mem_map.2 fun _ _ => .inr rfl

/-- In every standard session the operation is answered, the answer and what was recorded at one
reading of the clock have a property, and the session stays standard. -/
def Op.Logs {α : Type} (op : Op α) (now : Instant) (p : α → List Event → Prop) : Prop :=
  ∀ e : Engine, e.Standard → ∃ a events e', e.run op = (.ok a, e') ∧ e'.Standard ∧
    e'.audit = e.audit.recordAll (events.map (now, ·)) ∧ p a events

namespace Op

variable {α β : Type} {op : Op α} {now : Instant} {p : α → List Event → Prop}
  {q : β → List Event → Prop}

theorem logs_pure {a : α} (h : p a []) : Logs (pure a) now p :=
  fun e he => ⟨a, [], e, rfl, he, rfl, h⟩

theorem Logs.bind {f : α → Op β} (hop : op.Logs now p)
    (hf : ∀ a events, p a events → (f a).Logs now fun b events' => q b (events ++ events')) :
    (op >>= f).Logs now q := by
  intro e he
  obtain ⟨a, events, e', hrun, he', haudit, ha⟩ := hop e he
  obtain ⟨b, events', e'', hrun', he'', haudit', hb⟩ := hf a events ha e' he'
  rw [run_bind, hrun]
  refine ⟨b, events ++ events', e'', hrun', he'', ?_, hb⟩
  rw [haudit', haudit, List.map_append, Audit.Log.recordAll_append]

theorem Logs.imp {p' : α → List Event → Prop} (hop : op.Logs now p)
    (h : ∀ a events, p a events → p' a events) : op.Logs now p' := by
  intro e he
  obtain ⟨a, events, e', hrun, he', haudit, ha⟩ := hop e he
  exact ⟨a, events, e', hrun, he', haudit, h a events ha⟩

theorem Logs.succeeds (hop : op.Logs now p) : op.Succeeds fun a => ∃ events, p a events := by
  intro e he
  obtain ⟨a, events, e', hrun, he', -, ha⟩ := hop e he
  exact ⟨a, e', hrun, he', events, ha⟩

theorem Logs.and_succeeds {p' : α → Prop} (hop : op.Logs now p) (hop' : op.Succeeds p') :
    op.Logs now fun a events => p a events ∧ p' a := by
  intro e he
  obtain ⟨a, events, e', hrun, he', haudit, ha⟩ := hop e he
  obtain ⟨a', e'', hrun', -, ha'⟩ := hop' e he
  obtain ⟨⟨⟩, rfl⟩ := Prod.mk.inj (hrun.symm.trans hrun')
  exact ⟨a, events, e', hrun, he', haudit, ha, ha'⟩

theorem logs_ask {read : Engine → Except EngineError α} (p' : α → Prop)
    (h : ∀ e : Engine, e.Standard → ∃ a, read e = .ok a ∧ p' a) :
    (ask read).Logs now fun a events => events = [] ∧ p' a := by
  intro e he
  obtain ⟨a, hread, ha⟩ := h e he
  exact ⟨a, [], e, by rw [run_ask, hread], he, rfl, rfl, ha⟩

theorem logs_record (now : Instant) (action : Audit.Action) (details : List (String × Json)) :
    (record now action details).Logs now fun _ events => events = [(action, .object details)] :=
  fun _ he => ⟨(), _, _, rfl, ⟨he.formulas_eq, he.sound⟩, rfl, rfl⟩

end Op

variable {id : String}

theorem logs_value (now : Instant) (h : id ∈ Assumption.defaults.map (·.id)) :
    (Op.ask (·.assumptions.value id)).Logs now fun _ events => events = [] := by
  refine (Op.logs_ask (fun _ => True) fun e he => ?_).imp fun _ _ h => h.1
  obtain ⟨a, ha⟩ := he.exists_find h
  exact ⟨a.currentValue, by rw [AssumptionRegistry.value, ha]; rfl, trivial⟩

/-- A value within the bounds of the default assumption is written with one entry. -/
theorem logs_updateAssumption (now : Instant) {v : AssumptionValue}
    (h : AssumptionRegistry.withDefaults.check v.id v.value = .ok ()) :
    (updateAssumption now v.id v.value).Logs now fun _ events =>
      ∃ previous, events = [updated v previous] := by
  intro e he
  rw [← he.sound.check_eq] at h
  obtain ⟨a, hget, hcheck⟩ := AssumptionRegistry.check_eq_ok_iff.1 h
  have hupdate := AssumptionRegistry.update_eq_ok_iff.2 ⟨a, hget, hcheck, rfl, rfl⟩
  rw [run_updateAssumption, hupdate]
  exact ⟨(), _, _, rfl, ⟨he.formulas_eq, he.sound.override hget hcheck⟩, rfl,
    a.currentValue, rfl⟩

theorem logs_evaluateFormula {f : Formula} (h : FormulaRegistry.standard.get? id = some f)
    (now : Instant) (context : Context) :
    (evaluateFormula now id context).Logs now fun v events =>
      events = [evaluation v] ∧ v.formulaId = f.id := by
  intro e he
  have hget : e.formulas.get? id = some f := by rw [he.formulas_eq, h]
  obtain ⟨hid, -, -, -⟩ := origin_valueOf now f (e.callContext context)
  exact ⟨_, _, _, run_evaluateFormula hget now context, ⟨he.formulas_eq, he.sound⟩, rfl, rfl, hid⟩

theorem logs_driverBenefit {factorId : String} (h : factorId ∈ Assumption.defaults.map (·.id))
    (now : Instant) (base maturity : Float) :
    (driverBenefit now base factorId maturity).Logs now fun v events =>
      events = [evaluation v] := by
  refine (logs_value now h).bind ?_
  rintro factor _ rfl
  exact (logs_evaluateFormula (f := .driverBenefit) rfl now _).imp fun _ _ h => h.1

theorem logs_driverBenefits (now : Instant) (raw : RawBenefits) :
    (driverBenefits now raw).Logs now fun b events => events = b.values.map evaluation := by
  refine (logs_value now (by decide)).bind ?_
  rintro maturity _ rfl
  refine (logs_driverBenefit (by decide) now _ _).bind ?_
  rintro revenue _ rfl
  refine (logs_driverBenefit (by decide) now _ _).bind ?_
  rintro cost _ rfl
  refine (logs_driverBenefit (by decide) now _ _).bind ?_
  rintro cashFlow _ rfl
  refine (logs_driverBenefit (by decide) now _ _).bind ?_
  rintro risk _ rfl
  refine (logs_evaluateFormula (f := .totalAnnualValue) rfl now _).bind ?_
  rintro total _ ⟨rfl, -⟩
  exact Op.logs_pure rfl

theorem logs_tokenCosts (now : Instant) (usage : TokenUsage) :
    (tokenCosts now usage).Logs now fun c events => events = c.values.map evaluation := by
  refine (logs_value now (by decide)).bind ?_
  rintro inputPrice _ rfl
  refine (logs_value now (by decide)).bind ?_
  rintro outputPrice _ rfl
  refine (logs_evaluateFormula (f := .tokenCostMonthly) rfl now _).bind ?_
  rintro monthly _ ⟨rfl, -⟩
  refine (logs_evaluateFormula (f := .tokenCostAnnual) rfl now _).bind ?_
  rintro annual _ ⟨rfl, -⟩
  exact Op.logs_pure rfl

theorem logs_priority (now : Instant) (inputs : PriorityInputs) :
    (priority now inputs).Logs now fun s events => events = s.values.map evaluation := by
  refine (logs_evaluateFormula (f := .valueScore) rfl now _).bind ?_
  rintro value _ ⟨rfl, -⟩
  refine (logs_evaluateFormula (f := .ttvScore) rfl now _).bind ?_
  rintro ttv _ ⟨rfl, -⟩
  refine (logs_value now (by decide)).bind ?_
  rintro valueWeight _ rfl
  refine (logs_value now (by decide)).bind ?_
  rintro ttvWeight _ rfl
  refine (logs_value now (by decide)).bind ?_
  rintro effortWeight _ rfl
  refine (logs_evaluateFormula (f := .priorityScore) rfl now _).bind ?_
  rintro priority _ ⟨rfl, -⟩
  exact Op.logs_pure rfl

theorem logs_sumValues (now : Instant) (label : String)
    {terms : List (String × CalculatedValue)} {target : Measure}
    (h : ∀ t ∈ terms, t.2.unit.dimension = target.dimension) :
    (sumValues now label terms target).Logs now fun v events =>
      events = [aggregation label terms.length target v] ∧ sumOf now terms target = .ok v := by
  refine (Op.logs_ask (fun v => sumOf now terms target = .ok v) fun e _ => ?_).bind ?_
  · obtain ⟨v, hv⟩ := exists_sumOf now h
    exact ⟨v, hv, hv⟩
  · rintro v _ ⟨rfl, hv⟩
    refine (Op.logs_record now _ _).bind ?_
    rintro _ _ rfl
    exact Op.logs_pure ⟨rfl, hv⟩

end Engine

end Appraisal
