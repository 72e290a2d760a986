import Appraisal.Proofs.Engine.Recomputation
import Appraisal.Proofs.Engine.Success
import Appraisal.Proofs.Number.Bounds

/-!
# Outcomes of evaluations

A standard formula that is given all its variables gives its number, or a flaw if the number is not
finite. Which of the two it is follows from bounds of the variables.
-/

namespace Appraisal

/-- A value that was calculated as a number: the number, or a flaw in place of one that is not
finite. -/
inductive CalculatedValue.Outcome (x : Float) (v : CalculatedValue) : Prop
  | usable (hflaw : v.flaw = none) (hvalue : v.value = x) (hx : x.isFinite = true)
  | flawed (hflaw : v.flaw ≠ none) (hvalue : v.value = 0) (hx : x.isFinite = false)

namespace CalculatedValue

variable {x bound : Float} {v : CalculatedValue}

theorem Outcome.flaw_eq_none_iff (h : v.Outcome x) : v.flaw = none ↔ x.isFinite = true := by
  cases h with
  | usable hflaw _ hx => exact iff_of_true hflaw hx
  | flawed hflaw _ hx => exact iff_of_false hflaw (by rw [hx]; exact Bool.false_ne_true)

theorem Outcome.usable_of_finite (h : v.Outcome x) (hx : x.isFinite = true) :
    v.flaw = none ∧ v.value = x := by
  cases h with
  | usable hflaw hvalue _ => exact ⟨hflaw, hvalue⟩
  | flawed _ _ hnot => rw [hnot] at hx; cases hx

/-- Whatever holds of zero and of the number if it is finite holds of the value. -/
theorem Outcome.upTo (h : v.Outcome x) (hbound : 0 ≤ toRat bound)
    (hx : x.isFinite = true → UpTo bound x) : UpTo bound v.value := by
  cases h with
  | usable _ hvalue hfinite => exact hvalue ▸ hx hfinite
  | flawed _ hvalue _ => exact hvalue ▸ upTo_zero hbound

/-- A value that was calculated as a number from inputs of which it has a record. -/
structure Evaluated (inputs : List (String × Float)) (x : Float) (v : CalculatedValue) : Prop where
  inputs : ∀ p ∈ inputs, v.inputs.get? p.1 = some p.2
  outcome : v.Outcome x
  nonFinite : ∀ flaw ∈ v.flaw, flaw = .nonFinite

end CalculatedValue

namespace Formula

theorem read_ofPairs (pairs : List (String × Float)) (name : String) :
    read (.ofPairs pairs) name = (pairs.reverse.lookup name).getD (0 / 0) := by
  rw [read, Context.get?_ofPairs]

end Formula

namespace AssumptionRegistry.Sound

variable {r : AssumptionRegistry} {id : String} {x bound low : Float}

/-- The value of an assumption is within the bounds of its default. -/
theorem bounds_of_value (hr : r.Sound) (h : r.value id = .ok x) :
    ∃ d ∈ Assumption.defaults, d.id = id ∧
      x.isFinite = true ∧ ¬ x < d.minimum ∧ ¬ d.maximum < x := by
  obtain ⟨a, hfind, rfl⟩ := map_eq_ok_iff.1 h
  obtain ⟨hmem, hid⟩ := mem_of_get? (find_eq_ok_iff.1 hfind)
  exact ⟨a.restored, hr.restored_mem hmem, hid, Assumption.check_eq_ok_iff.1 (hr.inBounds a hmem)⟩

theorem upTo_of_value (hr : r.Sound) (h : r.value id = .ok x)
    (hbounds : ∀ d ∈ Assumption.defaults, d.id = id →
      (d.minimum.isFinite = true ∧ d.maximum.isFinite = true) ∧ 0 ≤ d.minimum ∧
        d.maximum ≤ bound)
    (hbound : bound.isFinite = true) : UpTo bound x := by
  obtain ⟨d, hmem, hid, hfinite, hminimum, hmaximum⟩ := hr.bounds_of_value h
  obtain ⟨⟨hmin, hmax⟩, hzero, hle⟩ := hbounds d hmem hid
  rw [not_lt_iff_le hfinite hmin, le_iff_toRat_le hmin hfinite] at hminimum
  rw [not_lt_iff_le hmax hfinite, le_iff_toRat_le hfinite hmax] at hmaximum
  rw [le_iff_toRat_le rfl hmin, toRat_zero] at hzero
  rw [le_iff_toRat_le hmax hbound] at hle
  exact ⟨hfinite, hzero.trans hminimum, hmaximum.trans hle⟩

/-- A number up to the least value that is allowed is a number up to the value. -/
theorem upTo_value (hr : r.Sound) (h : r.value id = .ok x)
    (hbounds : ∀ d ∈ Assumption.defaults, d.id = id → d.minimum.isFinite = true ∧ low ≤ d.minimum)
    (hlow : low.isFinite = true) (hzero : 0 ≤ low) : UpTo x low := by
  obtain ⟨d, hmem, hid, hfinite, hminimum, -⟩ := hr.bounds_of_value h
  obtain ⟨hmin, hle⟩ := hbounds d hmem hid
  rw [not_lt_iff_le hfinite hmin, le_iff_toRat_le hmin hfinite] at hminimum
  rw [le_iff_toRat_le rfl hlow, toRat_zero] at hzero
  rw [le_iff_toRat_le hlow hmin] at hle
  exact ⟨hlow, hzero, hle.trans hminimum⟩

end AssumptionRegistry.Sound

namespace Engine

open CalculatedValue (Outcome)

variable {id : String} {f : Formula} {pairs : List (String × Float)}

theorem outcome_valueOf {full : Context} (h : f.missingVariables full = []) (now : Instant) :
    (valueOf now f full).Outcome (f.evaluate full) := by
  rw [valueOf, h]
  split_ifs with hmissing hfinite
  · cases hmissing
  · exact .usable rfl rfl hfinite
  · exact .flawed (Option.some_ne_none _) rfl (by simpa using hfinite)

theorem flaw_valueOf {full : Context} (h : f.missingVariables full = []) (now : Instant) :
    ∀ flaw ∈ (valueOf now f full).flaw, flaw = .nonFinite := by
  rw [valueOf, h]
  split_ifs with hmissing
  · cases hmissing
  · rintro _ ⟨⟩
  · rintro _ ⟨⟩
    rfl

theorem mem_ofPairs {name : String} (h : name ∈ pairs.map (·.1)) :
    name ∈ Context.ofPairs pairs := by
  rw [Context.mem_iff_isSome_get?, Context.get?_ofPairs, Option.isSome_iff_ne_none, Ne,
    List.lookup_eq_none_iff]
  intro hnone
  obtain ⟨p, hp, rfl⟩ := List.mem_map.1 h
  simpa using hnone p (List.mem_reverse.2 hp)

section

variable {base context : Context}

/-- A context that defines a variable hides the assumption. -/
theorem get?_overlay_of_mem {name : String} (h : name ∈ context) :
    (base.overlay context).get? name = context.get? name := by
  obtain ⟨x, hx⟩ := Option.isSome_iff_exists.1 (Context.mem_iff_isSome_get?.1 h)
  rw [Context.get?_overlay, hx]
  rfl

theorem missingVariables_overlay (h : ∀ name ∈ f.requiredVariables, name ∈ context) :
    f.missingVariables (base.overlay context) = [] := by
  rw [Formula.missingVariables_eq_nil_iff]
  intro name hname
  rw [Context.mem_iff_isSome_get?, get?_overlay_of_mem (h name hname)]
  exact Context.mem_iff_isSome_get?.1 (h name hname)

/-- A standard formula whose variables are all in the context of the call does not depend on the
assumptions. -/
theorem outcome_valueOf_overlay (hf : f ∈ FormulaRegistry.standard.formulas)
    (h : ∀ name ∈ f.requiredVariables, name ∈ context) (base : Context) (now : Instant) :
    (valueOf now f (base.overlay context)).Outcome (f.evaluate context) := by
  have hevaluate : f.evaluate (base.overlay context) = f.evaluate context :=
    Formula.evaluate_congr hf fun name hname => get?_overlay_of_mem (h name hname)
  exact hevaluate ▸ outcome_valueOf (missingVariables_overlay h) now

theorem inputs_valueOf_overlay {name : String} (hname : name ∈ f.requiredVariables)
    (h : name ∈ context) (base : Context) (now : Instant) :
    (valueOf now f (base.overlay context)).inputs.get? name = context.get? name := by
  obtain ⟨-, -, hinputs, -⟩ := origin_valueOf now f (base.overlay context)
  rw [hinputs, Formula.get?_inputs, if_pos hname, get?_overlay_of_mem h]

/-- In a context that binds just its variables a standard formula gives its number on them. -/
theorem evaluated_valueOf (hf : f ∈ FormulaRegistry.standard.formulas)
    (hnodup : (pairs.map (·.1)).Nodup)
    (hnames : ∀ name, name ∈ f.requiredVariables ↔ name ∈ pairs.map (·.1))
    (hcontext : ∀ name, context.get? name = (Context.ofPairs pairs).get? name) (base : Context)
    (now : Instant) :
    (valueOf now f (base.overlay context)).Evaluated pairs (f.evaluate (.ofPairs pairs)) := by
  have hrequired : ∀ name ∈ f.requiredVariables, name ∈ context := fun name hname => by
    rw [Context.mem_iff_isSome_get?, hcontext, ← Context.mem_iff_isSome_get?]
    exact mem_ofPairs ((hnames name).1 hname)
  refine ⟨fun p hp => ?_, ?_, flaw_valueOf (missingVariables_overlay hrequired) now⟩
  · have hname := (hnames p.1).2 (List.mem_map_of_mem hp)
    rw [inputs_valueOf_overlay hname (hrequired p.1 hname), hcontext]
    exact Context.get?_ofPairs_of_mem hnodup hp
  · rw [← Formula.evaluate_congr hf fun name _ => hcontext name]
    exact outcome_valueOf_overlay hf hrequired base now

end

theorem succeeds_outcome (h : FormulaRegistry.standard.get? id = some f) (now : Instant)
    (hrequired : ∀ name ∈ f.requiredVariables, name ∈ pairs.map (·.1)) :
    (evaluateFormula now id (.ofPairs pairs)).Succeeds
      (Outcome (f.evaluate (.ofPairs pairs))) := by
  intro e he
  have hget : e.formulas.get? id = some f := by rw [he.formulas_eq, h]
  refine ⟨_, _, run_evaluateFormula hget now _, ⟨he.formulas_eq, he.sound⟩, ?_⟩
  exact outcome_valueOf_overlay (FormulaRegistry.mem_of_get? h).1
    (fun name hname => mem_ofPairs (hrequired name hname)) _ now

theorem Op.Succeeds.and {α : Type} {op : Op α} {p q : α → Prop} (hp : op.Succeeds p)
    (hq : op.Succeeds q) : op.Succeeds fun a => p a ∧ q a := by
  intro e he
  obtain ⟨a, e', hrun, he', ha⟩ := hp e he
  obtain ⟨a', e'', hrun', -, ha'⟩ := hq e he
  obtain ⟨⟨⟩, rfl⟩ := Prod.mk.inj (hrun.symm.trans hrun')
  exact ⟨a, e', hrun, he', ha, ha'⟩

theorem exists_value_upTo {r : AssumptionRegistry} (hr : r.Sound) {bound : Float}
    (h : id ∈ Assumption.defaults.map (·.id))
    (hbounds : ∀ d ∈ Assumption.defaults, d.id = id →
      (d.minimum.isFinite = true ∧ d.maximum.isFinite = true) ∧ 0 ≤ d.minimum ∧
        d.maximum ≤ bound)
    (hbound : bound.isFinite = true) : ∃ x, r.value id = .ok x ∧ UpTo bound x := by
  obtain ⟨x, hx⟩ := hr.exists_value h
  exact ⟨x, hx, hr.upTo_of_value hx hbounds hbound⟩

theorem succeeds_value_upTo {bound : Float} (h : id ∈ Assumption.defaults.map (·.id))
    (hbounds : ∀ d ∈ Assumption.defaults, d.id = id →
      (d.minimum.isFinite = true ∧ d.maximum.isFinite = true) ∧ 0 ≤ d.minimum ∧
        d.maximum ≤ bound)
    (hbound : bound.isFinite = true) :
    (Op.ask (·.assumptions.value id)).Succeeds (UpTo bound) :=
  Op.succeeds_ask fun _ he => exists_value_upTo he.sound h hbounds hbound

variable {now : Instant}

/-- The cost of tokens at a price, per million. If it is finite it is far from an overflow. -/
theorem upTo_tokenCost {tokensPerRun runs price : Float} (htokens : UpTo tokensPerRun tokensPerRun)
    (hruns : UpTo runs runs) (hprice : UpTo 100 price)
    (h : (tokensPerRun * runs * price / 1000000).isFinite = true) :
    UpTo (.ofBits 0x7EC0000000000000) (tokensPerRun * runs * price / 1000000) := by
  have hproduct : (tokensPerRun * runs * price).isFinite = true := isFinite_of_div h
  have hcost := (htokens.mul_of_isFinite hruns (isFinite_of_mul hproduct).1).mul_of_isFinite hprice
    hproduct
  obtain ⟨hfinite, hmillion⟩ := literal_exact (n := 1000000) (by norm_num)
  refine hcost.div hfinite (by rw [hmillion]; norm_num) ?_
  rw [hmillion, toRat_two_pow_1005]
  calc toRat (tokensPerRun * runs * price) ≤ 2 ^ (1024 : Int) := (toRat_lt _).le
    _ = 2 ^ (1005 : Int) * 2 ^ (19 : Int) := by rw [← zpow_add₀ (by norm_num)]; rfl
    _ ≤ 2 ^ (1005 : Int) * (1000000 : Nat) := by gcongr; norm_num

/-- The cost of a year is usable. -/
theorem succeeds_tokenCosts_usable {usage : TokenUsage}
    (hinput : UpTo usage.inputTokensPerRun usage.inputTokensPerRun)
    (houtput : UpTo usage.outputTokensPerRun usage.outputTokensPerRun)
    (hruns : UpTo usage.runsPerMonth usage.runsPerMonth) (now : Instant) :
    (tokenCosts now usage).Succeeds fun c => c.annualCost.flaw = none := by
  have hprice (id : String) (h : id ∈ Assumption.defaults.map (·.id))
      (hbounds : ∀ d ∈ Assumption.defaults, d.id = id →
        (d.minimum.isFinite = true ∧ d.maximum.isFinite = true) ∧ 0 ≤ d.minimum ∧
          d.maximum ≤ 100) :=
    succeeds_value_upTo h hbounds rfl
  refine (hprice _ (by decide) (by decide +kernel)).bind fun inputPrice hinputPrice => ?_
  refine (hprice _ (by decide) (by decide +kernel)).bind fun outputPrice houtputPrice => ?_
  refine (succeeds_outcome (f := .tokenCostMonthly) rfl now
    (by simp [Formula.tokenCostMonthly])).bind fun monthly hmonthly => ?_
  refine (succeeds_outcome (f := .tokenCostAnnual) rfl now
    (by simp [Formula.tokenCostAnnual])).bind fun annual hannual => Op.succeeds_pure ?_
  simp only [Formula.evaluate, Formula.tokenCostMonthly, Formula.read_ofPairs] at hmonthly
  simp only [Formula.evaluate, Formula.tokenCostAnnual, Formula.read_ofPairs] at hannual
  have hupTo : UpTo (.ofBits 0x7ED0000000000000) monthly.value := by
    refine Outcome.upTo hmonthly ?_ fun hfinite => ?_
    · rw [toRat_two_pow_1006]
      positivity
    · obtain ⟨hleft, hright⟩ := isFinite_of_add hfinite
      refine (upTo_tokenCost hinput hruns hinputPrice hleft).add
        (upTo_tokenCost houtput hruns houtputPrice hright) (le_of_eq ?_)
      rw [toRat_two_pow_1005, toRat_two_pow_1006, ← two_mul, ← zpow_one_add₀ (by norm_num)]
      rfl
  obtain ⟨hfinite, htwelve⟩ := literal_exact (n := 12) (by norm_num)
  have hyear : UpTo (.ofBits 0x7F10000000000000) (monthly.value * 12) := by
    refine hupTo.mul (upTo_self hfinite (by rw [htwelve]; norm_num)) ?_
    rw [toRat_two_pow_1006, htwelve, toRat_two_pow_1010]
    calc (2 : ℚ) ^ (1006 : Int) * (12 : Nat) ≤ 2 ^ (1006 : Int) * 2 ^ (4 : Int) := by
          gcongr; norm_num
      _ = 2 ^ (1010 : Int) := by rw [← zpow_add₀ (by norm_num)]; rfl
  exact (Outcome.usable_of_finite hannual hyear.isFinite).1

end Engine

end Appraisal
