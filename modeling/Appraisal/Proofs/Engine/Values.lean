import Appraisal.Proofs.Engine.Run
import Appraisal.Proofs.Except
import Appraisal.Proofs.Float

/-!
# Calculated values

A calculated value should be fit for use or say why it is not. Each evaluation looks at its own
result. A sum looks at the flaws of its terms, but not at its total, which overflows unnoticed.
-/

namespace Appraisal

/-- A value without a flaw is a finite number, and a flawed one is 0. -/
def CalculatedValue.Sound (v : CalculatedValue) : Prop :=
  v.flaw = none ∧ v.value.isFinite = true ∨ v.flaw ≠ none ∧ v.value = 0

instance : DecidablePred CalculatedValue.Sound := fun v =>
  inferInstanceAs (Decidable
    (v.flaw = none ∧ v.value.isFinite = true ∨ v.flaw ≠ none ∧ v.value = 0))

namespace CalculatedValue

variable {v : CalculatedValue}

theorem sound_flawed (v : CalculatedValue) (flaw : Flaw) : (v.flawed flaw).Sound :=
  .inr ⟨Option.some_ne_none flaw, rfl⟩

theorem sound_iff_of_flaw_eq_none (h : v.flaw = none) : v.Sound ↔ v.value.isFinite = true := by
  simp [Sound, h]

end CalculatedValue

theorem Measure.convert_eq_ok_iff {x y : Float} {source target : Measure} :
    convert x source target = .ok y ↔
      source.dimension = target.dimension ∧ rescale x source target = y := by
  rw [convert, checkCompatible]
  split_ifs with h
  · change Except.ok (rescale x source target) = .ok y ↔ _
    rw [Except.ok.injEq, and_iff_right h]
  · exact iff_of_false nofun fun hy => h hy.1

def DriverBenefits.values (b : DriverBenefits) : List CalculatedValue :=
  [b.revenue, b.cost, b.cashFlow, b.risk, b.totalAnnualValue]

def TokenCosts.values (c : TokenCosts) : List CalculatedValue :=
  [c.monthlyCost, c.annualCost]

def PriorityScores.values (s : PriorityScores) : List CalculatedValue :=
  [s.valueScore, s.ttvScore, s.priorityScore]

namespace Engine

open CalculatedValue (sound_flawed)

variable {now : Instant} {v : CalculatedValue} {terms : List (String × CalculatedValue)}
  {target : Measure}

theorem sound_valueOf (now : Instant) (f : Formula) (full : Context) :
    (valueOf now f full).Sound := by
  rw [valueOf]
  split_ifs with hmissing hfinite
  · exact sound_flawed _ _
  · exact .inl ⟨rfl, hfinite⟩
  · exact sound_flawed _ _

/-- Whatever an operation answers has a property. -/
def Op.Yields {α : Type} (op : Op α) (p : α → Prop) : Prop :=
  ∀ (e : Engine) (a : α), (e.run op).1 = .ok a → p a

namespace Op

variable {α β : Type} {p : α → Prop} {q : β → Prop}

theorem yields_true (op : Op α) : op.Yields fun _ => True :=
  fun _ _ _ => trivial

theorem yields_pure {a : α} (h : p a) : Yields (pure a) p := by
  rintro e _ ⟨⟩
  exact h

theorem Yields.bind {op : Op α} {f : α → Op β} (hop : op.Yields p)
    (hf : ∀ a, p a → (f a).Yields q) : (op >>= f).Yields q := by
  intro e b h
  rw [run_bind] at h
  rcases hrun : e.run op with ⟨_ | a, e'⟩ <;> rw [hrun] at h
  · cases h
  · exact hf a (hop e a (congrArg Prod.fst hrun)) e' b h

end Op

theorem yields_evaluateFormula (now : Instant) (id : String) (context : Context) :
    (evaluateFormula now id context).Yields CalculatedValue.Sound := by
  have hask : (Op.ask fun e => do
      return valueOf now (← e.formula id) (e.callContext context)).Yields
        CalculatedValue.Sound := by
    intro e v h
    obtain ⟨f, -, hvalue⟩ := bind_eq_ok_iff.1 h
    cases hvalue
    exact sound_valueOf now f _
  exact hask.bind fun v hv => (Op.yields_true _).bind fun _ _ => Op.yields_pure hv

theorem yields_driverBenefit (now : Instant) (base : Float) (factorId : String)
    (maturity : Float) :
    (driverBenefit now base factorId maturity).Yields CalculatedValue.Sound :=
  (Op.yields_true _).bind fun _ _ => yields_evaluateFormula now _ _

theorem yields_driverBenefits (now : Instant) (raw : RawBenefits) :
    (driverBenefits now raw).Yields fun b => ∀ v ∈ b.values, v.Sound := by
  refine (Op.yields_true _).bind fun _ _ => ?_
  refine (yields_driverBenefit now _ _ _).bind fun revenue hrevenue => ?_
  refine (yields_driverBenefit now _ _ _).bind fun cost hcost => ?_
  refine (yields_driverBenefit now _ _ _).bind fun cashFlow hcashFlow => ?_
  refine (yields_driverBenefit now _ _ _).bind fun risk hrisk => ?_
  refine (yields_evaluateFormula now _ _).bind fun total htotal => Op.yields_pure ?_
  simp [DriverBenefits.values, hrevenue, hcost, hcashFlow, hrisk, htotal]

theorem yields_tokenCosts (now : Instant) (usage : TokenUsage) :
    (tokenCosts now usage).Yields fun c => ∀ v ∈ c.values, v.Sound := by
  refine (Op.yields_true _).bind fun _ _ => (Op.yields_true _).bind fun _ _ => ?_
  refine (yields_evaluateFormula now _ _).bind fun monthly hmonthly => ?_
  refine (yields_evaluateFormula now _ _).bind fun annual hannual => Op.yields_pure ?_
  simp [TokenCosts.values, hmonthly, hannual]

theorem yields_priority (now : Instant) (inputs : PriorityInputs) :
    (priority now inputs).Yields fun s => ∀ v ∈ s.values, v.Sound := by
  refine (yields_evaluateFormula now _ _).bind fun value hvalue => ?_
  refine (yields_evaluateFormula now _ _).bind fun ttv httv => ?_
  refine (Op.yields_true _).bind fun _ _ => (Op.yields_true _).bind fun _ _ => ?_
  refine (Op.yields_true _).bind fun _ _ => ?_
  refine (yields_evaluateFormula now _ _).bind fun priority hpriority => Op.yields_pure ?_
  simp [PriorityScores.values, hvalue, httv, hpriority]

/-- The terms of a sum in its unit. -/
def convertedTerms (terms : List (String × CalculatedValue)) (target : Measure) :
    List (String × Float) :=
  terms.map fun t => (t.1, Measure.rescale t.2.value t.2.unit target)

/-- The running totals of a sum, from 0 on. -/
def runningTotals (terms : List (String × CalculatedValue)) (target : Measure) : List Float :=
  ((convertedTerms terms target).map (·.2)).scanl (· + ·) 0

/-- The terms can be added up and none has a flaw, yet a running total is not finite. -/
structure Overflows (terms : List (String × CalculatedValue)) (target : Measure) : Prop where
  dimension_eq : ∀ t ∈ terms, t.2.unit.dimension = target.dimension
  flaw_eq_none : ∀ t ∈ terms, t.2.flaw = none
  exists_not_finite : ∃ total ∈ runningTotals terms target, total.isFinite = false

theorem convertTerms_eq_ok_iff {converted : List (String × Float)} :
    convertTerms target terms = .ok converted ↔
      (∀ t ∈ terms, t.2.unit.dimension = target.dimension) ∧
        convertedTerms terms target = converted := by
  induction terms generalizing converted with
  | nil => simp [convertTerms, convertedTerms]
  | cons t terms ih =>
    constructor
    · intro h
      obtain ⟨x, hx, h⟩ := bind_eq_ok_iff.1 h
      obtain ⟨xs, hxs, h⟩ := bind_eq_ok_iff.1 h
      obtain ⟨hdimension, rfl⟩ := Measure.convert_eq_ok_iff.1 hx
      obtain ⟨hdimensions, rfl⟩ := ih.1 hxs
      cases h
      exact ⟨List.forall_mem_cons.2 ⟨hdimension, hdimensions⟩, rfl⟩
    · rintro ⟨hdimensions, rfl⟩
      obtain ⟨hdimension, hdimensions⟩ := List.forall_mem_cons.1 hdimensions
      refine bind_eq_ok_iff.2 ⟨_, Measure.convert_eq_ok_iff.2 ⟨hdimension, rfl⟩, ?_⟩
      exact bind_eq_ok_iff.2 ⟨_, ih.2 ⟨hdimensions, rfl⟩, rfl⟩

/-- A sum is flawed as one of its terms is, or it is the last of its running totals. -/
theorem sumOf_cases (h : sumOf now terms target = .ok v) :
    ((∃ t ∈ terms, t.2.flaw ≠ none) ∧ v.flaw ≠ none ∧ v.value = 0) ∨
      (∀ t ∈ terms, t.2.flaw = none) ∧ v.flaw = none ∧
        v.value = ((convertedTerms terms target).map (·.2)).foldl (· + ·) 0 := by
  obtain ⟨converted, hconverted, h⟩ := bind_eq_ok_iff.1 h
  obtain ⟨-, rfl⟩ := convertTerms_eq_ok_iff.1 hconverted
  cases hfind : terms.find? (!·.2.isOk) with
  | some t =>
    rw [hfind] at h
    cases h
    have hflaw : t.2.flaw ≠ none := by
      have hfound := List.find?_some hfind
      simpa [CalculatedValue.isOk, ← Option.isSome_iff_ne_none] using hfound
    exact .inl ⟨⟨t, List.mem_of_find?_eq_some hfind, hflaw⟩, Option.some_ne_none _, rfl⟩
  | none =>
    rw [hfind] at h
    cases h
    refine .inr ⟨fun t ht => ?_, rfl, rfl⟩
    have hok := List.find?_eq_none.1 hfind t ht
    simpa [CalculatedValue.isOk] using hok

theorem sound_sumOf_iff (h : sumOf now terms target = .ok v) :
    v.Sound ↔ ¬ Overflows terms target := by
  obtain ⟨⟨t, ht, hflaw⟩, hv⟩ | ⟨hterms, hflaw, hvalue⟩ := sumOf_cases h
  · have hnot : ¬ Overflows terms target := fun hover => hflaw (hover.flaw_eq_none t ht)
    exact iff_of_true (.inr hv) hnot
  · obtain ⟨converted, hconverted, -⟩ := bind_eq_ok_iff.1 h
    obtain ⟨hdimensions, -⟩ := convertTerms_eq_ok_iff.1 hconverted
    rw [CalculatedValue.sound_iff_of_flaw_eq_none hflaw, hvalue, isFinite_foldl_add_iff]
    constructor
    · rintro hfinite ⟨-, -, total, htotal, hnot⟩
      simp [hfinite total htotal] at hnot
    · intro hnot total htotal
      by_contra hinfinite
      exact hnot ⟨hdimensions, hterms, total, htotal, by simpa using hinfinite⟩

theorem exists_sumOf (now : Instant)
    (h : ∀ t ∈ terms, t.2.unit.dimension = target.dimension) :
    ∃ v, sumOf now terms target = .ok v := by
  have hconverted := convertTerms_eq_ok_iff.2 ⟨h, rfl⟩
  rw [sumOf, hconverted, ok_bind]
  split <;> exact ⟨_, rfl⟩

theorem run_sumValues (e : Engine) (now : Instant) (label : String)
    (terms : List (String × CalculatedValue)) (target : Measure) :
    (e.run (sumValues now label terms target)).1 = sumOf now terms target := by
  rw [sumValues, run_bind, run_ask]
  cases sumOf now terms target <;> rfl

/-- The calculated values in an answer, if there is one. -/
def valuesOf {α : Type} (values : α → List CalculatedValue) :
    Except EngineError α → List CalculatedValue
  | .ok a => values a
  | .error _ => []

/-- The calculated values that a call answers with. -/
def answered (e : Engine) (now : Instant) : Call → List CalculatedValue
  | .evaluate formulaId context =>
    valuesOf ([·]) (e.run (evaluateFormula now formulaId context)).1
  | .sum label terms target => valuesOf ([·]) (e.run (sumValues now label terms target)).1
  | .driverBenefits raw => valuesOf (·.values) (e.run (driverBenefits now raw)).1
  | .tokenCosts usage => valuesOf (·.values) (e.run (tokenCosts now usage)).1
  | .priority inputs => valuesOf (·.values) (e.run (priority now inputs)).1
  | .update .. | .reset .. | .resetAll | .importAll .. | .monteCarlo .. => []

/-- The calculated values that calls answer with, one call after the other. -/
def answeredAll (e : Engine) : List (Instant × Call) → List CalculatedValue
  | [] => []
  | call :: calls => e.answered call.1 call.2 ++ (e.after call.1 call.2).answeredAll calls

/-- A call for a sum that overflows. -/
def Call.Overflows : Call → Prop
  | .sum _ terms target => Engine.Overflows terms target
  | _ => False

theorem Op.Yields.forall_mem_valuesOf {α : Type} {op : Op α} {values : α → List CalculatedValue}
    {p : CalculatedValue → Prop} (h : op.Yields fun a => ∀ v ∈ values a, p v) (e : Engine) :
    ∀ v ∈ valuesOf values (e.run op).1, p v := by
  cases hrun : (e.run op).1 with
  | error => simp [valuesOf]
  | ok a => exact h e a hrun

theorem sound_answered_iff (e : Engine) (now : Instant) (call : Call) :
    (∀ v ∈ e.answered now call, v.Sound) ↔ ¬ call.Overflows := by
  cases call with
  | sum label terms target =>
    change (∀ v ∈ valuesOf ([·]) (e.run (sumValues now label terms target)).1, v.Sound) ↔
      ¬ Engine.Overflows terms target
    rw [run_sumValues]
    cases hsum : sumOf now terms target with
    | error =>
      refine iff_of_true (by simp [valuesOf]) fun hover => ?_
      obtain ⟨v, hv⟩ := exists_sumOf now hover.dimension_eq
      rw [hsum] at hv
      cases hv
    | ok v =>
      rw [valuesOf, List.forall_mem_singleton]
      exact sound_sumOf_iff hsum
  | evaluate formulaId context =>
    have hsound : (evaluateFormula now formulaId context).Yields fun v => ∀ u ∈ [v], u.Sound := by
      intro e v h
      exact List.forall_mem_singleton.2 (yields_evaluateFormula now formulaId context e v h)
    exact iff_of_true (hsound.forall_mem_valuesOf e) id
  | driverBenefits raw =>
    exact iff_of_true ((yields_driverBenefits now raw).forall_mem_valuesOf e) id
  | tokenCosts usage =>
    exact iff_of_true ((yields_tokenCosts now usage).forall_mem_valuesOf e) id
  | priority inputs =>
    exact iff_of_true ((yields_priority now inputs).forall_mem_valuesOf e) id
  | update | reset | resetAll | importAll | monteCarlo =>
    exact iff_of_true (List.forall_mem_nil _) id

/-- The calculated values of a session are all fit for use or flawed, just if none of its sums
overflows. -/
theorem sound_answeredAll_iff (e : Engine) (calls : List (Instant × Call)) :
    (∀ v ∈ e.answeredAll calls, v.Sound) ↔ ∀ call ∈ calls, ¬ call.2.Overflows := by
  induction calls generalizing e with
  | nil => simp [answeredAll]
  | cons call calls ih =>
    rw [answeredAll, List.forall_mem_append, sound_answered_iff, ih, List.forall_mem_cons]

/-- A benefit near the greatest finite number, with nothing taken off. -/
def largeBenefit : Call :=
  .evaluate "driver_benefit" (.ofPairs
    [("baseBenefit", 1e308), ("conservativeFactor", 1), ("dataMaturityFactor", 1)])

/-- Two benefits that are fit for use add up to infinity, without a flaw. -/
theorem unsound_sum_of_benefits :
    ∃ benefit ∈ (new ⟨0, 0⟩).answered ⟨1, 0⟩ largeBenefit,
      benefit.Sound ∧ benefit.flaw = none ∧
        ∃ total ∈ ((new ⟨0, 0⟩).after ⟨1, 0⟩ largeBenefit).answered ⟨2, 0⟩
            (.sum "total" [("a", benefit), ("b", benefit)] .usdPerYear),
          total.flaw = none ∧ total.value = 1 / 0 ∧ ¬ total.Sound := by
  decide +kernel

end Engine

end Appraisal
