import Appraisal.Proofs.Engine.Run
import Appraisal.Proofs.Except

/-!
# What observations answer

What an observation answers is read off the formulas and the assumptions of the session. The clock
only dates a value, and the log is written but never read, so two sessions that agree on a formula
and on the assumptions give the same numbers.
-/

namespace Appraisal

namespace Simulation

/-- The summary of the finite values of a run. -/
def ofValues (values : List Float) (seed : UInt64) : Except EngineError Summary :=
  summarize (values.filter (·.isFinite))
    (values.length - (values.filter (·.isFinite)).length) seed

/-- A run without a finite value is the only one that has no summary. -/
theorem ofValues_cases (values : List Float) (seed : UInt64) :
    (∃ s, ofValues values seed = .ok s ∧ s.seed = seed) ∨
      (∀ x ∈ values, x.isFinite = false) ∧
        ofValues values seed = .error (.noValidSamples values.length) := by
  by_cases h : values.filter (·.isFinite) = []
  · refine .inr ⟨fun x hx => ?_, ?_⟩
    · simpa using List.filter_eq_nil_iff.1 h x hx
    · rw [ofValues, h]
      rfl
  · refine .inl ⟨_, if_neg (by simpa using h), rfl⟩

end Simulation

namespace Engine

variable {e e' : Engine} {id formulaId : String} {f : Formula}

/-- What a sequence answers: the second operation in the session that the first one has left. -/
theorem result_bind {α β : Type} (e : Engine) (op : Op α) (f : α → Op β) :
    (e.run (op >>= f)).1 = (e.run op).1 >>= fun a => ((e.run op).2.run (f a)).1 := by
  rw [run_bind]
  rcases e.run op with ⟨_ | a, e'⟩ <;> rfl

theorem result_evaluateFormula (e : Engine) (now : Instant) (id : String) (context : Context) :
    (e.run (evaluateFormula now id context)).1 =
      (e.formula id).map fun f => valueOf now f (e.callContext context) := by
  rw [evaluateFormula, run_bind, run_ask]
  cases e.formula id <;> rfl

theorem value_valueOf (now now' : Instant) (f : Formula) (full : Context) :
    (valueOf now f full).value = (valueOf now' f full).value := by
  simp only [valueOf]
  split_ifs <;> rfl

/-- A simulation of a known formula over the context of its fixed inputs. -/
def simulated (f : Formula) (base : Context) (vs : List UncertainVariable) (size : Nat)
    (seed : UInt64) : Except EngineError Simulation.Summary :=
  if size = 0 then .error .emptySample
  else do
    firstInvalid vs
    match outputs? f base vs size seed with
    | some values => Simulation.ofValues values seed
    | none => .error .endless

theorem result_runMonteCarlo (h : e.formula formulaId = .ok f) (now : Instant)
    (vs : List UncertainVariable) (size : Nat) (seed : UInt64) (fixed : Context) :
    (e.run (runMonteCarlo now vs formulaId size seed fixed)).1 =
      simulated f (e.callContext fixed) vs size seed := by
  rw [runMonteCarlo, run_bind, run_ask, h, simulated]
  by_cases hsize : size = 0
  · rw [if_pos hsize, if_pos hsize]
    rfl
  · rw [if_neg hsize, if_neg hsize]
    cases firstInvalid vs with
    | error problem => rfl
    | ok =>
      change (e.run (Op.await (outputs? f (e.callContext fixed) vs size seed) >>= _)).1 = _
      rw [run_bind, run_await]
      cases outputs? f (e.callContext fixed) vs size seed <;> rfl

theorem seed_of_simulated {base : Context} {vs : List UncertainVariable} {size : Nat}
    {seed : UInt64} {s : Simulation.Summary} (h : simulated f base vs size seed = .ok s) :
    s.seed = seed := by
  rw [simulated] at h
  split_ifs at h
  obtain ⟨-, -, h⟩ := bind_eq_ok_iff.1 h
  cases houtputs : outputs? f base vs size seed with
  | none =>
    rw [houtputs] at h
    cases h
  | some values =>
    rw [houtputs] at h
    obtain ⟨s', hs', hseed⟩ | ⟨-, hrefused⟩ := Simulation.ofValues_cases values seed
    · cases hs'.symm.trans h
      exact hseed
    · cases hrefused.symm.trans h

/-- Two sessions with the same assumptions and the same formula under an id. Their logs and their
other formulas may differ. -/
structure Alike (formulaId : String) (e e' : Engine) : Prop where
  formula_eq : e'.formula formulaId = e.formula formulaId
  assumptions_eq : e'.assumptions = e.assumptions

theorem Alike.callContext_eq (h : Alike formulaId e e') (context : Context) :
    e'.callContext context = e.callContext context := by
  rw [callContext, callContext, h.assumptions_eq]

theorem Op.Observes.alike {α : Type} {op : Op α} (h : op.Observes) (formulaId : String)
    (e : Engine) : Alike formulaId e (e.run op).2 := by
  obtain ⟨hformulas, hassumptions⟩ := (h e).frame
  exact ⟨by rw [formula, formula, hformulas], hassumptions⟩

/-- Over these formulas and assumptions an operation leaves both as they are, and whatever it
answers has a property. -/
def Op.Finds {α : Type} (fs : FormulaRegistry) (r : AssumptionRegistry) (op : Op α)
    (p : α → Prop) : Prop :=
  ∀ e : Engine, e.formulas = fs → e.assumptions = r →
    ((e.run op).2.formulas = fs ∧ (e.run op).2.assumptions = r) ∧
      ∀ a, (e.run op).1 = .ok a → p a

namespace Op

variable {α β : Type} {fs : FormulaRegistry} {r : AssumptionRegistry} {op : Op α} {p : α → Prop}
  {q : β → Prop}

theorem Finds.result {e : Engine} (h : op.Finds e.formulas e.assumptions p) :
    (e.run op).2.assumptions = e.assumptions ∧ ∀ a, (e.run op).1 = .ok a → p a := by
  obtain ⟨⟨-, hassumptions⟩, hanswer⟩ := h e rfl rfl
  exact ⟨hassumptions, hanswer⟩

theorem Observes.finds (h : op.Observes) : op.Finds fs r fun _ => True := by
  rintro e rfl rfl
  exact ⟨(h e).frame, fun _ _ => trivial⟩

theorem finds_pure {a : α} (h : p a) : Finds fs r (pure a) p := by
  rintro e rfl rfl
  refine ⟨⟨rfl, rfl⟩, ?_⟩
  rintro _ ⟨⟩
  exact h

theorem finds_get : Finds fs r (get : Op Engine) fun e => e.assumptions = r := by
  rintro e rfl rfl
  refine ⟨⟨rfl, rfl⟩, ?_⟩
  rintro _ ⟨⟩
  rfl

theorem finds_ask {read : Engine → Except EngineError α}
    (h : ∀ e : Engine, e.formulas = fs → e.assumptions = r → ∀ a, read e = .ok a → p a) :
    Finds fs r (ask read) p :=
  fun e hfs hr => ⟨⟨hfs, hr⟩, h e hfs hr⟩

theorem Finds.imp {p' : α → Prop} (hop : op.Finds fs r p) (h : ∀ a, p a → p' a) :
    op.Finds fs r p' :=
  fun e hfs hr => ⟨(hop e hfs hr).1, fun a ha => h a ((hop e hfs hr).2 a ha)⟩

theorem Finds.bind {f : α → Op β} (hop : op.Finds fs r p) (hf : ∀ a, p a → (f a).Finds fs r q) :
    (op >>= f).Finds fs r q := by
  intro e hfs hr
  obtain ⟨hframe, hanswer⟩ := hop e hfs hr
  rw [run_bind]
  rcases hrun : e.run op with ⟨_ | a, e'⟩ <;> rw [hrun] at hframe hanswer
  · exact ⟨hframe, nofun⟩
  · exact hf a (hanswer a rfl) e' hframe.1 hframe.2

end Op

theorem finds_value {fs : FormulaRegistry} {r : AssumptionRegistry} {x : Float}
    (h : r.value id = .ok x) : (Op.ask (·.assumptions.value id)).Finds fs r (· = x) := by
  refine Op.finds_ask ?_
  rintro e - rfl a ha
  exact Except.ok.inj (ha.symm.trans h)

theorem finds_evaluateFormula {fs : FormulaRegistry} {r : AssumptionRegistry}
    (h : fs.get? id = some f) (now : Instant) (context : Context) :
    (evaluateFormula now id context).Finds fs r
      (· = valueOf now f (r.formulaContext.overlay context)) := by
  rintro e rfl rfl
  rw [run_evaluateFormula h]
  refine ⟨⟨rfl, rfl⟩, ?_⟩
  rintro _ ⟨⟩
  rfl

end Engine

end Appraisal
