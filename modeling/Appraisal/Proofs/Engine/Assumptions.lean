import Appraisal.Proofs.Engine.Checkpoint

/-!
# Assumptions of a running session

Whatever is asked of a session, its assumptions stay the default ones but for values within the
bounds and flags that tell them. A refused call leaves every assumption as it was.
-/

namespace Appraisal.Engine

variable {e : Engine} {id other : String}

theorem get?_update_of_ne (e : Engine) (now : Instant) (value : Float) (h : other ≠ id) :
    (e.run (updateAssumption now id value)).2.assumptions.get? other =
      e.assumptions.get? other := by
  rw [run_updateAssumption]
  rcases hu : e.assumptions.update id value with _ | ⟨previous, assumptions⟩
  · rfl
  · obtain ⟨a, -, -, -, rfl⟩ := AssumptionRegistry.update_eq_ok_iff.1 hu
    have hmodify := AssumptionRegistry.get?_modify e.assumptions id other (.override value)
      fun _ => rfl
    exact hmodify.trans (if_neg h)

theorem get?_reset_of_ne (e : Engine) (now : Instant) (h : other ≠ id) :
    (e.run (resetAssumption now id)).2.assumptions.get? other = e.assumptions.get? other := by
  rw [run_resetAssumption]
  cases e.assumptions.find id with
  | error => rfl
  | ok a =>
    have hmodify := AssumptionRegistry.get?_modify e.assumptions id other .restored fun _ => rfl
    exact hmodify.trans (if_neg h)

/-- The assumptions after any run: values pass their checks, what is not overridden has its default,
everything else is as in the defaults, a reset of all gives the defaults, and a call about one
assumption leaves the others alone. -/
theorem assumptions_of_run {e₀ : Engine} (h₀ : Opened e₀) (calls : List (Instant × Call)) :
    let e := e₀.afterAll calls
    (∀ a ∈ e.assumptions.assumptions, a.check a.currentValue = .ok ()) ∧
    (∀ a ∈ e.assumptions.assumptions,
      a.isUserOverride = false → a.currentValue = a.defaultValue) ∧
    List.Forall₂ Assumption.VariantOf e.assumptions.assumptions
      AssumptionRegistry.withDefaults.assumptions ∧
    (∀ now, ∃ e', e.run (resetAllAssumptions now) = (.ok (), e') ∧
      e'.assumptions = .withDefaults) ∧
    (∀ now id value other, other ≠ id →
      (e.run (updateAssumption now id value)).2.assumptions.get? other =
        e.assumptions.get? other) ∧
    ∀ now id other, other ≠ id →
      (e.run (resetAssumption now id)).2.assumptions.get? other = e.assumptions.get? other := by
  intro e
  have hr : e.assumptions.Sound := h₀.sound_afterAll calls
  refine ⟨hr.inBounds, hr.untouched, hr.variants, ?_, ?_, ?_⟩
  · intro now
    exact ⟨_, run_resetAllAssumptions e now, hr.resetAll_eq⟩
  · intro now id value other h
    exact get?_update_of_ne e now value h
  · intro now id other h
    exact get?_reset_of_ne e now h

theorem assumptions_of_short_run :
    let e := (new ⟨0, 0⟩).afterAll
      [(⟨1, 0⟩, .update "analyst_hourly_rate" 120), (⟨2, 0⟩, .update "adoption_rate" 2),
       (⟨3, 0⟩, .update "adoption_rate" 0.5), (⟨4, 0⟩, .reset "adoption_rate")]
    Opened (new ⟨0, 0⟩) ∧ e.assumptions.overridden = ["analyst_hourly_rate"] ∧
      ∃ e', e.run (resetAllAssumptions ⟨5, 0⟩) = (.ok (), e') ∧
        e'.assumptions = .withDefaults := by
  intro e
  have h : Opened (new ⟨0, 0⟩) := .fresh .standard ⟨0, 0⟩
  obtain ⟨-, -, -, hreset, -⟩ := assumptions_of_run h
    [(⟨1, 0⟩, .update "analyst_hourly_rate" 120), (⟨2, 0⟩, .update "adoption_rate" 2),
     (⟨3, 0⟩, .update "adoption_rate" 0.5), (⟨4, 0⟩, .reset "adoption_rate")]
  exact ⟨h, by decide +kernel, hreset ⟨5, 0⟩⟩

end Appraisal.Engine
