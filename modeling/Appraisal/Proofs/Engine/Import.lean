import Appraisal.Engine.Checkpoint
import Appraisal.Proofs.Assumption.Registry

/-!
# Importing values

On a sound registry an import is refused exactly if one of its values fails its check. Otherwise
nothing can fail halfway, and the values are assigned one after the other.
-/

namespace Appraisal

namespace AssumptionRegistry

/-- The values assigned in their order. -/
def assignAll (r : AssumptionRegistry) (values : List AssumptionValue) : AssumptionRegistry :=
  values.foldl (fun r v => r.modify v.id (.assigned v.value)) r

theorem assignAll_cons (r : AssumptionRegistry) (v : AssumptionValue)
    (values : List AssumptionValue) :
    r.assignAll (v :: values) = (r.modify v.id (.assigned v.value)).assignAll values := rfl

theorem modify_congr {r : AssumptionRegistry} {id : String} {f g : Assumption → Assumption}
    (h : ∀ a ∈ r.assumptions, a.id = id → f a = g a) : r.modify id f = r.modify id g := by
  simp only [modify, mk.injEq]
  apply List.map_congr_left
  intro a ha
  split
  · next hid => exact h a ha hid
  · rfl

end AssumptionRegistry

namespace Engine

open AssumptionRegistry (Sound)

variable {r : AssumptionRegistry}

theorem importProblems_eq_nil_iff {values : List AssumptionValue} :
    importProblems r values = [] ↔ ∀ v ∈ values, r.check v.id v.value = .ok () := by
  simp only [importProblems, List.filterMap_eq_nil_iff]
  apply forall₂_congr
  intro v _
  cases r.check v.id v.value <;> simp

/-- The branch for defaults and the one for other values do the same. -/
theorem applyValue_eq (hr : r.Sound) {v : AssumptionValue} (h : r.check v.id v.value = .ok ()) :
    applyValue r v = .ok (r.modify v.id (.assigned v.value)) := by
  obtain ⟨a, hget, hcheck⟩ := AssumptionRegistry.check_eq_ok_iff.1 h
  by_cases hdefault : (a.defaultValue == v.value) = true
  · have hreset := AssumptionRegistry.reset_eq_ok_iff.2 ⟨a, hget, rfl⟩
    rw [applyValue, hget, Option.any_some, if_pos hdefault, hreset]
    congr 1
    apply AssumptionRegistry.modify_congr
    intro b hb hb'
    obtain rfl := hr.eq_of_get? hget hb hb'
    have hvalue := (hr.beq_defaultValue_iff hb).1 hdefault
    rw [← hvalue] at hdefault ⊢
    simp [Assumption.restored, Assumption.assigned, bne, hdefault]
  · have hupdate := AssumptionRegistry.update_eq_ok_iff.2 ⟨a, hget, hcheck, rfl, rfl⟩
    rw [applyValue, hget, Option.any_some, if_neg hdefault, hupdate]
    change Except.ok (r.modify v.id (.override v.value)) = _
    congr 1
    apply AssumptionRegistry.modify_congr
    intro b hb hb'
    obtain rfl := hr.eq_of_get? hget hb hb'
    simp [Assumption.override, Assumption.assigned, bne, hdefault]

theorem foldlM_applyValue (hr : r.Sound) {values : List AssumptionValue}
    (h : ∀ v ∈ values, r.check v.id v.value = .ok ()) :
    values.foldlM applyValue r = .ok (r.assignAll values) ∧ (r.assignAll values).Sound := by
  induction values generalizing r with
  | nil => exact ⟨rfl, hr⟩
  | cons v values ih =>
    have hv := h v (by simp)
    have hr' := hr.assigned hv
    have hrest : ∀ w ∈ values,
        (r.modify v.id (.assigned v.value)).check w.id w.value = .ok () := by
      intro w hw
      rw [hr'.check_eq, ← hr.check_eq]
      exact h w (by simp [hw])
    rw [List.foldlM_cons, applyValue_eq hr hv]
    exact ih hr' hrest

/-- The session after values have been assigned. -/
def imported (now : Instant) (values : List AssumptionValue) (e : Engine) : Engine :=
  { e with
    assumptions := e.assumptions.assignAll values
    audit := e.audit.record now .importAssumptions (.object
      [("values", .array (values.map fun v =>
        .object [("id", .string v.id), ("value", .amount v.value)]))]) }

theorem importAssumptions_eq_ok_iff {e e' : Engine} (hr : e.assumptions.Sound) {now : Instant}
    {values : List AssumptionValue} :
    importAssumptions now values e = .ok e' ↔
      (∀ v ∈ values, e.assumptions.check v.id v.value = .ok ()) ∧ imported now values e = e' := by
  by_cases h : ∀ v ∈ values, e.assumptions.check v.id v.value = .ok ()
  · have heq : importAssumptions now values e = .ok (imported now values e) := by
      simp [importAssumptions, importProblems_eq_nil_iff.2 h, (foldlM_applyValue hr h).1, imported]
    rw [heq, Except.ok.injEq]
    exact ⟨fun he => ⟨h, he⟩, fun he => he.2⟩
  · have hne : importProblems e.assumptions values ≠ [] := mt importProblems_eq_nil_iff.1 h
    simp [importAssumptions, hne, h]

end Engine

end Appraisal
