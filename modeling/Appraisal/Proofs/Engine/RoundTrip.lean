import Appraisal.Proofs.Audit.Order
import Appraisal.Proofs.Engine.Checkpoint

/-!
# Export and restore

A session restored from its own export has the same values and fingerprint. Only an override that
sets a default is forgotten.
-/

namespace Appraisal

namespace Assumption

/-- An assumption after those of the values that are its own. -/
def assignedBy (values : List AssumptionValue) (a : Assumption) : Assumption :=
  values.foldl (fun a v => if a.id = v.id then a.assigned v.value else a) a

theorem assignedBy_of_forall_ne {values : List AssumptionValue} {a : Assumption}
    (h : ∀ v ∈ values, a.id ≠ v.id) : a.assignedBy values = a := by
  induction values with
  | nil => rfl
  | cons v values ih =>
    rw [assignedBy, List.foldl_cons, if_neg (h v (by simp))]
    exact ih fun w hw => h w (by simp [hw])

theorem assignedBy_of_mem {values : List AssumptionValue} {a : Assumption} {v : AssumptionValue}
    (hnodup : (values.map (·.id)).Nodup) (hv : v ∈ values) (hid : a.id = v.id) :
    a.assignedBy values = a.assigned v.value := by
  induction values with
  | nil => cases hv
  | cons w values ih =>
    obtain ⟨hw, hnodup⟩ := List.nodup_cons.1 hnodup
    rcases List.mem_cons.1 hv with rfl | hv
    · rw [assignedBy, List.foldl_cons, if_pos hid]
      apply assignedBy_of_forall_ne
      intro u hu hu'
      exact hw (List.mem_map.2 ⟨u, hu, hu'.symm.trans hid⟩)
    · have hne : a.id ≠ w.id := by
        intro haw
        exact hw (List.mem_map.2 ⟨v, hv, hid.symm.trans haw⟩)
      rw [assignedBy, List.foldl_cons, if_neg hne]
      exact ih hnodup hv

end Assumption

namespace AssumptionRegistry

variable {r : AssumptionRegistry}

theorem assumptions_assignAll (r : AssumptionRegistry) (values : List AssumptionValue) :
    (r.assignAll values).assumptions = r.assumptions.map (.assignedBy values) := by
  induction values generalizing r with
  | nil => exact r.assumptions.map_id.symm
  | cons v values ih =>
    rw [assignAll_cons, ih, modify, List.map_map]
    rfl

/-- The values that an export holds. -/
def snapshot (r : AssumptionRegistry) : List AssumptionValue :=
  r.assumptions.map fun a => ⟨a.id, a.currentValue⟩

namespace Sound

theorem get?_of_mem (hr : r.Sound) {a : Assumption} (ha : a ∈ r.assumptions) :
    r.get? a.id = some a := by
  cases h : r.get? a.id with
  | none => simpa using List.find?_eq_none.1 h a ha
  | some b => rw [hr.eq_of_get? h ha rfl]

/-- The values of a sound registry are accepted by a fresh one. -/
theorem check_snapshot (hr : r.Sound) :
    ∀ v ∈ r.snapshot, withDefaults.check v.id v.value = .ok () := by
  intro v hv
  obtain ⟨a, ha, rfl⟩ := List.mem_map.1 hv
  rw [← hr.check_eq]
  exact AssumptionRegistry.check_eq_ok_iff.2 ⟨a, hr.get?_of_mem ha, hr.inBounds a ha⟩

theorem assignAll_snapshot (hr : r.Sound) :
    (withDefaults.assignAll r.snapshot).assumptions =
      r.assumptions.map fun a => a.assigned a.currentValue := by
  have hnodup : (r.snapshot.map (·.id)).Nodup := by
    rw [snapshot, List.map_map]
    exact hr.nodup
  rw [assumptions_assignAll, ← hr.resetAll_eq, resetAll, List.map_map]
  apply List.map_congr_left
  intro a ha
  have hv : AssumptionValue.mk a.id a.currentValue ∈ r.snapshot := List.mem_map_of_mem ha
  exact Assumption.assignedBy_of_mem (a := a.restored) hnodup hv rfl

theorem isUserOverride_assigned_iff (hr : r.Sound) {a : Assumption} (ha : a ∈ r.assumptions) :
    (a.assigned a.currentValue).isUserOverride = true ↔ a.currentValue ≠ a.defaultValue := by
  rw [ne_comm, ne_eq, ← hr.beq_defaultValue_iff ha]
  simp [Assumption.assigned, bne]

/-- An assumption is restored as it was unless it was overridden by its own default. -/
theorem assigned_eq_or (hr : r.Sound) {a : Assumption} (ha : a ∈ r.assumptions) :
    a.assigned a.currentValue = a ∨
      a.isUserOverride = true ∧ a.currentValue = a.defaultValue ∧
        a.assigned a.currentValue = a.restored := by
  have hflag := hr.isUserOverride_assigned_iff ha
  have heq (flag : Bool) (h : (a.assigned a.currentValue).isUserOverride = flag) :
      a.assigned a.currentValue = { a with isUserOverride := flag } := by
    rw [← h]
    rfl
  by_cases hvalue : a.currentValue = a.defaultValue
  · have hclear : (a.assigned a.currentValue).isUserOverride = false := by
      simpa [hvalue] using hflag
    rw [heq false hclear]
    cases hover : a.isUserOverride with
    | false =>
      left
      rw [← hover]
    | true =>
      right
      exact ⟨rfl, hvalue, by rw [Assumption.restored, ← hvalue]⟩
  · left
    have hover : a.isUserOverride = true := by
      by_contra hover
      exact hvalue (hr.untouched a ha (Bool.eq_false_iff.2 hover))
    rw [heq true (hflag.2 hvalue), ← hover]

end Sound

end AssumptionRegistry

namespace Engine

theorem Opened.entries_ne_nil {e : Engine} (h : Opened e) : e.audit.entries ≠ [] := by
  cases h with
  | fresh => exact List.cons_ne_nil _ _
  | restored h =>
    obtain ⟨log, -, -, rfl, -⟩ := fromCheckpoint_eq_ok_iff.1 h
    exact List.concat_ne_nil _ _

/-- The session restored from an export of `e`. -/
def reopened (e : Engine) (exportedAt restoredAt importedAt : Instant) : Engine :=
  let c := (e.exportState exportedAt).checkpoint
  imported importedAt c.assumptions (resumed e.formulas restoredAt c e.audit)

section Reopened

variable {e : Engine} (hr : e.assumptions.Sound) (exportedAt now restoredAt importedAt : Instant)

include hr

theorem assumptions_reopened :
    (e.reopened exportedAt restoredAt importedAt).assumptions.assumptions =
      e.assumptions.assumptions.map fun a => a.assigned a.currentValue :=
  hr.assignAll_snapshot

theorem pairs_reopened :
    (e.reopened exportedAt restoredAt importedAt).assumptions.pairs = e.assumptions.pairs := by
  rw [AssumptionRegistry.pairs, assumptions_reopened hr, List.map_map]
  rfl

theorem fingerprint_reopened :
    (e.reopened exportedAt restoredAt importedAt).fingerprint = e.fingerprint := by
  rw [fingerprint, pairs_reopened hr]
  rfl

theorem fromCheckpoint_exportState (hne : e.audit.entries ≠ [])
    (hlog : Audit.Log.restore e.audit.entries = .ok e.audit) :
    fromCheckpoint e.formulas now (e.exportState exportedAt).checkpoint restoredAt importedAt =
      .ok (e.reopened exportedAt restoredAt importedAt) := by
  have hcontinued : continuedLog e.formulas now (e.exportState exportedAt).checkpoint =
      .ok e.audit := by
    rw [continuedLog, if_neg (by simpa [exportState, EngineState.checkpoint] using hne)]
    exact hlog
  refine fromCheckpoint_eq_ok_iff.2 ⟨e.audit, hcontinued, hr.check_snapshot, rfl, ?_⟩
  intro expected hexpected
  obtain rfl : e.fingerprint = expected := Option.some.inj hexpected
  exact fingerprint_reopened hr exportedAt restoredAt importedAt

end Reopened

/-- What is restored from an export of a session whose log is in order. -/
theorem restored_of_export {e₀ : Engine} (h₀ : Opened e₀) (calls : List (Instant × Call))
    (exportedAt now restoredAt importedAt : Instant)
    (hlog : Audit.Log.restore (e₀.afterAll calls).audit.entries =
      .ok (e₀.afterAll calls).audit) :
    let e := e₀.afterAll calls
    ∃ e', fromCheckpoint e.formulas now (e.exportState exportedAt).checkpoint restoredAt
        importedAt = .ok e' ∧
      e'.assumptions.pairs = e.assumptions.pairs ∧ e'.fingerprint = e.fingerprint ∧
      (∃ x y, e'.audit.entries = e.audit.entries ++ [x, y] ∧
        x.action = .restoreCheckpoint ∧ y.action = .importAssumptions) ∧
      (∀ b ∈ e'.assumptions.assumptions,
        b.isUserOverride = true ↔ b.currentValue ≠ b.defaultValue) ∧
      List.Forall₂ (fun a b => b = a ∨
          a.isUserOverride = true ∧ a.currentValue = a.defaultValue ∧ b = a.restored)
        e.assumptions.assumptions e'.assumptions.assumptions := by
  intro e
  have hr : e.assumptions.Sound := h₀.sound_afterAll calls
  have hne : e.audit.entries ≠ [] :=
    List.IsPrefix.ne_nil (h₀.steps calls).prefix_entries h₀.entries_ne_nil
  have hassumptions := assumptions_reopened hr exportedAt restoredAt importedAt
  refine ⟨e.reopened exportedAt restoredAt importedAt,
    fromCheckpoint_exportState hr exportedAt now restoredAt importedAt hne hlog,
    pairs_reopened hr exportedAt restoredAt importedAt,
    fingerprint_reopened hr exportedAt restoredAt importedAt, ?_, ?_, ?_⟩
  · refine ⟨_, _, List.append_assoc _ _ _, ?_, ?_⟩
    · exact Audit.Log.next_action _ _ _ _
    · exact Audit.Log.next_action _ _ _ _
  · intro b hb
    rw [hassumptions] at hb
    obtain ⟨a, ha, rfl⟩ := List.mem_map.1 hb
    exact hr.isUserOverride_assigned_iff ha
  · rw [hassumptions, List.forall₂_map_right_iff, List.forall₂_same]
    intro a ha
    exact hr.assigned_eq_or ha

/-- Of the two overrides here, the one by the default is forgotten. -/
theorem restored_of_short_export :
    let e := (new ⟨0, 0⟩).afterAll
      [(⟨1, 0⟩, .update "analyst_hourly_rate" 120), (⟨2, 0⟩, .update "adoption_rate" 0.85)]
    Opened (new ⟨0, 0⟩) ∧ Audit.Log.restore e.audit.entries = .ok e.audit ∧
      e.assumptions.overridden = ["analyst_hourly_rate", "adoption_rate"] ∧
      ∃ e', fromCheckpoint e.formulas ⟨4, 0⟩ (e.exportState ⟨3, 0⟩).checkpoint ⟨5, 0⟩ ⟨6, 0⟩ =
          .ok e' ∧
        e'.fingerprint = e.fingerprint ∧
        ∀ b ∈ e'.assumptions.assumptions,
          b.isUserOverride = true ↔ b.currentValue ≠ b.defaultValue := by
  intro e
  have h₀ : Opened (new ⟨0, 0⟩) := .fresh .standard ⟨0, 0⟩
  have hdisorder : Audit.Log.firstDisorder? e.audit.entries = none := by decide +kernel
  have hlog : Audit.Log.restore e.audit.entries = .ok e.audit := by
    rw [Audit.Log.restore, hdisorder]
  obtain ⟨e', hrestored, -, hfingerprint, -, hflags, -⟩ := restored_of_export h₀
    [(⟨1, 0⟩, .update "analyst_hourly_rate" 120), (⟨2, 0⟩, .update "adoption_rate" 0.85)]
    ⟨3, 0⟩ ⟨4, 0⟩ ⟨5, 0⟩ ⟨6, 0⟩ hlog
  exact ⟨h₀, hlog, by decide +kernel, e', hrestored, hfingerprint, hflags⟩

end Engine

end Appraisal
