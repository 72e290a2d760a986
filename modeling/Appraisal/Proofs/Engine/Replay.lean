import Appraisal.Proofs.Audit.Order
import Appraisal.Proofs.Engine.Checkpoint

/-!
# Replaying the audit log

The log alone tells the assumptions of a session. They are read off the entries since the session
was started or restored, by a fold that knows nothing of bounds and checks.
-/

namespace Appraisal

namespace Audit

namespace Entry

/-- At such an entry a session has the default assumptions. -/
def opens (entry : Entry) : Bool :=
  entry.action = .start ∨ entry.action = .restoreCheckpoint

/-- The id and the value that an update, or one item of an import, tells. -/
def assigned? (j : Json) : Option AssumptionValue := do
  return { id := ← j.required "id" Json.string?
           value := ← j.required "value" Json.amount? }

/-- The assumptions after the change that an entry tells. -/
def replay? (r : AssumptionRegistry) (entry : Entry) : Option AssumptionRegistry :=
  match entry.action with
  | .updateAssumption => do
    let v ← assigned? entry.details
    return r.modify v.id (.override v.value)
  | .resetAssumption => do
    let id ← entry.details.required "id" Json.string?
    return r.modify id .restored
  | .resetAllAssumptions => some r.resetAll
  | .importAssumptions => do
    let values ← entry.details.required "values" (Json.list? assigned?)
    return r.assignAll values
  | _ => some r

/-- The entry gives the value that its assumption has in `r` as the previous one. -/
def TellsPrevious (r : AssumptionRegistry) (entry : Entry) : Prop :=
  ∃ id previous, entry.details.required "id" Json.string? = some id ∧
    entry.details.required "previous" Json.amount? = some previous ∧ r.value id = .ok previous

end Entry

/-- The assumptions that a log tells, from its last opening entry on. -/
def replay? (entries : List Entry) : Option AssumptionRegistry :=
  if entries.any Entry.opens then
    (entries.rtakeWhile (!·.opens)).foldlM Entry.replay? .withDefaults
  else none

theorem replay?_concat_of_opens (entries : List Entry) {entry : Entry} (h : entry.opens = true) :
    replay? (entries ++ [entry]) = some .withDefaults := by
  rw [replay?, if_pos (by simp [h]), List.rtakeWhile_concat_neg _ _ _ (by simp [h])]
  rfl

theorem replay?_concat (entries : List Entry) {entry : Entry} (h : entry.opens = false) :
    replay? (entries ++ [entry]) = (replay? entries).bind entry.replay? := by
  have hany : (entries ++ [entry]).any Entry.opens = entries.any Entry.opens := by
    simp [h]
  rw [replay?, replay?, hany, List.rtakeWhile_concat_pos _ _ _ (by simp [h])]
  split_ifs
  · rw [List.foldlM_append]
    simp
  · rfl

theorem amount?_amount {x : Float} (h : x.isFinite = true) :
    Json.amount? (.amount x) = some x := by
  rw [Json.amount, if_pos h]
  rfl

theorem list?_assigned? {values : List AssumptionValue}
    (h : ∀ v ∈ values, v.value.isFinite = true) :
    Json.list? Entry.assigned? (.array (values.map fun v =>
      .object [("id", .string v.id), ("value", .amount v.value)])) = some values := by
  simp only [Json.list?, Json.arrayItems?, Option.bind_eq_bind, Option.bind_some]
  induction values with
  | nil => rfl
  | cons v values ih =>
    have hv : Entry.assigned? (.object [("id", .string v.id), ("value", .amount v.value)]) =
        some v := by
      change (do return AssumptionValue.mk v.id (← Json.amount? (.amount v.value))) = some v
      rw [amount?_amount (h v (by simp))]
      rfl
    rw [List.map_cons, List.mapM_cons, hv, ih fun w hw => h w (by simp [hw])]
    rfl

end Audit

namespace Engine

theorem isFinite_of_check {r : AssumptionRegistry} {id : String} {value : Float}
    (h : r.check id value = .ok ()) : value.isFinite = true := by
  obtain ⟨a, -, ha⟩ := AssumptionRegistry.check_eq_ok_iff.1 h
  exact (Assumption.check_eq_ok_iff.1 ha).1

variable {e e' : Engine}

/-- A step leaves one entry, and the entry tells the step. -/
theorem Step.told (h : Step e e') (hr : e.assumptions.Sound) :
    ∃ entry, e'.audit.entries = e.audit.entries ++ [entry] ∧ entry.opens = false ∧
      entry.replay? e.assumptions = some e'.assumptions ∧
      (entry.action = .updateAssumption → entry.TellsPrevious e.assumptions) := by
  cases h with
  | observed now action details h =>
    refine ⟨_, rfl, ?_, ?_, ?_⟩ <;> cases action <;>
      simp_all [Audit.Action.isObservation, Audit.Entry.opens, Audit.Entry.replay?]
  | updated now id value a hget hcheck =>
    have hvalue := (Assumption.check_eq_ok_iff.1 hcheck).1
    obtain ⟨ha, -⟩ := AssumptionRegistry.mem_of_get? hget
    have hprevious := (Assumption.check_eq_ok_iff.1 (hr.inBounds a ha)).1
    refine ⟨_, rfl, by simp [Audit.Entry.opens], ?_, ?_⟩
    · simp only [Audit.Entry.replay?, Audit.Log.next_action, Audit.Log.next_details]
      change (do
        let v ← (do return AssumptionValue.mk id (← Json.amount? (.amount value)))
        return e.assumptions.modify v.id (.override v.value)) = _
      rw [Audit.amount?_amount hvalue]
      rfl
    · intro _
      refine ⟨id, a.currentValue, ?_, ?_, ?_⟩
      · rw [Audit.Log.next_details]
        rfl
      · rw [Audit.Log.next_details]
        exact Audit.amount?_amount hprevious
      · rw [AssumptionRegistry.value, AssumptionRegistry.find_eq_ok_iff.2 hget]
        rfl
  | reset now id a hget =>
    refine ⟨_, rfl, by simp [Audit.Entry.opens], ?_, by simp⟩
    simp only [Audit.Entry.replay?, Audit.Log.next_action, Audit.Log.next_details]
    rfl
  | resetAll now =>
    refine ⟨_, rfl, by simp [Audit.Entry.opens], ?_, by simp⟩
    simp only [Audit.Entry.replay?, Audit.Log.next_action]
  | imported now values hcheck =>
    refine ⟨_, rfl, by simp [Audit.Entry.opens], ?_, by simp⟩
    simp only [Audit.Entry.replay?, Audit.Log.next_action, Audit.Log.next_details]
    change (do
      return e.assumptions.assignAll (← Json.list? Audit.Entry.assigned? (.array _))) = _
    rw [Audit.list?_assigned? fun v hv => isFinite_of_check (hcheck v hv)]
    rfl

/-- The log tells the assumptions, and the entries after the first `old` ones tell the values that
they replaced. -/
structure Told (old : Nat) (e : Engine) : Prop where
  replay : Audit.replay? e.audit.entries = some e.assumptions
  previous : ∀ before entry, before ++ [entry] <+: e.audit.entries → old ≤ before.length →
    entry.action = .updateAssumption →
    ∃ r, Audit.replay? before = some r ∧ entry.TellsPrevious r

theorem Told.step {old : Nat} (ht : Told old e) (hr : e.assumptions.Sound) (h : Step e e') :
    Told old e' := by
  obtain ⟨entry, hentries, hopens, hreplay, hprevious⟩ := h.told hr
  constructor
  · rw [hentries, Audit.replay?_concat _ hopens, ht.replay]
    exact hreplay
  · intro before entry' hprefix hold haction
    rw [hentries] at hprefix
    rcases List.prefix_concat_iff.1 hprefix with heq | hprefix
    · obtain ⟨rfl, heq⟩ := List.append_inj' heq rfl
      obtain rfl : entry' = entry := by simpa using heq
      exact ⟨e.assumptions, ht.replay, hprevious haction⟩
    · exact ht.previous before entry' hprefix hold haction

theorem Told.steps {old : Nat} (ht : Told old e) (hr : e.assumptions.Sound) (h : Steps e e') :
    Told old e' := by
  induction h with
  | refl => exact ht
  | tail hsteps hstep ih => exact ih.step (Steps.sound hsteps hr) hstep

theorem Opened.told (h : Opened e) : Told e.audit.size e where
  replay := by
    cases h with
    | fresh formulas now =>
      exact Audit.replay?_concat_of_opens [] (by simp [Audit.Entry.opens])
    | @restored formulas c _ restoredAt importedAt _ h =>
      obtain ⟨log, -, hcheck, rfl, -⟩ := fromCheckpoint_eq_ok_iff.1 h
      have hstep : Step (resumed formulas restoredAt c log) _ :=
        .imported importedAt c.assumptions hcheck
      obtain ⟨entry, hentries, hopens, hreplay, -⟩ :=
        hstep.told AssumptionRegistry.sound_withDefaults
      have hresumed : Audit.replay? (resumed formulas restoredAt c log).audit.entries =
          some .withDefaults :=
        Audit.replay?_concat_of_opens log.entries (by simp [Audit.Entry.opens])
      rw [hentries, Audit.replay?_concat _ hopens, hresumed]
      exact hreplay
  previous := by
    intro before entry hprefix hold
    have hlength := hprefix.length_le
    simp only [List.length_append, List.length_singleton] at hlength
    simp only [Audit.Log.size] at hold
    omega

/-- The log of any run tells the assumptions, and every update since the opening tells the value
that it replaced. -/
theorem replay_of_run {e₀ : Engine} (h₀ : Opened e₀) (calls : List (Instant × Call)) :
    let e := e₀.afterAll calls
    Audit.replay? e.audit.entries = some e.assumptions ∧
      e₀.audit.entries <+: e.audit.entries ∧
      ∀ before entry, before ++ [entry] <+: e.audit.entries → e₀.audit.size ≤ before.length →
        entry.action = .updateAssumption →
        ∃ r, Audit.replay? before = some r ∧ entry.TellsPrevious r := by
  intro e
  have hsteps : Steps e₀ e := h₀.steps calls
  have ht := h₀.told.steps h₀.sound hsteps
  exact ⟨ht.replay, hsteps.prefix_entries, ht.previous⟩

/-- The restored log ends in an update without an id. It is not replayed. -/
theorem replay_of_restored_run :
    let c : Checkpoint :=
      { assumptions := [⟨"adoption_rate", 0.5⟩, ⟨"claude_input_price", 3⟩]
        auditLog := [⟨7, ⟨0, 0⟩, .updateAssumption, .null⟩]
        fingerprint := none }
    let e₀ := imported ⟨2, 0⟩ c.assumptions (resumed .standard ⟨1, 0⟩ c ⟨c.auditLog⟩)
    let e := e₀.afterAll [(⟨3, 0⟩, .update "analyst_hourly_rate" 120),
      (⟨4, 0⟩, .update "analyst_hourly_rate" 700), (⟨5, 0⟩, .reset "adoption_rate")]
    Opened e₀ ∧ e.audit.size = 5 ∧ e.assumptions.overridden = ["analyst_hourly_rate"] ∧
      Audit.replay? e.audit.entries = some e.assumptions := by
  intro c e₀ e
  have hcheck : ∀ v ∈ c.assumptions,
      AssumptionRegistry.withDefaults.check v.id v.value = .ok () :=
    importProblems_eq_nil_iff.1 rfl
  have hrestored : fromCheckpoint .standard ⟨0, 0⟩ c ⟨1, 0⟩ ⟨2, 0⟩ = .ok e₀ :=
    fromCheckpoint_eq_ok_iff.2 ⟨⟨c.auditLog⟩, rfl, hcheck, rfl, by simp [c]⟩
  have h₀ : Opened e₀ := .restored hrestored
  obtain ⟨hreplay, -⟩ := replay_of_run h₀ [(⟨3, 0⟩, .update "analyst_hourly_rate" 120),
    (⟨4, 0⟩, .update "analyst_hourly_rate" 700), (⟨5, 0⟩, .reset "adoption_rate")]
  exact ⟨h₀, by decide +kernel, by decide +kernel, hreplay⟩

end Engine

end Appraisal
