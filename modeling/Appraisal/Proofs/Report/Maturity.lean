import Appraisal.Proofs.Engine.Benefits
import Appraisal.Proofs.Report.Assembly

/-!
# The maturity of the data

A report and an analysis begin by setting the maturity factor for the level of the research, unless
the factor was overridden before. They set it as an override, so in the session that they leave it
counts as overridden, whoever did it.
-/

namespace Appraisal

namespace AssumptionRegistry

/-- The assumptions with the maturity factor set for a level. -/
def matured (r : AssumptionRegistry) (level : Nat) : Except EngineError AssumptionRegistry := do
  let current ← r.find maturityId
  if current.isUserOverride then .ok r
  else (r.update maturityId (maturityFactor level)).map (·.2)

variable {r r' : AssumptionRegistry} {id : String} {level : Nat}

theorem Sound.mem_overridden_iff (hr : r.Sound) {a : Assumption} (h : r.get? id = some a) :
    id ∈ r.overridden ↔ a.isUserOverride = true := by
  rw [overridden, List.mem_map]
  constructor
  · rintro ⟨b, hb, rfl⟩
    obtain ⟨hmem, hflag⟩ := List.mem_filter.1 hb
    rwa [← hr.eq_of_get? h hmem rfl]
  · intro hflag
    obtain ⟨hmem, rfl⟩ := mem_of_get? h
    exact ⟨a, List.mem_filter.2 ⟨hmem, hflag⟩, rfl⟩

theorem mem_overridden_override {a : Assumption} (h : r.get? id = some a) (value : Float)
    (other : String) :
    other ∈ (r.modify id (.override value)).overridden ↔ other = id ∨ other ∈ r.overridden := by
  obtain ⟨hmem, hid⟩ := mem_of_get? h
  simp only [overridden, modify, List.mem_map, List.mem_filter]
  constructor
  · rintro ⟨_, ⟨⟨b, hb, rfl⟩, hflag⟩, rfl⟩
    by_cases hb' : b.id = id
    · exact .inl (by rw [if_pos hb']; exact hb')
    · rw [if_neg hb'] at hflag ⊢
      exact .inr ⟨b, ⟨hb, hflag⟩, rfl⟩
  · rintro (rfl | ⟨b, ⟨hb, hflag⟩, rfl⟩)
    · exact ⟨a.override value, ⟨⟨a, hmem, if_pos hid⟩, rfl⟩, hid⟩
    · refine ⟨_, ⟨⟨b, hb, rfl⟩, ?_⟩, ?_⟩ <;> split_ifs
      · rfl
      · exact hflag
      · rfl
      · rfl

theorem Sound.exists_maturity (hr : r.Sound) (level : Nat) :
    ∃ a, r.get? maturityId = some a ∧ a.check (maturityFactor level) = .ok () := by
  rw [← check_eq_ok_iff, hr.check_eq]
  exact Engine.check_maturityFactor level

/-- Nothing is refused. Afterwards the factor counts as overridden beside what was overridden
before, and it is the one of the level unless it was overridden already. -/
theorem Sound.matured (hr : r.Sound) (level : Nat) :
    ∃ r', r.matured level = .ok r' ∧ r'.Sound ∧
      (∀ id, id ∈ r'.overridden ↔ id = maturityId ∨ id ∈ r.overridden) ∧
      (maturityId ∈ r.overridden → r' = r) ∧
      (maturityId ∉ r.overridden → r'.value maturityId = .ok (maturityFactor level)) := by
  obtain ⟨a, hget, hcheck⟩ := hr.exists_maturity level
  rw [AssumptionRegistry.matured, find_eq_ok_iff.2 hget, ok_bind, hr.mem_overridden_iff hget]
  by_cases hflag : a.isUserOverride = true
  · refine ⟨r, if_pos hflag, hr, fun id => ?_, fun _ => rfl, fun hnot => absurd hflag hnot⟩
    refine (or_iff_right_of_imp ?_).symm
    rintro rfl
    exact (hr.mem_overridden_iff hget).2 hflag
  · rw [if_neg hflag, update_eq_ok_iff.2 ⟨a, hget, hcheck, rfl, rfl⟩]
    refine ⟨_, rfl, hr.override hget hcheck, mem_overridden_override hget _, ?_, fun _ => ?_⟩
    · exact fun h => absurd h hflag
    · rw [value, find_modify (.override _) (fun _ => rfl) hget]
      rfl

/-- All other assumptions stay as they are. -/
theorem value_matured (h : r.matured level = .ok r') (hid : id ≠ maturityId) :
    r'.value id = r.value id := by
  obtain ⟨current, -, h⟩ := bind_eq_ok_iff.1 h
  split_ifs at h
  · cases h
    rfl
  · obtain ⟨⟨previous, changed⟩, hupdate, rfl⟩ := map_eq_ok_iff.1 h
    obtain ⟨a, -, -, -, rfl⟩ := update_eq_ok_iff.1 hupdate
    rw [value, value, find, find, get?_modify r maturityId id (.override _) fun _ => rfl,
      if_neg hid]

end AssumptionRegistry

namespace Engine

/-- In a fresh session the factor is always the one of the level. -/
theorem matured_new (now : Instant) (level : Nat) :
    ∃ r, (new now).assumptions.matured level = .ok r ∧ r.Sound ∧
      r.value maturityId = .ok (maturityFactor level) := by
  obtain ⟨r, hmatured, hr, -, -, hfactor⟩ := (standard_new now).sound.matured level
  refine ⟨r, hmatured, hr, hfactor ?_⟩
  change maturityId ∉ AssumptionRegistry.withDefaults.overridden
  decide

theorem run_applyMaturity_eq (e : Engine) (now : Instant) (level : Nat) :
    ∃ audit, e.run (applyMaturity now level) = match e.assumptions.matured level with
      | .ok assumptions => (assumptions.value maturityId, { e with assumptions, audit })
      | .error problem => (.error problem, e) := by
  rw [applyMaturity, run_bind, run_ask, AssumptionRegistry.matured, maturityId]
  cases e.assumptions.find "data_maturity_factor" with
  | error problem => exact ⟨e.audit, rfl⟩
  | ok current =>
    cases hflag : current.isUserOverride with
    | true =>
      refine ⟨e.audit, ?_⟩
      simp only [ok_bind, hflag, if_true, Bool.not_true, Bool.false_eq_true, if_false, run_ask]
    | false =>
      simp only [ok_bind, hflag, if_true, Bool.not_false, Bool.false_eq_true, if_false, run_bind,
        run_updateAssumption, run_ask]
      cases e.assumptions.update "data_maturity_factor" (maturityFactor level) with
      | error problem => exact ⟨e.audit, rfl⟩
      | ok p => exact ⟨_, rfl⟩

end Engine

end Appraisal
