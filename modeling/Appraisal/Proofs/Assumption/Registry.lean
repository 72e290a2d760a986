import Appraisal.Assumption.Registry
import Mathlib

/-!
# Sound assumption registries

A registry is sound if it differs from the default one in values and override flags only, every
value is within the bounds of its assumption, and a value that is not overridden is the default.
The default registry is sound, and changes of values that pass their check keep it so.
-/

namespace Appraisal

namespace Assumption

theorem check_eq_ok_iff {a : Assumption} {value : Float} :
    a.check value = .ok () ↔
      value.isFinite = true ∧ ¬ value < a.minimum ∧ ¬ a.maximum < value := by
  unfold check
  split_ifs <;> simp_all

/-- `a` is `d` with a value and an override flag of its own. -/
def VariantOf (a d : Assumption) : Prop :=
  a = { d with currentValue := a.currentValue, isUserOverride := a.isUserOverride }

theorem variantOf_of_restored_eq {a d : Assumption} (h : a.restored = d.restored) :
    a.VariantOf d := by
  cases a; cases d
  simp_all [restored, VariantOf]

/-- A value is overridden by an import unless it is the default. -/
def assigned (value : Float) (a : Assumption) : Assumption :=
  { a with currentValue := value, isUserOverride := a.defaultValue != value }

theorem map_restored_defaults : defaults.map restored = defaults := rfl

theorem nodup_defaults : (defaults.map (·.id)).Nodup := by
  decide

theorem check_defaults : ∀ d ∈ defaults,
    d.currentValue.isFinite = true ∧ ¬ d.currentValue < d.minimum ∧
      ¬ d.maximum < d.currentValue := by
  decide +kernel

/-- Two doubles are the same if they are equal as numbers, but for zeros and undefined numbers. -/
theorem defaultValue_ordinary : ∀ d ∈ defaults,
    d.defaultValue ≠ .nan ∧ d.defaultValue ≠ 0 ∧ d.defaultValue ≠ -0 := by
  decide +kernel

end Assumption

namespace AssumptionRegistry

variable {r : AssumptionRegistry} {id : String} {value : Float}

theorem mem_of_get? {a : Assumption} (h : r.get? id = some a) : a ∈ r.assumptions ∧ a.id = id :=
  ⟨List.mem_of_find?_eq_some h, by simpa using List.find?_some h⟩

theorem get?_modify (r : AssumptionRegistry) (id other : String) (change : Assumption → Assumption)
    (hid : ∀ a, (change a).id = a.id) :
    (r.modify id change).get? other =
      if other = id then (r.get? other).map change else r.get? other := by
  obtain ⟨as⟩ := r
  simp only [modify, get?]
  by_cases h : other = id
  · subst h
    rw [if_pos rfl]
    induction as with
    | nil => rfl
    | cons a as ih => by_cases ha : a.id = other <;> simp [ha, hid, ih]
  · rw [if_neg h]
    induction as with
    | nil => rfl
    | cons a as ih =>
      by_cases ha : a.id = id
      · simp [ha, hid, ih, Ne.symm h]
      · by_cases ho : a.id = other <;> simp [h, ha, ho, ih]

theorem get?_resetAll (r : AssumptionRegistry) (id : String) :
    r.resetAll.get? id = (r.get? id).map Assumption.restored := by
  simp only [resetAll, get?, List.find?_map]
  rfl

theorem find_eq_ok_iff {a : Assumption} : r.find id = .ok a ↔ r.get? id = some a := by
  unfold find
  cases r.get? id <;> simp

theorem find_modify (change : Assumption → Assumption) (hid : ∀ a, (change a).id = a.id)
    {a : Assumption} (h : r.get? id = some a) : (r.modify id change).find id = .ok (change a) := by
  rw [find_eq_ok_iff, get?_modify r id id change hid, if_pos rfl, h]
  rfl

theorem check_eq_ok_iff :
    r.check id value = .ok () ↔ ∃ a, r.get? id = some a ∧ a.check value = .ok () := by
  unfold check find
  cases r.get? id with
  | none => simp [bind, Except.bind]
  | some a => simp [bind, Except.bind]

theorem update_eq_ok_iff {previous : Float} {r' : AssumptionRegistry} :
    r.update id value = .ok (previous, r') ↔
      ∃ a, r.get? id = some a ∧ a.check value = .ok () ∧ a.currentValue = previous ∧
        r.modify id (.override value) = r' := by
  unfold update find
  cases r.get? id with
  | none => simp [bind, Except.bind]
  | some a => cases h : a.check value <;> simp [h, bind, Except.bind, pure, Except.pure]

theorem reset_eq_ok_iff {r' : AssumptionRegistry} :
    r.reset id = .ok r' ↔ ∃ a, r.get? id = some a ∧ r.modify id .restored = r' := by
  unfold reset find
  cases r.get? id <;> simp [bind, Except.bind, pure, Except.pure]

structure Sound (r : AssumptionRegistry) : Prop where
  resetAll_eq : r.resetAll = .withDefaults
  inBounds : ∀ a ∈ r.assumptions, a.check a.currentValue = .ok ()
  untouched : ∀ a ∈ r.assumptions, a.isUserOverride = false → a.currentValue = a.defaultValue

theorem sound_withDefaults : Sound .withDefaults where
  resetAll_eq := congrArg mk Assumption.map_restored_defaults
  inBounds a ha := Assumption.check_eq_ok_iff.2 (Assumption.check_defaults a ha)
  untouched a ha _ := by
    rw [withDefaults, ← Assumption.map_restored_defaults] at ha
    obtain ⟨d, -, rfl⟩ := List.mem_map.1 ha
    rfl

namespace Sound

theorem map_restored (hr : Sound r) : r.assumptions.map .restored = Assumption.defaults :=
  congrArg assumptions hr.resetAll_eq

theorem restored_mem (hr : Sound r) {a : Assumption} (ha : a ∈ r.assumptions) :
    a.restored ∈ Assumption.defaults := by
  rw [← hr.map_restored]
  exact List.mem_map_of_mem ha

/-- The assumptions are the default ones but for values and flags. -/
theorem variants (hr : Sound r) :
    List.Forall₂ Assumption.VariantOf r.assumptions Assumption.defaults := by
  rw [← hr.map_restored, List.forall₂_map_right_iff, List.forall₂_same]
  intro a _
  exact Assumption.variantOf_of_restored_eq rfl

theorem map_id (hr : Sound r) : r.assumptions.map (·.id) = Assumption.defaults.map (·.id) := by
  rw [← hr.map_restored, List.map_map]
  rfl

theorem nodup (hr : Sound r) : (r.assumptions.map (·.id)).Nodup :=
  hr.map_id ▸ Assumption.nodup_defaults

theorem eq_of_id_eq (hr : Sound r) {a b : Assumption} (ha : a ∈ r.assumptions)
    (hb : b ∈ r.assumptions) (h : a.id = b.id) : a = b :=
  List.inj_on_of_nodup_map hr.nodup ha hb h

theorem eq_of_get? (hr : Sound r) {a b : Assumption} (hget : r.get? id = some a)
    (hb : b ∈ r.assumptions) (hid : b.id = id) : b = a := by
  obtain ⟨ha, hida⟩ := mem_of_get? hget
  exact hr.eq_of_id_eq hb ha (hid.trans hida.symm)

theorem exists_find (hr : Sound r) (h : id ∈ Assumption.defaults.map (·.id)) :
    ∃ a, r.find id = .ok a := by
  rw [← hr.map_id] at h
  obtain ⟨a, ha, hid⟩ := List.mem_map.1 h
  have hsome : (r.get? id).isSome = true :=
    List.find?_isSome.2 ⟨a, ha, decide_eq_true hid⟩
  obtain ⟨b, hb⟩ := Option.isSome_iff_exists.1 hsome
  exact ⟨b, find_eq_ok_iff.2 hb⟩

theorem exists_value (hr : Sound r) (h : id ∈ Assumption.defaults.map (·.id)) :
    ∃ x, r.value id = .ok x := by
  obtain ⟨a, ha⟩ := hr.exists_find h
  exact ⟨a.currentValue, by rw [value, ha]; rfl⟩

theorem beq_defaultValue_iff (hr : Sound r) {a : Assumption} (ha : a ∈ r.assumptions) :
    (a.defaultValue == value) = true ↔ a.defaultValue = value := by
  obtain ⟨hnan, hzero, hnegative⟩ :=
    Assumption.defaultValue_ordinary a.restored (hr.restored_mem ha)
  rw [Float.beq_iff_ne_nan_and_eq]
  constructor
  · rintro ⟨-, -, heq | ⟨h, -⟩ | ⟨h, -⟩⟩
    · exact heq
    · exact absurd h hzero
    · exact absurd h hnegative
  · rintro rfl
    exact ⟨hnan, hnan, .inl rfl⟩

/-- All sound registries have the same bounds. -/
theorem check_eq (hr : Sound r) (id : String) (value : Float) :
    r.check id value = withDefaults.check id value := by
  rw [← hr.resetAll_eq, check, check, find, find, get?_resetAll]
  cases r.get? id <;> rfl

theorem restored (hr : Sound r) {a : Assumption} (ha : a ∈ r.assumptions) :
    a.restored.check a.restored.currentValue = .ok () :=
  Assumption.check_eq_ok_iff.2 (Assumption.check_defaults _ (hr.restored_mem ha))

/-- A change of one assumption keeps a registry sound if it keeps that assumption so. -/
theorem modify (hr : Sound r) {change : Assumption → Assumption}
    (hrestored : ∀ a, (change a).restored = a.restored)
    (hcheck : ∀ a ∈ r.assumptions, a.id = id → (change a).check (change a).currentValue = .ok ())
    (huntouched : ∀ a ∈ r.assumptions, (change a).isUserOverride = false →
      (change a).currentValue = (change a).defaultValue) :
    Sound (r.modify id change) where
  resetAll_eq := by
    rw [← hr.resetAll_eq]
    simp only [resetAll, AssumptionRegistry.modify, List.map_map, mk.injEq]
    apply List.map_congr_left
    intro a _
    by_cases h : a.id = id <;> simp [h, hrestored]
  inBounds := by
    intro b hb
    obtain ⟨a, ha, rfl⟩ := List.mem_map.1 hb
    split
    · next h => exact hcheck a ha h
    · exact hr.inBounds a ha
  untouched := by
    intro b hb
    obtain ⟨a, ha, rfl⟩ := List.mem_map.1 hb
    split
    · exact huntouched a ha
    · exact hr.untouched a ha

theorem override (hr : Sound r) {a : Assumption} (hget : r.get? id = some a)
    (hcheck : a.check value = .ok ()) : Sound (r.modify id (.override value)) := by
  apply hr.modify
  · intro b
    rfl
  · intro b hb hid
    obtain rfl := hr.eq_of_get? hget hb hid
    exact hcheck
  · intro b _ h
    cases h

theorem reset (hr : Sound r) (id : String) : Sound (r.modify id .restored) := by
  apply hr.modify
  · intro a
    rfl
  · intro a ha _
    exact hr.restored ha
  · intro a _ _
    rfl

theorem assigned (hr : Sound r) (hcheck : r.check id value = .ok ()) :
    Sound (r.modify id (.assigned value)) := by
  obtain ⟨a, hget, hcheck⟩ := AssumptionRegistry.check_eq_ok_iff.1 hcheck
  apply hr.modify
  · intro b
    rfl
  · intro b hb hid
    obtain rfl := hr.eq_of_get? hget hb hid
    exact hcheck
  · intro b hb h
    exact ((hr.beq_defaultValue_iff hb).1 (by simpa [Assumption.assigned, bne] using h)).symm

end Sound

end AssumptionRegistry

end Appraisal
