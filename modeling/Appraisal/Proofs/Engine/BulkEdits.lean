import Appraisal.Proofs.Engine.Checkpoint
import Appraisal.Proofs.Except

/-!
# Bulk edits

An import writes its values into the session one after the other. All of them are checked before the
first is written, and a value that has been checked is never refused when its turn comes: nothing
is left half done. What remains of a list of values is the last one for each id.
-/

namespace Appraisal

/-- The last value in a list for an id. -/
def lastValue? (values : List AssumptionValue) (id : String) : Option Float :=
  (values.reverse.find? (·.id = id)).map (·.value)

theorem lastValue?_cons (v : AssumptionValue) (values : List AssumptionValue) (id : String) :
    lastValue? (v :: values) id =
      (lastValue? values id).or (if v.id = id then some v.value else none) := by
  rw [lastValue?, lastValue?, List.reverse_cons, List.find?_append]
  cases values.reverse.find? (·.id = id) with
  | some w => rfl
  | none => by_cases h : v.id = id <;> simp [h]

namespace Assumption

/-- An assumption with the last value for it, if there is one, written in some way. -/
def edited (write : Float → Assumption → Assumption) (values : List AssumptionValue)
    (a : Assumption) : Assumption :=
  match lastValue? values a.id with
  | some x => write x a
  | none => a

end Assumption

namespace AssumptionRegistry

variable {r : AssumptionRegistry}

/-- Whether an assumption has the id of a value and accepts it. -/
def admits (r : AssumptionRegistry) (v : AssumptionValue) : Bool :=
  match r.get? v.id with
  | some a => (a.check v.value).isOk
  | none => false

theorem check_eq_ok_iff_admits {v : AssumptionValue} :
    r.check v.id v.value = .ok () ↔ r.admits v = true := by
  rw [check_eq_ok_iff, admits]
  cases r.get? v.id with
  | none => simp
  | some a => cases h : a.check v.value <;> simp [h, Except.isOk, Except.toBool]

theorem admits_eq_false_of_check {v : AssumptionValue} {problem : EngineError}
    (h : r.check v.id v.value = .error problem) : r.admits v = false := by
  rw [← Bool.not_eq_true, ← check_eq_ok_iff_admits, h]
  simp

/-- The values are written one after the other. -/
def writeAll (write : Float → Assumption → Assumption) (r : AssumptionRegistry)
    (values : List AssumptionValue) : AssumptionRegistry :=
  values.foldl (fun r v => r.modify v.id (write v.value)) r

/-- Every assumption with the last value for it. -/
def edited (write : Float → Assumption → Assumption) (r : AssumptionRegistry)
    (values : List AssumptionValue) : AssumptionRegistry :=
  ⟨r.assumptions.map (.edited write values)⟩

/-- The last of several values wins, if a value once written leaves no trace under the next. -/
theorem writeAll_eq_edited (r : AssumptionRegistry) (write : Float → Assumption → Assumption)
    (hid : ∀ x a, (write x a).id = a.id) (hlast : ∀ x y a, write x (write y a) = write x a)
    (values : List AssumptionValue) : r.writeAll write values = r.edited write values := by
  induction values generalizing r with
  | nil => exact congrArg mk r.assumptions.map_id.symm
  | cons v values ih =>
    rw [writeAll, List.foldl_cons, ← writeAll, ih]
    simp only [edited, modify, List.map_map, mk.injEq]
    apply List.map_congr_left
    -- The first value counts only for its own id, and only if no later one is written over it.
    intro a _
    simp only [Function.comp_apply, Assumption.edited, lastValue?_cons]
    by_cases h : a.id = v.id
    · cases hvalue : lastValue? values a.id with
      | none => simp [h, hid, h ▸ hvalue]
      | some x => simp [h, hid, hlast, h ▸ hvalue]
    · simp [h, Ne.symm h]

theorem get?_edited (r : AssumptionRegistry) (write : Float → Assumption → Assumption)
    (hid : ∀ x a, (write x a).id = a.id) (values : List AssumptionValue) (id : String) :
    (r.edited write values).get? id = (r.get? id).map (Assumption.edited write values) := by
  have hkeeps (a : Assumption) : (Assumption.edited write values a).id = a.id := by
    rw [Assumption.edited]
    cases lastValue? values a.id with
    | none => rfl
    | some x => exact hid x a
  simp only [edited, get?, List.find?_map, Function.comp_def, hkeeps]

theorem value_edited_override {id : String} {x : Float} (values : List AssumptionValue)
    (h : r.value id = .ok x) :
    (r.edited .override values).value id = .ok ((lastValue? values id).getD x) := by
  obtain ⟨a, hfind, rfl⟩ := map_eq_ok_iff.1 h
  have hget := find_eq_ok_iff.1 hfind
  rw [value, find, get?_edited r .override (fun _ _ => rfl), hget, Option.map_some,
    Assumption.edited, (mem_of_get? hget).2]
  cases lastValue? values id <;> rfl

end AssumptionRegistry

/-- The same assumption with the same value. Only a default may be an override in one and not in the
other. -/
structure Assumption.AgreesWith (a b : Assumption) : Prop where
  variant : a.VariantOf b
  value : a.currentValue = b.currentValue
  flag : a.isUserOverride ≠ b.isUserOverride → a.currentValue = a.defaultValue

theorem AssumptionRegistry.Sound.edited_agree {r : AssumptionRegistry} (hr : r.Sound)
    (values : List AssumptionValue) :
    List.Forall₂ Assumption.AgreesWith (r.edited .assigned values).assumptions
      (r.edited .override values).assumptions := by
  simp only [edited, List.forall₂_map_left_iff, List.forall₂_map_right_iff, List.forall₂_same]
  intro a ha
  simp only [Assumption.edited]
  cases lastValue? values a.id with
  | none => exact ⟨rfl, rfl, fun h => absurd rfl h⟩
  | some x =>
    refine ⟨rfl, rfl, fun h => ?_⟩
    -- An override is always flagged, so it is the import that found the default.
    have hdefault : (a.defaultValue == x) = true := by
      simpa [Assumption.assigned, Assumption.override, bne] using h
    exact ((hr.beq_defaultValue_iff ha).1 hdefault).symm

namespace Engine

variable {e : Engine}

/-- Exactly the values that are not admitted have a problem each, in their order. -/
theorem forall₂_importProblems (r : AssumptionRegistry) (values : List AssumptionValue) :
    List.Forall₂ (fun v problem => r.check v.id v.value = .error problem)
      (values.filter (!r.admits ·)) (importProblems r values) := by
  induction values with
  | nil => exact .nil
  | cons v values ih =>
    cases hcheck : r.check v.id v.value with
    | ok =>
      have hadmits := AssumptionRegistry.check_eq_ok_iff_admits.1 hcheck
      simpa [importProblems, hcheck, hadmits] using ih
    | error problem =>
      have hadmits := AssumptionRegistry.admits_eq_false_of_check hcheck
      simpa [importProblems, hcheck, hadmits] using ih

/-- Writes a value into the session, or is refused. -/
def assign (v : AssumptionValue) : Op Unit :=
  Op.edit fun r => do return ((), ← applyValue r v)

/-- Writes one value after the other. -/
def assignEach : List AssumptionValue → Op Unit
  | [] => return
  | v :: values => do
    assign v
    assignEach values

/-- An import as it goes on in the session. What it has written stays if a later write is
refused. -/
def importing (now : Instant) (values : List AssumptionValue) (e : Engine) :
    Except (List EngineError) Unit × Engine :=
  let problems := importProblems e.assumptions values
  if !problems.isEmpty then (.error problems, e)
  else
    let op : Op Unit := do
      assignEach values
      Op.record now .importAssumptions [("values", .array (values.map fun v =>
        .object [("id", .string v.id), ("value", .amount v.value)]))]
    ((e.run op).1.mapError ([·]), (e.run op).2)

theorem run_assign (e : Engine) (v : AssumptionValue) :
    e.run (assign v) = match applyValue e.assumptions v with
      | .ok assumptions => (.ok (), { e with assumptions })
      | .error problem => (.error problem, e) := by
  rw [assign, run_edit]
  cases applyValue e.assumptions v <;> rfl

theorem run_assignEach (e : Engine) (values : List AssumptionValue) :
    match values.foldlM applyValue e.assumptions with
    | .ok assumptions => e.run (assignEach values) = (.ok (), { e with assumptions })
    | .error problem => ∃ e', e.run (assignEach values) = (.error problem, e') := by
  induction values generalizing e with
  | nil => rfl
  | cons v values ih =>
    rw [assignEach, run_bind, run_assign, List.foldlM_cons]
    cases applyValue e.assumptions v with
    | error problem => exact ⟨e, rfl⟩
    | ok r => exact ih { e with assumptions := r }

/-- An import that is described by its result alone is the one that goes on in the session. -/
theorem importAssumptions_eq_importing (now : Instant) (values : List AssumptionValue)
    (e : Engine) :
    importAssumptions now values e =
      (importing now values e).1.map fun _ => (importing now values e).2 := by
  simp only [importAssumptions, importing]
  split_ifs
  · rfl
  · have hassign := run_assignEach e values
    cases h : values.foldlM applyValue e.assumptions with
    | ok r =>
      rw [h] at hassign
      simp only [run_bind, hassign]
      rfl
    | error problem =>
      rw [h] at hassign
      obtain ⟨e', hassign⟩ := hassign
      simp only [run_bind, hassign]
      rfl

theorem importing_of_checked (hr : e.assumptions.Sound) (now : Instant)
    {values : List AssumptionValue} (h : ∀ v ∈ values, e.assumptions.check v.id v.value = .ok ()) :
    importing now values e = (.ok (), imported now values e) := by
  have hassign := run_assignEach e values
  rw [(foldlM_applyValue hr h).1] at hassign
  simp only [importing, importProblems_eq_nil_iff.2 h, run_bind, hassign]
  rfl

theorem assumptions_imported (now : Instant) (values : List AssumptionValue) (e : Engine) :
    (imported now values e).assumptions = e.assumptions.edited .assigned values :=
  e.assumptions.writeAll_eq_edited .assigned (fun _ _ => rfl) (fun _ _ _ => rfl) values

theorem importing_of_not_checked (now : Instant) {values : List AssumptionValue}
    (h : importProblems e.assumptions values ≠ []) :
    importing now values e = (.error (importProblems e.assumptions values), e) := by
  rw [importing, if_pos (by simpa using h)]

end Engine

end Appraisal
