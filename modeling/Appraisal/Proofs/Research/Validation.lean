import Appraisal.Research.Validation
import Mathlib

/-!
# What validation keeps

A payload without problems is taken over member by member: the research has a use case for every
one of the payload, with the id that was given, and a point of friction for every one given.
-/

namespace Appraisal

theorem Checked.eq_some_of_text {path : String} {given : Option String}
    (h : (Checked.text path given).problems = []) :
    given = some (Checked.text path given).value := by
  unfold text at h ⊢
  split at h
  · split_ifs at h ⊢
    · cases h
    · rfl
  · cases h

namespace UseCaseInput

/-- An id that is repeated is a problem, but it is the id all the same. -/
theorem value_checkId (path : String) (seen : List String) (given : Option String) :
    (checkId path seen given).value = (Checked.text path given).value := by
  rw [checkId, Checked.value_bind]
  split_ifs <;> rfl

theorem eq_some_of_checkId {path : String} {seen : List String} {given : Option String}
    (h : (checkId path seen given).problems = []) :
    given = some (checkId path seen given).value := by
  rw [checkId, Checked.problems_bind, List.append_eq_nil_iff] at h
  rw [value_checkId]
  exact Checked.eq_some_of_text h.1

theorem id_check (index : Nat) (seen : List String) (u : UseCaseInput)
    (h : (u.check index seen).problems = []) : u.id = some (u.check index seen).value.id := by
  rw [check, Checked.problems_bind, List.append_eq_nil_iff] at h
  exact eq_some_of_checkId h.1

end UseCaseInput

namespace ResearchInput

theorem ids_checkUseCases (index : Nat) (seen : List String) (given : List UseCaseInput)
    (h : (checkUseCases index seen given).problems = []) :
    (checkUseCases index seen given).value.map (some ·.id) = given.map (·.id) := by
  induction given generalizing index seen with
  | nil => rfl
  | cons u us ih =>
    simp only [checkUseCases, Checked.problems_bind, List.append_eq_nil_iff] at h
    obtain ⟨hfirst, hrest, -⟩ := h
    have hid := u.id_check index seen hfirst
    simp only [checkUseCases, Checked.value_bind, Checked.value_pure, List.map_cons]
    rw [ih _ _ hrest, hid]

theorem ids_checkFrictionPoints (index : Nat) (given : List FrictionInput) :
    (checkFrictionPoints index given).value.map (·.id) = given.map (·.id) := by
  induction given generalizing index with
  | nil => rfl
  | cons f fs ih =>
    simp only [checkFrictionPoints, Checked.value_bind, Checked.value_pure, List.map_cons, ih]
    rfl

theorem eq_some_givenUseCases {given : Option (List UseCaseInput)}
    (h : (givenUseCases given).problems = []) : given = some (givenUseCases given).value := by
  unfold givenUseCases at h ⊢
  split at h
  · cases h
  · rfl
  · cases h

theorem validate_eq_ok_iff {input : ResearchInput} {research : Research} :
    input.validate = .ok research ↔ input.check.problems = [] ∧ input.check.value = research := by
  rw [validate]
  split_ifs with h
  · simp [List.isEmpty_iff.1 h]
  · simp [List.isEmpty_iff.not.1 h]

/-- The use cases and points of friction of a research are the ones of the payload. -/
theorem members_of_validate {input : ResearchInput} {research : Research}
    (h : input.validate = .ok research) :
    (∃ given, input.useCases = some given ∧
      research.useCases.map (some ·.id) = given.map (·.id)) ∧
    research.frictionPoints.map (·.id) = input.frictionPoints.map (·.id) := by
  obtain ⟨hproblems, rfl⟩ := validate_eq_ok_iff.1 h
  simp only [check, Checked.problems_bind, List.append_eq_nil_iff] at hproblems
  obtain ⟨-, -, -, hgiven, huseCases, -⟩ := hproblems
  exact ⟨⟨_, eq_some_givenUseCases hgiven, ids_checkUseCases 0 [] _ huseCases⟩,
    ids_checkFrictionPoints 0 _⟩

end ResearchInput

end Appraisal
