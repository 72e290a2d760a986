import Appraisal.Proofs.Expression.Validation

/-!
# Evaluating valid texts

The evaluation of a valid text can fail for one reason only: its value is not finite. All variables
of the expression are bound, since the validation found each of them among the names of the context
and the constants.
-/

namespace Appraisal.Expression

section Binding

variable {binding : String → Option Float}

mutual

theorem exists_eval (e : Expression) (h : ∀ name ∈ e.variableNames, (binding name).isSome = true) :
    ∃ value, e.eval binding = .ok value := by
  match e with
  | number value => exact ⟨value, by rw [eval]⟩
  | var name =>
    obtain ⟨value, hvalue⟩ := Option.isSome_iff_exists.1 (h name List.mem_cons_self)
    exact ⟨value, by rw [eval, hvalue]⟩
  | binary op left right =>
    rw [variableNames, List.forall_mem_append] at h
    obtain ⟨a, ha⟩ := exists_eval left h.1
    obtain ⟨b, hb⟩ := exists_eval right h.2
    exact ⟨op.apply a b, by rw [eval, ha, hb]; rfl⟩
  | call function arguments =>
    rw [variableNames] at h
    obtain ⟨values, hvalues⟩ := exists_evalAll arguments h
    exact ⟨function.apply values, by rw [eval, hvalues]; rfl⟩

theorem exists_evalAll (es : List Expression)
    (h : ∀ name ∈ variableNamesOfAll es, (binding name).isSome = true) :
    ∃ values, evalAll binding es = .ok values := by
  match es with
  | [] => exact ⟨[], by rw [evalAll]⟩
  | e :: es =>
    rw [variableNamesOfAll, List.forall_mem_append] at h
    obtain ⟨value, hvalue⟩ := exists_eval e h.1
    obtain ⟨values, hvalues⟩ := exists_evalAll es h.2
    exact ⟨value :: values, by rw [evalAll, hvalue, hvalues]; rfl⟩

end

end Binding

variable {limits : Limits} {text : String} {context : Context} {constants : List Constant}

theorem mem_bindings_iff {name : String} :
    name ∈ bindings context constants ↔ name ∈ availableNames context constants := by
  rw [availableNames, List.mem_append, Std.ExtTreeMap.mem_keys, bindings]
  induction constants generalizing context with
  | nil => simp
  | cons c constants ih =>
    rw [List.foldl_cons, ih, Std.ExtTreeMap.mem_insert, Std.LawfulEqCmp.compare_eq_iff_eq,
      List.map_cons, List.mem_cons, eq_comm, or_assoc, or_left_comm]

theorem isSome_get?_bindings {name : String} :
    ((bindings context constants).get? name).isSome = true ↔
      name ∈ availableNames context constants := by
  rw [← mem_bindings_iff, Std.ExtTreeMap.mem_iff_isSome_getElem?, Std.ExtTreeMap.get?_eq_getElem?]

theorem outcome_of_eval {binding : String → Option Float} {e : Expression} {value : Float}
    (hlength : text.length ≤ limits.maxLength) (hparse : parse limits.maxDepth text = .ok e)
    (heval : e.eval binding = .ok value) :
    outcome limits text binding = if value.isFinite then .ok value else .error .notFinite := by
  rw [outcome, if_neg (Nat.not_lt.2 hlength), hparse]
  simp only [heval]

/-- A valid text has a finite value or an infinite or undefined one, and no other outcome. -/
theorem outcome_of_isValid
    (h : (validate limits text (availableNames context constants)).isValid = true) :
    (∃ value : Float, value.isFinite = true ∧
        outcome limits text ((bindings context constants).get? ·) = .ok value) ∨
      outcome limits text ((bindings context constants).get? ·) = .error .notFinite := by
  obtain ⟨hlength, e, he, hnames⟩ := isValid_validate_iff_parse.1 h
  obtain ⟨value, hvalue⟩ := exists_eval e fun name hname =>
    isSome_get?_bindings.2 (hnames name hname).1
  rw [outcome_of_eval hlength he hvalue]
  cases hfinite : value.isFinite with
  | true => exact .inl ⟨value, hfinite, rfl⟩
  | false => exact .inr rfl

/-- An evaluation with a finite value that it explains in its last step, or with the value zero
because there is no finite one. -/
def Evaluation.Settled (e : Evaluation) : Prop :=
  e.failure = none ∧ e.value.isFinite = true ∧ e.steps.getLast? = some ⟨"Result", e.value⟩ ∨
    e.failure = some .notFinite ∧ e.value = 0

theorem settled_evaluate
    (h : (validate limits text (availableNames context constants)).isValid = true) :
    (evaluate limits text context constants).Settled := by
  obtain ⟨value, hfinite, houtcome⟩ | houtcome := outcome_of_isValid h
  · have hevaluate : evaluate limits text context constants =
        ⟨value, inputSteps context constants ++ [⟨"Result", value⟩], none⟩ := by
      simp only [evaluate, houtcome]
    rw [hevaluate]
    exact .inl ⟨rfl, hfinite, List.getLast?_concat⟩
  · have hevaluate : evaluate limits text context constants =
        .failed (inputSteps context constants) .notFinite := by
      simp only [evaluate, houtcome]
    rw [hevaluate]
    exact .inr ⟨rfl, rfl⟩

theorem preview_of_isValid
    (h : (validate limits text (availableNames context constants)).isValid = true) :
    preview limits text context constants = evaluate limits text context constants :=
  if_pos h

theorem preview_of_not_isValid
    (h : (validate limits text (availableNames context constants)).isValid = false) :
    preview limits text context constants =
      .failed [] (.invalid (validate limits text (availableNames context constants)).messages) :=
  if_neg (by simp [h])

/-- The evaluation of a valid text is settled. A preview of any text has a finite value and no
failure or the value zero and a failure; that of a text that is not valid explains nothing and
fails with all that is wrong with the text. -/
theorem settled_evaluate_and_preview_cases (limits : Limits) (text : String) (context : Context)
    (constants : List Constant) :
    let validation := validate limits text (availableNames context constants)
    let previewed := preview limits text context constants
    (validation.isValid = true → (evaluate limits text context constants).Settled) ∧
    (previewed.failure = none ∧ previewed.value.isFinite = true ∨
      previewed.failure ≠ none ∧ previewed.value = 0) ∧
    (validation.isValid = false → previewed.steps = [] ∧
      previewed.failure.map Failure.message =
        some (String.intercalate "; " validation.messages)) := by
  intro validation previewed
  refine ⟨settled_evaluate, ?_, fun h => ?_⟩
  · cases h : validation.isValid with
    | true =>
      rw [show previewed = _ from preview_of_isValid h]
      obtain ⟨hfailure, hfinite, -⟩ | ⟨hfailure, hvalue⟩ := settled_evaluate h
      · exact .inl ⟨hfailure, hfinite⟩
      · exact .inr ⟨by simp [hfailure], hvalue⟩
    | false =>
      rw [show previewed = _ from preview_of_not_isValid h]
      exact .inr ⟨by simp [Evaluation.failed], rfl⟩
  · rw [show previewed = _ from preview_of_not_isValid h]
    exact ⟨rfl, rfl⟩

end Appraisal.Expression
