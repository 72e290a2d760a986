import Appraisal.Proofs.Context
import Appraisal.Proofs.Expression.Validation

/-!
# What an evaluation reads

A name stands for the last constant with that key, else for the entry of the context. An evaluation
reads what the variables of its expression stand for and nothing else; the names are whole words of
the text. Its steps list every number that it was given, so only the value and the failure are
compared here.
-/

namespace Appraisal.Expression

/-- The value of the last constant with this key. -/
def constant? (constants : List Constant) (name : String) : Option Float :=
  (constants.filter (·.key = name)).getLast?.map Constant.value

/-- What a name stands for. -/
def binding? (context : Context) (constants : List Constant) (name : String) : Option Float :=
  (constant? constants name).or (context.get? name)

variable {context : Context} {constants : List Constant} {c : Constant} {name : String}

theorem constant?_cons : constant? (c :: constants) name =
    (constant? constants name).or (if name = c.key then some c.value else none) := by
  by_cases h : c.key = name
  · rw [constant?, List.filter_cons_of_pos (by simpa using h), List.getLast?_cons, if_pos h.symm,
      constant?]
    cases (constants.filter (·.key = name)).getLast? <;> rfl
  · rw [constant?, List.filter_cons_of_neg (by simpa using h), if_neg (Ne.symm h), Option.or_none,
      constant?]

theorem constant?_append (before after : List Constant) (name : String) :
    constant? (before ++ after) name = (constant? after name).or (constant? before name) := by
  simp [constant?, List.filter_append, List.getLast?_append, Option.map_or]

theorem constant?_eq_none_iff :
    constant? constants name = none ↔ name ∉ constants.map Constant.key := by
  simp [constant?]

theorem get?_bindings :
    (bindings context constants).get? name = binding? context constants name := by
  induction constants generalizing context with
  | nil => rfl
  | cons c constants ih =>
    change (bindings (context.insert c.key c.value) constants).get? name = _
    rw [ih, binding?, binding?, constant?_cons, Context.get?_insert, Option.or_assoc]
    split_ifs <;> rfl

section Congruence

variable {binding binding' : String → Option Float}

mutual

/-- An expression has the same value, or lacks the same variable, under bindings that agree on its
variables. -/
theorem eval_congr (e : Expression)
    (h : ∀ name ∈ e.variableNames, binding name = binding' name) :
    e.eval binding = e.eval binding' := by
  match e with
  | number value => rw [eval, eval]
  | var name => rw [eval, eval, h name List.mem_cons_self]
  | binary op left right =>
    rw [variableNames, List.forall_mem_append] at h
    rw [eval, eval, eval_congr left h.1, eval_congr right h.2]
  | call function arguments =>
    rw [variableNames] at h
    rw [eval, eval, evalAll_congr arguments h]

theorem evalAll_congr (es : List Expression)
    (h : ∀ name ∈ variableNamesOfAll es, binding name = binding' name) :
    evalAll binding es = evalAll binding' es := by
  match es with
  | [] => rw [evalAll, evalAll]
  | e :: es =>
    rw [variableNamesOfAll, List.forall_mem_append] at h
    rw [evalAll, evalAll, eval_congr e h.1, evalAll_congr es h.2]

end

/-- The bindings agree on all variables of a text. One that cannot be read has none. -/
def AgreeOn (maxDepth : Nat) (text : String) (binding binding' : String → Option Float) : Prop :=
  ∀ e, parse maxDepth text = .ok e → ∀ name ∈ e.variableNames, binding name = binding' name

variable {limits : Limits} {text : String}

theorem outcome_congr (h : AgreeOn limits.maxDepth text binding binding') :
    outcome limits text binding = outcome limits text binding' := by
  unfold outcome
  cases hparse : parse limits.maxDepth text with
  | error => rfl
  | ok e => simp only [eval_congr e (h e hparse)]

theorem AgreeOn.of_usedVariables {maxDepth : Nat}
    (h : ∀ name ∈ usedVariables text, binding name = binding' name) :
    AgreeOn maxDepth text binding binding' := by
  intro e he name hname
  obtain ⟨ts, hread⟩ := exists_read_of_parse he
  apply h
  rw [hread.usedVariables_eq]
  exact List.mem_eraseDups.2 hname

end Congruence

/-- What an evaluation says about the text, apart from the explanation in its steps. -/
def Evaluation.answer (e : Evaluation) : Float × Option Failure :=
  (e.value, e.failure)

variable {limits : Limits} {text : String} {context' : Context} {constants' : List Constant}

theorem answer_evaluate : (evaluate limits text context constants).answer =
    match outcome limits text (binding? context constants) with
    | .ok value => (value, none)
    | .error failure => (0, some failure) := by
  have hbinding : binding? context constants = ((bindings context constants).get? ·) :=
    funext fun _ => get?_bindings.symm
  rw [hbinding, evaluate]
  cases outcome limits text ((bindings context constants).get? ·) <;> rfl

theorem answer_congr
    (h : AgreeOn limits.maxDepth text (binding? context constants)
      (binding? context' constants')) :
    (evaluate limits text context constants).answer =
      (evaluate limits text context' constants').answer := by
  rw [answer_evaluate, answer_evaluate, outcome_congr h]

theorem binding?_insert_of_ne {key : String} (h : name ≠ key) (x : Float) :
    binding? (context.insert key x) constants name = binding? context constants name := by
  rw [binding?, binding?, Context.get?_insert, if_neg h]

/-- A constant may be left out if a later one has its key, for its own key and for all others. -/
theorem constant?_append_cons (before after : List Constant)
    (h : name ≠ c.key ∨ c.key ∈ after.map Constant.key) :
    constant? (before ++ c :: after) name = constant? (before ++ after) name := by
  rw [constant?_append, constant?_append, constant?_cons]
  by_cases hname : name = c.key
  · obtain ⟨x, hx⟩ : ∃ x, constant? after name = some x := by
      rw [← Option.ne_none_iff_exists', Ne, constant?_eq_none_iff, not_not, hname]
      exact h.resolve_left (not_not.2 hname)
    rw [hx]
    rfl
  · rw [if_neg hname, Option.or_none]

theorem constant?_append_swap {c' : Constant} (before after : List Constant)
    (h : c.key ≠ c'.key) :
    constant? (before ++ c :: c' :: after) name = constant? (before ++ c' :: c :: after) name := by
  simp only [constant?_append, constant?_cons]
  by_cases hname : name = c.key
  · simp [hname, h]
  · simp [hname]

/-- An evaluation gives the same value and the same failure whenever the variables of the text
stand for the same numbers or are unbound alike. So an entry of the context or a constant under any
name that is no whole word of the text does not count, nor does a constant that a later one with
its key overrides, nor the order of constants with different keys. -/
theorem evaluate_reads_whole_words (limits : Limits) (text : String) :
    (∀ context context' constants constants',
      (∀ e, parse limits.maxDepth text = .ok e → ∀ name ∈ e.variableNames,
        binding? context constants name = binding? context' constants' name) →
      (evaluate limits text context constants).answer =
        (evaluate limits text context' constants').answer) ∧
    (∀ context constants name x, name ∉ usedVariables text →
      (evaluate limits text (context.insert name x) constants).answer =
        (evaluate limits text context constants).answer) ∧
    (∀ context before after c, c.key ∉ usedVariables text ∨ c.key ∈ after.map Constant.key →
      (evaluate limits text context (before ++ c :: after)).answer =
        (evaluate limits text context (before ++ after)).answer) ∧
    ∀ context before after (c c' : Constant), c.key ≠ c'.key →
      (evaluate limits text context (before ++ c :: c' :: after)).answer =
        (evaluate limits text context (before ++ c' :: c :: after)).answer := by
  refine ⟨fun _ _ _ _ h => answer_congr h, fun context constants key x hkey => ?_,
    fun context before after c hc => ?_, fun context before after c c' hkeys => ?_⟩
  · refine answer_congr (.of_usedVariables fun name hname => binding?_insert_of_ne ?_ x)
    rintro rfl
    exact hkey hname
  · refine answer_congr (.of_usedVariables fun name hname => ?_)
    have hunread : name ≠ c.key ∨ c.key ∈ after.map Constant.key := by
      refine hc.imp_left fun hkey => ?_
      rintro rfl
      exact hkey hname
    rw [binding?, binding?, constant?_append_cons before after hunread]
  · refine answer_congr fun e _ name _ => ?_
    rw [binding?, binding?, constant?_append_swap before after hkeys]

/-- The longer name and the shorter one are not read for each other, and of the constants the last
one counts. -/
theorem evaluate_reads_whole_words_of_similar_names :
    let context := Context.ofPairs [("revenue", 10), ("revenue2", 25)]
    let context' := Context.ofPairs [("revenue", 7), ("revenue2", 25), ("revenue23", 8)]
    let constants' : List Constant := [⟨"revenue", "", 3⟩, ⟨"rev", "", 4⟩, ⟨"revenue", "", 10⟩]
    (∀ e, parse Limits.standard.maxDepth "revenue2-revenue" = .ok e → ∀ name ∈ e.variableNames,
      binding? context [] name = binding? context' constants' name) ∧
    (evaluate .standard "revenue2-revenue" context []).answer =
      (evaluate .standard "revenue2-revenue" context' constants').answer := by
  intro context context' constants'
  have hused : usedVariables "revenue2-revenue" = ["revenue2", "revenue"] := by cbv
  have hagree : AgreeOn Limits.standard.maxDepth "revenue2-revenue" (binding? context [])
      (binding? context' constants') := by
    apply AgreeOn.of_usedVariables
    rw [hused]
    intro name hname
    simp only [List.mem_cons, List.not_mem_nil, or_false] at hname
    simp only [binding?, context, context', Context.get?_ofPairs]
    rcases hname with rfl | rfl <;> simp [constant?, constants', lookup_cons_eq]
  exact ⟨hagree, (evaluate_reads_whole_words .standard "revenue2-revenue").1 _ _ _ _ hagree⟩

end Appraisal.Expression
