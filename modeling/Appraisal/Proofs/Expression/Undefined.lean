import Appraisal.Expression.Evaluation
import Appraisal.Proofs.Context
import Appraisal.Proofs.Except
import Appraisal.Proofs.Float.Undefined
import Mathlib

/-!
# Undefined parts of an expression

The operators and the functions hand an undefined operand on, with one exception: a power is 1 if
its exponent is zero or its base is one, whatever the other operand is. So an undefined part makes
everything around it undefined, up to the first power that hides it.
-/

namespace Appraisal

open Number (IsUnitPower)

namespace Expression

variable {binding : String → Option Float} {part e : Expression} {es : List Expression}
  {f : Function} {xs : List Float}

theorem isNaN_apply_operator {op : Operator} {x y : Float}
    (h : x.isNaN = true ∨ y.isNaN = true) : (op.apply x y).isNaN = true := by
  cases op with
  | add => exact isNaN_add h
  | sub => exact isNaN_sub h
  | mul => exact isNaN_mul h
  | div => exact isNaN_div h

theorem isNaN_unlessUndefined {pick : Float → Float → Float} {x y : Float}
    (h : x.isNaN = true ∨ y.isNaN = true) : (unlessUndefined pick x y).isNaN = true := by
  rw [unlessUndefined, if_pos (Bool.or_eq_true_iff.2 h)]
  exact isNaN_zero_div_zero

/-- Once the running choice is undefined, it stays so. -/
theorem isNaN_foldl_unlessUndefined {pick : Float → Float → Float} {start : Float}
    (h : start.isNaN = true ∨ ∃ x ∈ xs, x.isNaN = true) :
    (xs.foldl (unlessUndefined pick) start).isNaN = true := by
  induction xs generalizing start with
  | nil => exact h.resolve_right (by simp)
  | cons x xs ih =>
    apply ih
    rcases h with hstart | ⟨y, hy, hnan⟩
    · exact .inl (isNaN_unlessUndefined (.inl hstart))
    · rcases List.mem_cons.1 hy with rfl | hy
      · exact .inl (isNaN_unlessUndefined (.inr hnan))
      · exact .inr ⟨y, hy, hnan⟩

theorem isNaN_onlyArgument {g : Float → Float} (hg : ∀ x, x.isNaN = true → (g x).isNaN = true)
    (h : ∃ x ∈ xs, x.isNaN = true) : (onlyArgument g xs).isNaN = true := by
  obtain ⟨x, hx, hnan⟩ := h
  rcases xs with _ | ⟨y, _ | ⟨z, zs⟩⟩
  · cases hx
  · rw [List.mem_singleton.1 hx] at hnan
    exact hg y hnan
  · exact isNaN_zero_div_zero

theorem isNaN_or_of_pair {x y : Float} (h : ∃ z ∈ [x, y], z.isNaN = true) :
    x.isNaN = true ∨ y.isNaN = true := by
  obtain ⟨z, hz, hnan⟩ := h
  simp only [List.mem_cons, List.not_mem_nil, or_false] at hz
  rcases hz with rfl | rfl
  · exact .inl hnan
  · exact .inr hnan

theorem isNaN_apply (h : ∃ x ∈ xs, x.isNaN = true)
    (hpow : ∀ base exponent, f = .pow → xs = [base, exponent] → ¬ IsUnitPower base exponent) :
    (f.apply xs).isNaN = true := by
  cases f with
  | max | min => exact isNaN_foldl_unlessUndefined (.inr h)
  | abs => exact isNaN_onlyArgument (fun _ => isNaN_abs) h
  | round => exact isNaN_onlyArgument (fun _ => Number.isNaN_roundHalfUp) h
  | floor => exact isNaN_onlyArgument (fun x hx => by rwa [Number.floor_of_isNaN hx]) h
  | ceil => exact isNaN_onlyArgument (fun x hx => by rwa [Number.ceiling_of_isNaN hx]) h
  | sqrt => exact isNaN_onlyArgument (fun _ => isNaN_sqrt) h
  | pow =>
    rcases xs with _ | ⟨x, _ | ⟨y, _ | ⟨z, zs⟩⟩⟩
    · exact isNaN_zero_div_zero
    · exact isNaN_zero_div_zero
    · exact Number.isNaN_power (isNaN_or_of_pair h) (hpow x y rfl rfl)
    · exact isNaN_zero_div_zero

inductive IsOperand : Expression → Expression → Prop
  | left {op : Operator} {left right : Expression} : IsOperand left (.binary op left right)
  | right {op : Operator} {left right : Expression} : IsOperand right (.binary op left right)
  | argument {function : Function} {arguments : List Expression} {e : Expression}
      (h : e ∈ arguments) : IsOperand e (.call function arguments)

/-- An expression is a part of itself, and the operands of its parts are parts. -/
abbrev IsPart (part e : Expression) : Prop :=
  Relation.ReflTransGen IsOperand part e

theorem isPart_var_iff {name : String} : part.IsPart (.var name) ↔ part = .var name := by
  rw [IsPart, Relation.ReflTransGen.cases_tail_iff]
  constructor
  · rintro (h | ⟨_, -, h⟩)
    · exact h.symm
    · cases h
  · exact fun h => .inl h.symm

theorem isPart_call_iff {function : Function} :
    part.IsPart (.call function es) ↔
      part = .call function es ∨ ∃ e ∈ es, part.IsPart e := by
  rw [IsPart, Relation.ReflTransGen.cases_tail_iff]
  refine or_congr eq_comm ⟨?_, ?_⟩
  · rintro ⟨e, h, hoperand⟩
    cases hoperand with
    | argument hmem => exact ⟨e, hmem, h⟩
  · rintro ⟨e, hmem, h⟩
    exact ⟨e, h, .argument hmem⟩

def Undefined (binding : String → Option Float) (e : Expression) : Prop :=
  ∃ x, e.eval binding = .ok x ∧ x.isNaN = true

/-- A power with an undefined operand whose other operand decides it alone. -/
def Hides (binding : String → Option Float) : Expression → Prop
  | .call .pow [base, exponent] => ∃ x y, base.eval binding = .ok x ∧
      exponent.eval binding = .ok y ∧ (x.isNaN = true ∨ y.isNaN = true) ∧ IsUnitPower x y
  | _ => False

theorem exists_mem_of_forall₂ {α β : Type} {R : α → β → Prop} {as : List α} {bs : List β} {a : α}
    (h : List.Forall₂ R as bs) (ha : a ∈ as) : ∃ b ∈ bs, R a b := by
  induction h with
  | nil => cases ha
  | cons hab _ ih =>
    rcases List.mem_cons.1 ha with rfl | ha
    · exact ⟨_, List.mem_cons_self, hab⟩
    · obtain ⟨b, hb, hrel⟩ := ih ha
      exact ⟨b, List.mem_cons_of_mem _ hb, hrel⟩

theorem evalAll_eq_ok_iff :
    evalAll binding es = .ok xs ↔ List.Forall₂ (fun e x => e.eval binding = .ok x) es xs := by
  induction es generalizing xs with
  | nil => simp [evalAll, eq_comm]
  | cons e es ih =>
    simp only [evalAll, bind_eq_ok_iff, ih, List.forall₂_cons_left_iff]
    constructor
    · rintro ⟨x, hx, values, hvalues, hxs⟩
      cases hxs
      exact ⟨x, values, hx, hvalues, rfl⟩
    · rintro ⟨x, values, hx, hvalues, rfl⟩
      exact ⟨x, hx, values, hvalues, rfl⟩

theorem eval_call_eq_ok_iff {function : Function} {x : Float} :
    (call function es).eval binding = .ok x ↔
      ∃ xs, List.Forall₂ (fun e x => e.eval binding = .ok x) es xs ∧ function.apply xs = x := by
  simp only [eval, bind_eq_ok_iff, evalAll_eq_ok_iff]
  exact exists_congr fun xs => and_congr_right fun _ => ⟨Except.ok.inj, congrArg Except.ok⟩

theorem eval_binary_eq_ok_iff {op : Operator} {left right : Expression} {x : Float} :
    (binary op left right).eval binding = .ok x ↔
      ∃ a b, left.eval binding = .ok a ∧ right.eval binding = .ok b ∧ op.apply a b = x := by
  simp only [eval, bind_eq_ok_iff]
  constructor
  · rintro ⟨a, ha, b, hb, hx⟩
    exact ⟨a, b, ha, hb, Except.ok.inj hx⟩
  · rintro ⟨a, b, ha, hb, rfl⟩
    exact ⟨a, ha, b, hb, rfl⟩

theorem IsOperand.exists_eval (h : IsOperand part e) (he : ∃ x, e.eval binding = .ok x) :
    ∃ x, part.eval binding = .ok x := by
  obtain ⟨x, hx⟩ := he
  cases h with
  | left =>
    obtain ⟨a, b, ha, -, -⟩ := eval_binary_eq_ok_iff.1 hx
    exact ⟨a, ha⟩
  | right =>
    obtain ⟨a, b, -, hb, -⟩ := eval_binary_eq_ok_iff.1 hx
    exact ⟨b, hb⟩
  | argument hmem =>
    obtain ⟨xs, hxs, -⟩ := eval_call_eq_ok_iff.1 hx
    obtain ⟨y, -, hy⟩ := exists_mem_of_forall₂ hxs hmem
    exact ⟨y, hy⟩

/-- An evaluation that succeeds has evaluated every part. -/
theorem IsPart.exists_eval (h : IsPart part e) (he : ∃ x, e.eval binding = .ok x) :
    ∃ x, part.eval binding = .ok x := by
  induction h with
  | refl => exact he
  | tail _ hoperand ih => exact ih (hoperand.exists_eval he)

theorem Hides.eval (h : e.Hides binding) : e.eval binding = .ok 1 := by
  match e, h with
  | .call .pow [base, exponent], ⟨x, y, hx, hy, _, hunit⟩ =>
    refine eval_call_eq_ok_iff.2 ⟨[x, y], .cons hx (.cons hy .nil), ?_⟩
    exact Number.power_of_isUnitPower hunit

theorem Hides.not_undefined (h : e.Hides binding) : ¬ e.Undefined binding := by
  rintro ⟨x, hx, hnan⟩
  cases h.eval.symm.trans hx
  cases hnan

theorem hides_call_pow {x y : Float}
    (h : List.Forall₂ (fun e x => e.eval binding = .ok x) es [x, y])
    (hnan : ∃ z ∈ [x, y], z.isNaN = true) (hunit : IsUnitPower x y) :
    (call .pow es).Hides binding := by
  rcases h with _ | ⟨hx, _ | ⟨hy, _ | _⟩⟩
  exact ⟨x, y, hx, hy, isNaN_or_of_pair hnan, hunit⟩

/-- An undefined operand makes an expression undefined that does not hide it. -/
theorem IsOperand.undefined (h : IsOperand part e) (he : ∃ x, e.eval binding = .ok x)
    (hpart : part.Undefined binding) (hhides : ¬ e.Hides binding) : e.Undefined binding := by
  obtain ⟨x, hx⟩ := he
  obtain ⟨y, hy, hnan⟩ := hpart
  refine ⟨x, hx, ?_⟩
  cases h with
  | left =>
    obtain ⟨a, b, ha, -, rfl⟩ := eval_binary_eq_ok_iff.1 hx
    cases ha.symm.trans hy
    exact isNaN_apply_operator (.inl hnan)
  | right =>
    obtain ⟨a, b, -, hb, rfl⟩ := eval_binary_eq_ok_iff.1 hx
    cases hb.symm.trans hy
    exact isNaN_apply_operator (.inr hnan)
  | argument hmem =>
    obtain ⟨xs, hxs, rfl⟩ := eval_call_eq_ok_iff.1 hx
    obtain ⟨z, hz, hvalue⟩ := exists_mem_of_forall₂ hxs hmem
    obtain rfl : z = y := Except.ok.inj (hvalue.symm.trans hy)
    refine isNaN_apply ⟨z, hz, hnan⟩ ?_
    rintro base exponent rfl rfl hunit
    exact hhides (hides_call_pow hxs ⟨z, hz, hnan⟩ hunit)

theorem undefined_sqrt {name : String} (h : binding name = some (-4)) :
    Undefined binding (.call .sqrt [.var name]) :=
  ⟨Float.sqrt (-4), eval_call_eq_ok_iff.2 ⟨[-4], .cons (by rw [eval, h]) .nil, rfl⟩,
    by decide +kernel⟩

/-- Nothing from the part up to the whole hides an undefined operand. -/
def Exposed (binding : String → Option Float) (part e : Expression) : Prop :=
  ∀ whole, part.IsPart whole → whole.IsPart e → ¬ whole.Hides binding

theorem Exposed.undefined {whole : Expression} (h : Exposed binding part e)
    (he : ∃ x, e.eval binding = .ok x) (hpart : part.Undefined binding)
    (hbelow : part.IsPart whole) (habove : whole.IsPart e) : whole.Undefined binding := by
  induction hbelow with
  | refl => exact hpart
  | @tail mid whole hbelow hoperand ih =>
    have hmid : mid.Undefined binding := ih (.head hoperand habove)
    exact hoperand.undefined (habove.exists_eval he) hmid (h _ (hbelow.tail hoperand) habove)

theorem exposed_iff (he : ∃ x, e.eval binding = .ok x) (hpart : part.Undefined binding) :
    Exposed binding part e ↔
      ∀ whole, part.IsPart whole → whole.IsPart e → whole.Undefined binding := by
  constructor
  · intro h whole hbelow habove
    exact h.undefined he hpart hbelow habove
  · intro h whole hbelow habove hhides
    exact hhides.not_undefined (h whole hbelow habove)

theorem outcome_of_undefined {limits : Limits} {text : String}
    (hlength : text.length ≤ limits.maxLength) (hparse : parse limits.maxDepth text = .ok e)
    (h : e.Undefined binding) : outcome limits text binding = .error .notFinite := by
  obtain ⟨x, hx, hnan⟩ := h
  rw [outcome, if_neg (Nat.not_lt.2 hlength), hparse]
  simp only [hx, not_isFinite_of_isNaN hnan, Bool.false_eq_true, if_false]

/-- If an evaluation succeeds and a part of the expression is undefined, then everything around that
part is undefined, and the whole text has no finite value, exactly as long as no power on the way
up is decided by the operand beside it. -/
theorem undefined_of_exposed {value : Float} (he : e.eval binding = .ok value)
    (hpart : part.IsPart e) (hnan : part.Undefined binding) :
    (Exposed binding part e ↔
      ∀ whole, part.IsPart whole → whole.IsPart e → whole.Undefined binding) ∧
    (Exposed binding part e → value.isNaN = true ∧
      ∀ limits text context constants, binding = ((bindings context constants).get? ·) →
        text.length ≤ limits.maxLength → parse limits.maxDepth text = .ok e →
        (evaluate limits text context constants).value = 0 ∧
        (evaluate limits text context constants).failure = some .notFinite) := by
  refine ⟨exposed_iff ⟨value, he⟩ hnan, fun h => ?_⟩
  have hwhole : e.Undefined binding := h.undefined ⟨value, he⟩ hnan hpart .refl
  refine ⟨?_, ?_⟩
  · obtain ⟨x, hx, hxnan⟩ := hwhole
    cases hx.symm.trans he
    exact hxnan
  · rintro limits text context constants rfl hlength hparse
    have houtcome := outcome_of_undefined hlength hparse hwhole
    simp only [evaluate, houtcome]
    exact ⟨rfl, rfl⟩

/-- The root of a negative number under a maximum. -/
theorem undefined_of_exposed_root :
    let context := Context.ofPairs [("a", -4), ("b", 1)]
    let binding := ((bindings context []).get? ·)
    let root : Expression := .call .sqrt [.var "a"]
    let e : Expression := .call .max [root, .var "b"]
    parse Limits.standard.maxDepth "max(sqrt(a),b)" = .ok e ∧ root.IsPart e ∧
      root.Undefined binding ∧ Exposed binding root e ∧
      ∃ value, e.eval binding = .ok value ∧ value.isNaN = true ∧
        (evaluate .standard "max(sqrt(a),b)" context []).failure = some .notFinite := by
  intro context binding root e
  have hget (name : String) : binding name = [("b", 1), ("a", -4)].lookup name :=
    Context.get?_ofPairs _ name
  have hparse : parse Limits.standard.maxDepth "max(sqrt(a),b)" = .ok e := by cbv
  obtain ⟨x, hroot, hnan⟩ : root.Undefined binding := undefined_sqrt (hget "a")
  have hundefined : root.Undefined binding := ⟨x, hroot, hnan⟩
  have hb : (var "b").eval binding = .ok 1 := by rw [eval, hget]; rfl
  have hvalue : e.eval binding = .ok (Function.max.apply [x, 1]) :=
    eval_call_eq_ok_iff.2 ⟨_, .cons hroot (.cons hb .nil), rfl⟩
  have hpart : root.IsPart e := isPart_call_iff.2 (.inr ⟨root, List.mem_cons_self, .refl⟩)
  have hexposed : Exposed binding root e := by
    intro whole _ habove hhides
    simp only [e, root, isPart_call_iff, isPart_var_iff, List.mem_cons, List.not_mem_nil,
      or_false, exists_eq_or_imp, exists_eq_left] at habove
    rcases habove with rfl | (rfl | rfl) | rfl <;> exact hhides
  obtain ⟨hvalueNaN, hevaluate⟩ := (undefined_of_exposed hvalue hpart hundefined).2 hexposed
  have hfailure := (hevaluate .standard "max(sqrt(a),b)" context [] rfl (by decide) hparse).2
  exact ⟨hparse, hpart, hundefined, hexposed, _, hvalue, hvalueNaN, hfailure⟩

/-- The same root as the base of a power: with a zero exponent the value is 1, and no failure shows
that a part is undefined. -/
theorem not_undefined_of_hidden_root :
    let context := Context.ofPairs [("a", -4), ("b", 0)]
    let binding := ((bindings context []).get? ·)
    let root : Expression := .call .sqrt [.var "a"]
    let e : Expression := .call .pow [root, .var "b"]
    parse Limits.standard.maxDepth "pow(sqrt(a),b)" = .ok e ∧ root.IsPart e ∧
      root.Undefined binding ∧ e.eval binding = .ok 1 ∧ ¬ e.Undefined binding ∧
      (evaluate .standard "pow(sqrt(a),b)" context []).value = 1 ∧
      (evaluate .standard "pow(sqrt(a),b)" context []).failure = none := by
  intro context binding root e
  have hget (name : String) : binding name = [("b", 0), ("a", -4)].lookup name :=
    Context.get?_ofPairs _ name
  have hparse : parse Limits.standard.maxDepth "pow(sqrt(a),b)" = .ok e := by cbv
  obtain ⟨x, hroot, hnan⟩ : root.Undefined binding := undefined_sqrt (hget "a")
  have hundefined : root.Undefined binding := ⟨x, hroot, hnan⟩
  have hb : (var "b").eval binding = .ok 0 := by rw [eval, hget]; rfl
  have hhides : e.Hides binding := ⟨x, 0, hroot, hb, .inl hnan, .inl (by decide +kernel)⟩
  have houtcome : outcome .standard "pow(sqrt(a),b)" binding = .ok 1 := by
    rw [outcome, if_neg (by decide), hparse]
    simp only [hhides.eval]
    exact if_pos (by decide +kernel)
  have hevaluate : evaluate .standard "pow(sqrt(a),b)" context [] =
      ⟨1, inputSteps context [] ++ [⟨"Result", 1⟩], none⟩ := by
    simp only [evaluate, binding, houtcome]
  rw [hevaluate]
  exact ⟨hparse, isPart_call_iff.2 (.inr ⟨root, List.mem_cons_self, .refl⟩), hundefined,
    hhides.eval, hhides.not_undefined, rfl, rfl⟩

end Expression

end Appraisal
