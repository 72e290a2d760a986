import Appraisal.Proofs.Engine.Benefits

/-!
# The numbers behind scores

The scores for value and time are cut to the scale from 0 to 100, and the effort is given on it. The
priority is their sum under three weights, and nothing cuts it: each weight may be anything up to
100 percent, whatever the others are.
-/

namespace Appraisal

/-- The weights of the three scores in a priority, in percent. -/
structure Weights where
  value : Float
  ttv : Float
  effort : Float

namespace Weights

/-- The weights are the values of their assumptions. -/
structure Of (r : AssumptionRegistry) (w : Weights) : Prop where
  value : r.value "value_weight" = .ok w.value
  ttv : r.value "ttv_weight" = .ok w.ttv
  effort : r.value "effort_weight" = .ok w.effort

structure Percentages (w : Weights) : Prop where
  value : UpTo 100 w.value
  ttv : UpTo 100 w.ttv
  effort : UpTo 100 w.effort

/-- The priority for three scores. -/
def priority (w : Weights) (value ttv effort : Float) : Float :=
  (value * w.value + ttv * w.ttv + (100 - effort) * w.effort) / 100

/-- The priority for the best scores: the largest value, at once, with the least effort. -/
def best (w : Weights) : Float :=
  w.priority 100 100 20

theorem Of.percentages {r : AssumptionRegistry} {w : Weights} (h : Of r w) (hr : r.Sound) :
    w.Percentages where
  value := hr.upTo_of_value h.value (by decide +kernel) rfl
  ttv := hr.upTo_of_value h.ttv (by decide +kernel) rfl
  effort := hr.upTo_of_value h.effort (by decide +kernel) rfl

end Weights

theorem AssumptionRegistry.Sound.exists_weights {r : AssumptionRegistry} (hr : r.Sound) :
    ∃ w, Weights.Of r w ∧ w.Percentages := by
  obtain ⟨value, hvalue⟩ : ∃ x, r.value "value_weight" = .ok x := hr.exists_value (by decide)
  obtain ⟨ttv, httv⟩ : ∃ x, r.value "ttv_weight" = .ok x := hr.exists_value (by decide)
  obtain ⟨effort, heffort⟩ : ∃ x, r.value "effort_weight" = .ok x := hr.exists_value (by decide)
  have hw : Weights.Of r ⟨value, ttv, effort⟩ := ⟨hvalue, httv, heffort⟩
  exact ⟨_, hw, hw.percentages hr⟩

theorem upTo_hundred : UpTo 100 100 :=
  .of_le rfl rfl (by decide +kernel) (by decide +kernel)

theorem upTo_weighted {score weight : Float} (hscore : UpTo 100 score) (hweight : UpTo 100 weight) :
    UpTo 10000 (score * weight) := by
  refine hscore.mul hweight ?_
  rw [toRat_ofNat 100 (by norm_num), (literal_exact (n := 10000) (by norm_num)).2]
  norm_num

theorem upTo_mean {x y z : Float} (hx : UpTo 10000 x) (hy : UpTo 10000 y) (hz : UpTo 10000 z) :
    UpTo 300 ((x + y + z) / 100) := by
  have hten := (literal_exact (n := 10000) (by norm_num)).2
  have htwo : UpTo 20000 (x + y) := by
    refine hx.add hy ?_
    rw [hten, (literal_exact (n := 20000) (by norm_num)).2]
    norm_num
  have hthree : UpTo 30000 (x + y + z) := by
    refine htwo.add hz ?_
    rw [hten, (literal_exact (n := 20000) (by norm_num)).2,
      (literal_exact (n := 30000) (by norm_num)).2]
    norm_num
  refine hthree.div rfl (by rw [toRat_ofNat 100 (by norm_num)]; norm_num) ?_
  rw [(literal_exact (n := 30000) (by norm_num)).2, (literal_exact (n := 300) (by norm_num)).2,
    toRat_ofNat 100 (by norm_num)]
  norm_num

namespace Weights

variable {w : Weights} {value ttv effort value' ttv' effort' : Float}

theorem Percentages.upTo_priority (hw : w.Percentages) (hvalue : UpTo 100 value)
    (httv : UpTo 100 ttv) (heffort : UpTo 100 effort) : UpTo 300 (w.priority value ttv effort) :=
  upTo_mean (upTo_weighted hvalue hw.value) (upTo_weighted httv hw.ttv)
    (upTo_weighted (heffort.sub_from rfl) hw.effort)

theorem Percentages.upTo_best (hw : w.Percentages) : UpTo 300 w.best :=
  hw.upTo_priority upTo_hundred upTo_hundred
    (.of_le rfl rfl (by decide +kernel) (by decide +kernel))

/-- Better scores have no lower priority, as computed. -/
theorem Percentages.priority_mono (hw : w.Percentages) (hvalue : UpTo value' value)
    (httv : UpTo ttv' ttv) (heffort : UpTo (100 - effort') (100 - effort))
    (h : (w.priority value' ttv' effort').isFinite = true) :
    UpTo (w.priority value' ttv' effort') (w.priority value ttv effort) := by
  have hsum := isFinite_of_div h
  obtain ⟨htwo, heffortTerm⟩ := isFinite_of_add hsum
  obtain ⟨hvalueTerm, httvTerm⟩ := isFinite_of_add htwo
  have hterms := ((hvalue.mul_mono hw.value.self hvalueTerm).add_mono
    (httv.mul_mono hw.ttv.self httvTerm) htwo).add_mono
    (heffort.mul_mono hw.effort.self heffortTerm) hsum
  exact hterms.div_mono rfl (by rw [toRat_ofNat 100 (by norm_num)]; norm_num) h

end Weights

/-- Inputs that are finite and not negative, with an effort from 0 to 100. -/
structure PriorityInputs.Ordinary (i : PriorityInputs) : Prop where
  totalImpact : UpTo i.totalImpact i.totalImpact
  maxImpact : UpTo i.maxImpact i.maxImpact
  timeToValueMonths : UpTo i.timeToValueMonths i.timeToValueMonths
  effortScore : UpTo 100 i.effortScore

namespace PriorityScores

/-- The share of the largest value, cut at a hundred. -/
def percentage (value largest : Float) : Float :=
  if (value / largest * 100).isNaN then value / largest * 100
  else Number.smaller (value / largest * 100) 100

/-- What the months leave of a hundred, or nothing. -/
def remainder (months : Float) : Float :=
  Number.larger (100 - months * 8.33) 0

/-- The scores were calculated from these inputs under these weights. A flawed score counts as 0 in
the priority. -/
structure Of (i : PriorityInputs) (w : Weights) (s : PriorityScores) : Prop where
  value : s.valueScore.Outcome (percentage i.totalImpact i.maxImpact)
  ttv : s.ttvScore.Outcome (remainder i.timeToValueMonths)
  priority :
    s.priorityScore.Outcome (w.priority s.valueScore.value s.ttvScore.value i.effortScore)

theorem upTo_remainder {months : Float} (h : UpTo months months) : UpTo 100 (remainder months) := by
  have hslope : 0 ≤ toRat 8.33 := by
    have hle : (0 : Float) ≤ 8.33 := by decide +kernel
    rwa [le_iff_toRat_le rfl rfl, toRat_zero] at hle
  exact Number.upTo_larger_sub (rounded_mul h.isFinite rfl) (mul_nonneg h.nonneg hslope)

theorem percentage_self {x : Float} (hx : x.isFinite = true) (hpos : 0 < toRat x) :
    percentage x x = 100 := by
  rw [percentage, div_self_eq_one hx hpos]
  decide +kernel

section

variable {i : PriorityInputs} {w : Weights} {s : PriorityScores} (h : Of i w s) (hi : i.Ordinary)

include h hi

theorem Of.upTo_value : UpTo 100 s.valueScore.value :=
  h.value.upTo upTo_hundred.nonneg (Number.upTo_percentage hi.totalImpact hi.maxImpact)

theorem Of.ttv_usable :
    s.ttvScore.flaw = none ∧ s.ttvScore.value = remainder i.timeToValueMonths :=
  h.ttv.usable_of_finite (upTo_remainder hi.timeToValueMonths).isFinite

theorem Of.upTo_ttv : UpTo 100 s.ttvScore.value :=
  (h.ttv_usable hi).2 ▸ upTo_remainder hi.timeToValueMonths

/-- The priority is usable whatever the score for value is. -/
theorem Of.priority_usable (hw : w.Percentages) :
    s.priorityScore.flaw = none ∧
      s.priorityScore.value = w.priority s.valueScore.value s.ttvScore.value i.effortScore :=
  h.priority.usable_of_finite
    (hw.upTo_priority (h.upTo_value hi) (h.upTo_ttv hi) hi.effortScore).isFinite

end

end PriorityScores

namespace Engine

theorem finds_priority {r : AssumptionRegistry} {w : Weights} (hw : Weights.Of r w)
    (inputs : PriorityInputs) (now : Instant) :
    (priority now inputs).Finds .standard r (PriorityScores.Of inputs w) := by
  refine (finds_evaluated (f := .valueScore) rfl (by simp)
    (by simp [Formula.valueScore]) now).bind fun value hvalue => ?_
  refine (finds_evaluated (f := .ttvScore) rfl (by simp)
    (by simp [Formula.ttvScore]) now).bind fun ttv httv => ?_
  refine (finds_value hw.value).bind ?_
  rintro _ rfl
  refine (finds_value hw.ttv).bind ?_
  rintro _ rfl
  refine (finds_value hw.effort).bind ?_
  rintro _ rfl
  refine (finds_evaluated (f := .priorityScore) rfl (by simp)
    (by simp [Formula.priorityScore]) now).bind fun priority hpriority => ?_
  simp only [Formula.evaluate, Formula.valueScore, Formula.read_ofPairs] at hvalue
  simp only [Formula.evaluate, Formula.ttvScore, Formula.read_ofPairs] at httv
  simp only [Formula.evaluate, Formula.priorityScore, Formula.read_ofPairs] at hpriority
  exact Op.finds_pure ⟨hvalue.outcome, httv.outcome, hpriority.outcome⟩

theorem succeeds_priority_usable {inputs : PriorityInputs} (h : inputs.Ordinary) (now : Instant) :
    (priority now inputs).Succeeds fun s =>
      s.ttvScore.flaw = none ∧ s.priorityScore.flaw = none := by
  intro e he
  obtain ⟨w, hw, hpercentages⟩ := he.sound.exists_weights
  obtain ⟨s, e', hrun, he', -⟩ := succeeds_priority now inputs e he
  obtain ⟨-, hfound⟩ := (he.formulas_eq ▸ finds_priority hw inputs now).result
  have hs := hfound s (congrArg Prod.fst hrun)
  exact ⟨s, e', hrun, he', (hs.ttv_usable h).1, (hs.priority_usable h hpercentages).1⟩

end Engine

end Appraisal
