import Appraisal.Proofs.Research.Rules
import Appraisal.Proofs.Research.Validation
import Mathlib

/-!
# Validation accepts what keeps the rules

The paths of the problems of a payload are the paths of the rules it breaks, in the order of the
checks: no failure hides another one, whatever was put in the place of a rejected field. A payload
that breaks no rule is taken over field by field.
-/

namespace Appraisal

theorem unmet_append (ds es : List Demand) : unmet (ds ++ es) = unmet ds ++ unmet es := by
  simp [unmet]

theorem unmet_cons (d : Demand) (ds : List Demand) : unmet (d :: ds) = unmet [d] ++ unmet ds :=
  unmet_append [d] ds

theorem unmet_eq_nil_iff {ds : List Demand} : unmet ds = [] ↔ ∀ d ∈ ds, d.kept = true := by
  simp [unmet, List.filter_eq_nil_iff]

namespace Checked

/-- The paths of the problems. -/
def paths {α : Type} (x : Checked α) : List String :=
  x.problems.map (·.path)

@[simp] theorem paths_pure {α : Type} (a : α) : (Pure.pure a : Checked α).paths = [] := rfl

@[simp] theorem paths_bind {α β : Type} (x : Checked α) (f : α → Checked β) :
    (x >>= f).paths = x.paths ++ (f x.value).paths := by
  simp [paths]

section

variable {p : Prop} [Decidable p] {path : String}

theorem paths_pure_of_kept {α : Type} (a : α) (hp : p) :
    (pure a).paths = unmet [⟨path, p⟩] := by
  simp [unmet, hp, paths, pure]

theorem paths_fail_of_broken {α : Type} (fault : Fault) (a : α) (hp : ¬p) :
    (fail path fault a).paths = unmet [⟨path, p⟩] := by
  simp [unmet, hp, paths, fail]

end

theorem paths_text (path : String) (given : Option String) :
    (text path given).paths = unmet [⟨path, Filled given⟩] := by
  cases given with
  | none => rfl
  | some s =>
    unfold text
    dsimp only
    split_ifs with h
    · exact paths_fail_of_broken _ _ (by simp [Filled, h])
    · exact paths_pure_of_kept _ (by simpa [Filled] using h)

theorem isAmount_iff {x : Float} : IsAmount x ↔ x.isFinite = true ∧ ¬ x < 0 :=
  and_congr_right fun hx => (not_lt_iff_le hx rfl).symm

theorem paths_givenAmount (path : String) (x : Float) :
    (givenAmount path x).paths = unmet [⟨path, IsAmount x⟩] := by
  unfold givenAmount
  split_ifs with hfinite hnegative
  · exact paths_fail_of_broken _ _ (by simp_all [isAmount_iff])
  · exact paths_fail_of_broken _ _ (by simp_all [isAmount_iff])
  · exact paths_pure_of_kept _ (by simp_all [isAmount_iff])

theorem value_givenAmount (path : String) (x : Float) :
    (givenAmount path x).value = if IsAmount x then x else 0 := by
  unfold givenAmount
  simp only [isAmount_iff]
  split_ifs <;> simp_all <;> rfl

theorem paths_amount (path : String) (given : Option Float) :
    (amount path given).paths = unmet [⟨path, HasAmount given⟩] := by
  cases given with
  | none => rfl
  | some x =>
    rw [amount, paths_givenAmount]
    simp [HasAmount]

theorem value_amount (path : String) (given : Option Float) :
    (amount path given).value = estimateOf given := by
  cases given with
  | none => rfl
  | some x =>
    rw [amount, value_givenAmount, estimateOf, Option.filter_some]
    split_ifs <;> simp_all

theorem paths_optionalAmount (path : String) (given : Option Float) :
    (optionalAmount path given).paths = unmet [⟨path, MayHaveAmount given⟩] := by
  cases given with
  | none => rfl
  | some x =>
    rw [optionalAmount, paths_bind, paths_givenAmount, paths_pure, List.append_nil]
    simp [MayHaveAmount]

theorem paths_scale (path : String) (given : Option Float) :
    (scale path given).paths = unmet [⟨path, HasScale given⟩] := by
  cases given with
  | none => rfl
  | some x =>
    have hscale : HasScale (some x) ↔ IsOnScale x := by simp [HasScale]
    unfold scale
    dsimp only
    split_ifs with h
    · exact paths_pure_of_kept _ (hscale.2 ((Number.onScale_iff x).1 h))
    · exact paths_fail_of_broken _ _ (hscale.not.2 ((Number.onScale_iff x).not.1 h))

theorem paths_share (path : String) (given : Option Float) :
    (share path given).paths = unmet [⟨path, MayHaveShare given⟩] := by
  cases given with
  | none => rfl
  | some x =>
    unfold share
    dsimp only
    split_ifs with h
    · exact paths_pure_of_kept _ (by simp_all [MayHaveShare])
    · exact paths_fail_of_broken _ _ (by simp_all [MayHaveShare])

/-- Bounds are usable when they are finite and the lower one is not negative. -/
theorem around_iff {estimate : Float} {r : ImpactRange} :
    Around estimate (some r) ↔ (r.low.isFinite = true ∧ r.high.isFinite = true) ∧
      ¬ r.low < 0 ∧ r.low ≤ estimate ∧ estimate ≤ r.high := by
  simp only [Around, Option.mem_some_iff, forall_eq']
  exact and_congr_right fun h => and_congr_left' (not_lt_iff_le h.1 rfl).symm

theorem paths_range (path : String) (estimate : Float) (given : Option ImpactRange) :
    (range path estimate given).paths = unmet [⟨path, Around estimate given⟩] := by
  cases given with
  | none => rfl
  | some r =>
    unfold range
    dsimp only
    split_ifs with hbounds houtside
    · refine paths_fail_of_broken _ _ fun h => ?_
      obtain ⟨⟨hlow, hhigh⟩, hsign, -⟩ := around_iff.1 h
      simp [hlow, hhigh, hsign] at hbounds
    · refine paths_fail_of_broken _ _ fun h => ?_
      obtain ⟨-, -, hbelow, habove⟩ := around_iff.1 h
      simp [hbelow, habove] at houtside
    · exact paths_pure_of_kept _ (by simp_all [around_iff])

theorem name_of_ofName? {name : String} {s : Severity} (h : Severity.ofName? name = some s) :
    s.name = name := by
  simpa using List.find?_some h

theorem paths_severity (path : String) (given : Option String) :
    (severity path given).paths = unmet [⟨path, MayHaveSeverity given⟩] := by
  cases given with
  | none => rfl
  | some name =>
    unfold severity
    dsimp only
    cases h : Severity.ofName? name with
    | some s =>
      refine paths_pure_of_kept _ ?_
      have : s ∈ Severity.all := List.mem_of_find?_eq_some h
      simpa [MayHaveSeverity, name_of_ofName? h] using ⟨s, this, name_of_ofName? h⟩
    | none =>
      refine paths_fail_of_broken _ _ ?_
      simpa [MayHaveSeverity, Severity.ofName?] using h

end Checked

theorem OverviewInput.paths_check (o : OverviewInput) : o.check.paths = unmet o.demands := by
  simp only [check, Checked.paths_bind, Checked.paths_pure, Checked.paths_optionalAmount,
    Checked.paths_scale, demands, unmet_cons _ [_], unmet_cons _ (_ :: _), List.append_nil]

theorem FrictionInput.paths_check (index : Nat) (f : FrictionInput) :
    (f.check index).paths = unmet (f.demands index) := by
  simp only [check, Checked.paths_bind, Checked.paths_pure, Checked.paths_severity,
    Checked.paths_text, Checked.paths_amount, demands, unmet_cons _ (_ :: _), List.append_nil]

namespace UseCaseInput

/-- The ids that were seen and the ids that were given differ only in ones that are not filled. -/
def SameIds (seen : List String) (earlier : List (Option String)) : Prop :=
  ∀ text, Text.isBlankText text = false → (text ∈ seen ↔ some text ∈ earlier)

theorem paths_checkId {seen : List String} {earlier : List (Option String)}
    (h : SameIds seen earlier) (path : String) (given : Option String) :
    (checkId path seen given).paths = unmet (idDemands path earlier given) := by
  rw [checkId, Checked.paths_bind, Checked.paths_text, idDemands, unmet_cons _ [_]]
  congr 1
  cases given with
  | none =>
    rw [if_neg (by simp [Checked.text, Checked.fail])]
    exact Checked.paths_pure_of_kept _ (by simp [Filled])
  | some s =>
    by_cases hblank : Text.isBlankText s = true
    · rw [if_neg (by simp [Checked.text, Checked.fail, hblank])]
      exact Checked.paths_pure_of_kept _ (by simp [Filled, hblank])
    · have hs : Text.isBlankText s = false := by simpa using hblank
      have hvalue : (Checked.text path (some s)).value = s := by
        simp [Checked.text, hs, Checked.pure]
      have hne : s ≠ "" := by
        rintro rfl
        exact absurd hs (by decide)
      rw [hvalue]
      split_ifs with hseen
      · exact Checked.paths_fail_of_broken _ _ (by simp [Filled, hs, (h s hs).1 hseen.2])
      · refine Checked.paths_pure_of_kept _ fun hrepeated => hseen ⟨hne, ?_⟩
        exact (h s hs).2 hrepeated.2

theorem paths_checkBenefits (path : String → String) (u : UseCaseInput) :
    (checkBenefits path u).paths = unmet (benefitDemands path u) := by
  simp only [checkBenefits, Checked.paths_bind, Checked.paths_pure, Checked.paths_amount,
    Checked.value_amount, Checked.paths_range, benefitDemands, unmet_cons _ (_ :: _),
    List.append_nil]

theorem paths_checkEffort (path : String → String) (u : UseCaseInput) :
    (checkEffort path u).paths = unmet (effortDemands path u) := by
  simp only [checkEffort, Checked.paths_bind, Checked.paths_pure, Checked.paths_scale,
    Checked.paths_amount, effortDemands, unmet_cons _ (_ :: _), List.append_nil]

theorem paths_checkTokens (path : String → String) (u : UseCaseInput) :
    (checkTokens path u).paths = unmet (tokenDemands path u) := by
  simp only [checkTokens, Checked.paths_bind, Checked.paths_pure, Checked.paths_amount,
    tokenDemands, unmet_cons _ (_ :: _), List.append_nil]

theorem paths_check {seen : List String} {earlier : List (Option String)}
    (h : SameIds seen earlier) (index : Nat) (u : UseCaseInput) :
    (u.check index seen).paths = unmet (u.demands index earlier) := by
  simp only [check, demands, unmet_append, Checked.paths_bind, Checked.paths_pure,
    paths_checkId h, paths_checkBenefits, paths_checkEffort, paths_checkTokens, hoursDemands,
    Checked.paths_text, Checked.paths_optionalAmount, Checked.paths_share,
    unmet_cons _ (_ :: _), List.append_nil, List.append_assoc]

theorem sameIds_check {seen : List String} {earlier : List (Option String)}
    (h : SameIds seen earlier) (index : Nat) (u : UseCaseInput) :
    SameIds ((u.check index seen).value.id :: seen) (u.id :: earlier) := by
  intro text htext
  have hid : (u.check index seen).value.id =
      (Checked.text (memberPath "useCases" index "id") u.id).value := value_checkId ..
  rw [List.mem_cons, List.mem_cons, h text htext, hid]
  refine or_congr_left ?_
  cases hgiven : u.id with
  | none =>
    have hne : text ≠ "" := by
      rintro rfl
      exact absurd htext (by decide)
    simp [Checked.text, Checked.fail, hne]
  | some s =>
    unfold Checked.text
    dsimp only
    split_ifs with hblank
    · have hne : text ≠ s := by
        rintro rfl
        exact absurd htext (by simp [hblank])
      have hne' : text ≠ "" := by
        rintro rfl
        exact absurd htext (by decide)
      simp [Checked.fail, hne, hne']
    · simp [Checked.pure]

end UseCaseInput

namespace ResearchInput

theorem paths_checkOverview (overview : Option OverviewInput) :
    (checkOverview overview).paths = unmet (overviewDemands overview) := by
  cases overview with
  | none => rfl
  | some o => exact o.paths_check

theorem paths_checkFrictionPoints (index : Nat) (fs : List FrictionInput) :
    (checkFrictionPoints index fs).paths = unmet (frictionDemands index fs) := by
  induction fs generalizing index with
  | nil => rfl
  | cons f fs ih =>
    simp only [checkFrictionPoints, frictionDemands, Checked.paths_bind, Checked.paths_pure,
      f.paths_check, ih, unmet_append, List.append_nil]

theorem paths_checkUseCases {seen : List String} {earlier : List (Option String)}
    (h : UseCaseInput.SameIds seen earlier) (index : Nat) (us : List UseCaseInput) :
    (checkUseCases index seen us).paths = unmet (useCaseDemands index earlier us) := by
  induction us generalizing index seen earlier with
  | nil => rfl
  | cons u us ih =>
    simp only [checkUseCases, useCaseDemands, Checked.paths_bind, Checked.paths_pure,
      UseCaseInput.paths_check h, ih (UseCaseInput.sameIds_check h index u), unmet_append,
      List.append_nil]

theorem paths_givenUseCases (given : Option (List UseCaseInput)) :
    (givenUseCases given).paths = unmet [⟨"useCases", given.any (!·.isEmpty)⟩] ∧
      (givenUseCases given).value = given.getD [] := by
  obtain _ | (_ | ⟨u, us⟩) := given <;> exact ⟨rfl, rfl⟩

/-- The problems of a payload are at the fields that break their rules. -/
theorem paths_check (input : ResearchInput) : input.check.paths = unmet input.demands := by
  obtain ⟨hpaths, hvalue⟩ := paths_givenUseCases input.useCases
  have hnone : UseCaseInput.SameIds [] [] := fun _ _ => by simp
  simp only [check, demands, Checked.paths_bind, Checked.paths_pure, Checked.paths_text,
    paths_checkOverview, paths_checkFrictionPoints, hpaths, hvalue, paths_checkUseCases hnone,
    unmet_cons _ (_ ++ _), unmet_cons _ (useCaseDemands _ _ _), unmet_append, List.append_nil]

end ResearchInput

theorem OverviewInput.valid_iff (o : OverviewInput) :
    (∀ d ∈ o.demands, d.kept = true) ↔ o.Valid := by
  simp only [demands, List.forall_mem_cons, List.not_mem_nil, false_imp_iff, implies_true,
    and_true, decide_eq_true_eq]
  exact ⟨fun ⟨h₁, h₂, h₃⟩ => ⟨h₁, h₂, h₃⟩, fun ⟨h₁, h₂, h₃⟩ => ⟨h₁, h₂, h₃⟩⟩

theorem FrictionInput.valid_iff (index : Nat) (f : FrictionInput) :
    (∀ d ∈ f.demands index, d.kept = true) ↔ f.Valid := by
  simp only [demands, List.forall_mem_cons, List.not_mem_nil, false_imp_iff, implies_true,
    and_true, decide_eq_true_eq]
  exact ⟨fun ⟨h₁, h₂, h₃, h₄⟩ => ⟨h₂, h₃, h₄, h₁⟩, fun ⟨h₁, h₂, h₃, h₄⟩ => ⟨h₄, h₁, h₂, h₃⟩⟩

/-- An estimate that keeps its rule is the one that the bounds are compared with. -/
theorem estimateOf_eq {given : Option Float} {x : Float} (h : HasAmount given) (hx : x ∈ given) :
    estimateOf given = x := by
  obtain ⟨y, hy, hamount⟩ := h
  obtain rfl : y = x := Option.mem_unique hy hx
  rw [Option.mem_def] at hy
  simp [estimateOf, hy, Option.filter_some, hamount]

theorem around_estimateOf_iff {given : Option Float} {range : Option ImpactRange}
    (h : HasAmount given) :
    Around (estimateOf given) range ↔ ∀ estimate ∈ given, Around estimate range := by
  constructor
  · intro haround estimate hestimate
    rwa [← estimateOf_eq h hestimate]
  · intro haround
    obtain ⟨x, hx, -⟩ := id h
    rw [estimateOf_eq h hx]
    exact haround x hx

theorem UseCaseInput.valid_iff (index : Nat) (earlier : List (Option String)) (u : UseCaseInput) :
    (∀ d ∈ u.demands index earlier, d.kept = true) ↔ u.Valid ∧ u.id ∉ earlier := by
  simp only [demands, idDemands, benefitDemands, hoursDemands, effortDemands, tokenDemands,
    List.forall_mem_append, List.forall_mem_cons, List.not_mem_nil, false_imp_iff, implies_true,
    and_true, decide_eq_true_eq]
  constructor
  · rintro ⟨⟨hid, hfresh⟩, ⟨hrevenue, hcost, hcashFlow, hrisk, hr₁, hr₂, hr₃, hr₄⟩,
      ⟨hname, hhours, hrate, hshare⟩, ⟨hdata, hintegration, hchange, htime⟩, hin, hout, hruns⟩
    exact ⟨{ id := hid, name := hname, revenueImpact := hrevenue, costImpact := hcost
             cashFlowImpact := hcashFlow, riskReduction := hrisk
             revenueRange := (around_estimateOf_iff hrevenue).1 hr₁
             costRange := (around_estimateOf_iff hcost).1 hr₂
             cashFlowRange := (around_estimateOf_iff hcashFlow).1 hr₃
             riskRange := (around_estimateOf_iff hrisk).1 hr₄
             hoursSaved := hhours, hourlyRate := hrate, adoptionRate := hshare
             dataReadiness := hdata, integrationComplexity := hintegration
             changeManagement := hchange, timeToValueMonths := htime
             inputTokensPerRun := hin, outputTokensPerRun := hout, runsPerMonth := hruns },
      fun hmem => hfresh ⟨hid, hmem⟩⟩
  · rintro ⟨h, hfresh⟩
    exact ⟨⟨h.id, fun hrepeated => hfresh hrepeated.2⟩,
      ⟨h.revenueImpact, h.costImpact, h.cashFlowImpact, h.riskReduction,
        (around_estimateOf_iff h.revenueImpact).2 h.revenueRange,
        (around_estimateOf_iff h.costImpact).2 h.costRange,
        (around_estimateOf_iff h.cashFlowImpact).2 h.cashFlowRange,
        (around_estimateOf_iff h.riskReduction).2 h.riskRange⟩,
      ⟨h.name, h.hoursSaved, h.hourlyRate, h.adoptionRate⟩,
      ⟨h.dataReadiness, h.integrationComplexity, h.changeManagement, h.timeToValueMonths⟩,
      h.inputTokensPerRun, h.outputTokensPerRun, h.runsPerMonth⟩

namespace ResearchInput

theorem frictionPoints_valid_iff (index : Nat) (fs : List FrictionInput) :
    (∀ d ∈ frictionDemands index fs, d.kept = true) ↔ ∀ f ∈ fs, f.Valid := by
  induction fs generalizing index with
  | nil => simp [frictionDemands]
  | cons f fs ih =>
    rw [frictionDemands, List.forall_mem_append, f.valid_iff, ih, List.forall_mem_cons]

/-- The later use cases are checked against the ids of the earlier ones. -/
theorem useCases_valid_iff (index : Nat) (earlier : List (Option String))
    (us : List UseCaseInput) :
    (∀ d ∈ useCaseDemands index earlier us, d.kept = true) ↔
      (∀ u ∈ us, u.Valid) ∧ (us.map (·.id)).Nodup ∧ ∀ u ∈ us, u.id ∉ earlier := by
  induction us generalizing index earlier with
  | nil => simp [useCaseDemands]
  | cons u us ih =>
    rw [useCaseDemands, List.forall_mem_append, u.valid_iff, ih, List.forall_mem_cons,
      List.map_cons, List.nodup_cons, List.forall_mem_cons]
    simp only [List.mem_cons, not_or, List.mem_map, not_exists, not_and, forall_and]
    constructor
    · rintro ⟨⟨hu, hfresh⟩, hus, hnodup, hother, hearlier⟩
      exact ⟨⟨hu, hus⟩, ⟨hother, hnodup⟩, hfresh, hearlier⟩
    · rintro ⟨⟨hu, hus⟩, ⟨hother, hnodup⟩, hfresh, hearlier⟩
      exact ⟨⟨hu, hfresh⟩, hus, hnodup, hother, hearlier⟩

theorem overview_valid_iff (overview : Option OverviewInput) :
    (∀ d ∈ overviewDemands overview, d.kept = true) ↔ ∃ o ∈ overview, o.Valid := by
  cases overview with
  | none => simp [overviewDemands]
  | some o =>
    rw [overviewDemands, List.forall_mem_cons]
    simpa using o.valid_iff

theorem given_valid_iff (given : Option (List UseCaseInput)) :
    (given.any (!·.isEmpty) = true ∧ ∀ d ∈ useCaseDemands 0 [] (given.getD []), d.kept = true) ↔
      ∃ us ∈ given, us ≠ [] ∧ (∀ u ∈ us, u.Valid) ∧ (us.map (·.id)).Nodup := by
  cases given with
  | none => simp
  | some us =>
    rw [Option.getD_some, useCases_valid_iff]
    simp

theorem valid_iff (input : ResearchInput) : unmet input.demands = [] ↔ input.Valid := by
  rw [unmet_eq_nil_iff, demands, List.forall_mem_cons, List.forall_mem_append,
    List.forall_mem_append, List.forall_mem_cons, overview_valid_iff, frictionPoints_valid_iff,
    given_valid_iff, decide_eq_true_eq]
  exact ⟨fun ⟨h₁, h₂, h₃, h₄⟩ => ⟨h₁, h₂, h₃, h₄⟩, fun ⟨h₁, h₂, h₃, h₄⟩ => ⟨h₁, h₂, h₃, h₄⟩⟩

end ResearchInput

namespace Checked

theorem eq_some_of_amount {path : String} {given : Option Float}
    (h : (amount path given).problems = []) : given = some (amount path given).value := by
  cases given with
  | none => cases h
  | some x =>
    unfold amount givenAmount at h ⊢
    dsimp only at h ⊢
    split_ifs at h ⊢
    · cases h
    · cases h
    · rfl

theorem eq_of_optionalAmount {path : String} {given : Option Float}
    (h : (optionalAmount path given).problems = []) :
    (optionalAmount path given).value = given := by
  cases given with
  | none => rfl
  | some x =>
    rw [optionalAmount, problems_bind, problems_pure, List.append_nil] at h
    have heq : some x = some (amount path (some x)).value := eq_some_of_amount h
    exact heq.symm

theorem eq_some_of_scale {path : String} {given : Option Float}
    (h : (scale path given).problems = []) : given = some (.ofNat (scale path given).value) := by
  cases given with
  | none => cases h
  | some x =>
    unfold scale at h ⊢
    dsimp only at h ⊢
    split_ifs at h ⊢ with honScale
    · obtain ⟨n, -, hn, rfl⟩ := (Number.onScale_iff x).1 honScale
      rw [pure, Number.toNatural_ofNat (by omega)]
    · cases h

theorem eq_of_share {path : String} {given : Option Float}
    (h : (share path given).problems = []) : (share path given).value = given := by
  cases given with
  | none => rfl
  | some x =>
    unfold share at h ⊢
    dsimp only at h ⊢
    split_ifs at h ⊢
    · rfl
    · cases h

theorem eq_of_severity {path : String} {given : Option String}
    (h : (severity path given).problems = []) :
    given = (severity path given).value.map Severity.name := by
  cases given with
  | none => rfl
  | some name =>
    unfold severity at h ⊢
    dsimp only at h ⊢
    cases hs : Severity.ofName? name with
    | some s => exact congrArg some (name_of_ofName? hs).symm
    | none =>
      rw [hs] at h
      cases h

end Checked

theorem OverviewInput.copiedTo_check {o : OverviewInput} (h : o.check.problems = []) :
    o.CopiedTo o.check.value := by
  simp only [check, Checked.problems_bind, Checked.problems_pure, List.append_eq_nil_iff,
    and_true] at h
  obtain ⟨hrevenue, hemployees, hmaturity⟩ := h
  exact ⟨rfl, rfl, Checked.eq_of_optionalAmount hrevenue, Checked.eq_of_optionalAmount hemployees,
    Checked.eq_some_of_scale hmaturity⟩

theorem FrictionInput.copiedTo_check {index : Nat} {f : FrictionInput}
    (h : (f.check index).problems = []) : f.CopiedTo (f.check index).value := by
  simp only [check, Checked.problems_bind, Checked.problems_pure, List.append_eq_nil_iff,
    and_true] at h
  obtain ⟨hseverity, hdomain, hhours, hrate⟩ := h
  exact ⟨rfl, Checked.eq_some_of_text hdomain, rfl, Checked.eq_some_of_amount hhours,
    Checked.eq_some_of_amount hrate, Checked.eq_of_severity hseverity, rfl⟩

theorem UseCaseInput.copiedTo_check {index : Nat} {seen : List String} {u : UseCaseInput}
    (h : (u.check index seen).problems = []) : u.CopiedTo (u.check index seen).value := by
  simp only [check, checkBenefits, checkEffort, checkTokens, Checked.problems_bind,
    Checked.problems_pure, List.append_eq_nil_iff, and_true] at h
  obtain ⟨hid, ⟨hrevenue, hcost, hcashFlow, hrisk, -⟩, hname, hhours, hrate, hshare,
    ⟨hdata, hintegration, hchange, htime⟩, hin, hout, hruns⟩ := h
  exact
    { id := eq_some_of_checkId hid
      name := Checked.eq_some_of_text hname
      function := rfl
      subFunction := rfl
      description := rfl
      targetFriction := rfl
      checkpoint := rfl
      primitives := rfl
      hoursSaved := Checked.eq_of_optionalAmount hhours
      hourlyRate := Checked.eq_of_optionalAmount hrate
      adoptionRate := Checked.eq_of_share hshare
      revenueImpact := Checked.eq_some_of_amount hrevenue
      costImpact := Checked.eq_some_of_amount hcost
      cashFlowImpact := Checked.eq_some_of_amount hcashFlow
      riskReduction := Checked.eq_some_of_amount hrisk
      dataReadiness := Checked.eq_some_of_scale hdata
      integrationComplexity := Checked.eq_some_of_scale hintegration
      changeManagement := Checked.eq_some_of_scale hchange
      timeToValueMonths := Checked.eq_some_of_amount htime
      inputTokensPerRun := Checked.eq_some_of_amount hin
      outputTokensPerRun := Checked.eq_some_of_amount hout
      runsPerMonth := Checked.eq_some_of_amount hruns
      impactRanges := rfl }

namespace ResearchInput

theorem copiedTo_checkFrictionPoints {index : Nat} {fs : List FrictionInput}
    (h : (checkFrictionPoints index fs).problems = []) :
    List.Forall₂ FrictionInput.CopiedTo fs (checkFrictionPoints index fs).value := by
  induction fs generalizing index with
  | nil => exact .nil
  | cons f fs ih =>
    simp only [checkFrictionPoints, Checked.problems_bind, List.append_eq_nil_iff] at h
    exact .cons (FrictionInput.copiedTo_check h.1) (ih h.2.1)

theorem copiedTo_checkUseCases {index : Nat} {seen : List String} {us : List UseCaseInput}
    (h : (checkUseCases index seen us).problems = []) :
    List.Forall₂ UseCaseInput.CopiedTo us (checkUseCases index seen us).value := by
  induction us generalizing index seen with
  | nil => exact .nil
  | cons u us ih =>
    simp only [checkUseCases, Checked.problems_bind, List.append_eq_nil_iff] at h
    exact .cons (UseCaseInput.copiedTo_check h.1) (ih h.2.1)

theorem copiedTo_check {input : ResearchInput} (h : input.check.problems = []) :
    input.CopiedTo input.check.value := by
  simp only [check, Checked.problems_bind, Checked.problems_pure, List.append_eq_nil_iff] at h
  obtain ⟨hname, hoverview, hfriction, hgiven, huseCases, -⟩ := h
  refine ⟨Checked.eq_some_of_text hname, ?_, copiedTo_checkFrictionPoints hfriction,
    ⟨_, eq_some_givenUseCases hgiven, copiedTo_checkUseCases huseCases⟩⟩
  cases ho : input.overview with
  | none =>
    rw [ho] at hoverview
    cases hoverview
  | some o =>
    rw [ho] at hoverview
    refine ⟨o, rfl, ?_⟩
    change o.CopiedTo (checkOverview input.overview).value
    rw [ho]
    exact OverviewInput.copiedTo_check hoverview

/-- Validation gives a research exactly for the payloads that keep all rules, and the research has
the fields of the payload. Otherwise the problems are at the fields that break their rules, each
of them and no other, in the order of the checks. -/
theorem validate_sound_and_complete (input : ResearchInput) :
    ((∃ research, input.validate = .ok research) ↔ input.Valid) ∧
      (∀ research, input.validate = .ok research → input.CopiedTo research) ∧
      (∀ problems, input.validate = .error problems →
        problems.map (·.path) = unmet input.demands ∧ problems ≠ []) := by
  have hnil : input.check.problems = [] ↔ input.Valid := by
    rw [← valid_iff, ← paths_check, Checked.paths, List.map_eq_nil_iff]
  refine ⟨?_, fun research h => ?_, fun problems h => ?_⟩
  · rw [← hnil]
    constructor
    · rintro ⟨research, h⟩
      exact (validate_eq_ok_iff.1 h).1
    · exact fun h => ⟨_, validate_eq_ok_iff.2 ⟨h, rfl⟩⟩
  · obtain ⟨hproblems, rfl⟩ := validate_eq_ok_iff.1 h
    exact copiedTo_check hproblems
  · rw [validate] at h
    split_ifs at h with hempty
    cases h
    exact ⟨paths_check input, fun h => hempty (by simp [h])⟩

/-- A use case with the fields that are required, with a scale at its upper end. -/
def bareUseCase (id : String) (revenue : Option Float) : UseCaseInput :=
  { id := some id, name := some "Invoices"
    function := none, subFunction := none, description := none, targetFriction := none
    checkpoint := none, primitives := []
    hoursSaved := none, hourlyRate := none, adoptionRate := none
    revenueImpact := revenue, costImpact := some 0, cashFlowImpact := some 0
    riskReduction := some 0
    dataReadiness := some 5, integrationComplexity := some 2, changeManagement := some 1
    timeToValueMonths := some 6
    inputTokensPerRun := some 1000, outputTokensPerRun := some 500, runsPerMonth := some 100
    impactRanges := { ImpactRanges.none with revenue := some ⟨10, 30⟩ } }

/-- One payload that is accepted, and one with a missing estimate, bounds that the 0 in its place
is outside of, and a repeated id. -/
theorem validate_sound_and_complete_of_bareUseCase :
    let payload := fun useCases : List UseCaseInput =>
      (⟨some "Company", some ⟨none, none, none, none, some 3⟩, [], some useCases⟩ : ResearchInput)
    (payload [bareUseCase "a" (some 20)]).Valid ∧
      (∃ research, (payload [bareUseCase "a" (some 20)]).validate = .ok research ∧
        (payload [bareUseCase "a" (some 20)]).CopiedTo research) ∧
      ∃ problems,
        (payload [bareUseCase "a" none, bareUseCase "a" (some 20)]).validate = .error problems ∧
        problems.map (·.path) =
          ["useCases[0].estimatedRevenueImpact", "useCases[0].impactRanges.revenue",
            "useCases[1].id"] := by
  intro payload
  have hproblems : (payload [bareUseCase "a" (some 20)]).check.problems.isEmpty = true := by
    decide +kernel
  have hvalidate : (payload [bareUseCase "a" (some 20)]).validate =
      .ok (payload [bareUseCase "a" (some 20)]).check.value :=
    validate_eq_ok_iff.2 ⟨List.isEmpty_iff.1 hproblems, rfl⟩
  obtain ⟨hvalid, hcopied, -⟩ := validate_sound_and_complete (payload [bareUseCase "a" (some 20)])
  obtain ⟨-, -, hbroken⟩ := validate_sound_and_complete
    (payload [bareUseCase "a" none, bareUseCase "a" (some 20)])
  have hrejected : (payload [bareUseCase "a" none, bareUseCase "a" (some 20)]).validate =
      .error (payload [bareUseCase "a" none, bareUseCase "a" (some 20)]).check.problems :=
    if_neg (by decide +kernel)
  refine ⟨hvalid.1 ⟨_, hvalidate⟩, ⟨_, hvalidate, hcopied _ hvalidate⟩, _, hrejected, ?_⟩
  rw [(hbroken _ hrejected).1]
  decide +kernel

end ResearchInput

end Appraisal
