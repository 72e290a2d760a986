import Appraisal.Proofs.Formula.Registry
import Mathlib

/-!
# Registrations

A formula is taken in only under an id and version that are new. So a registry holds the first
formula of every id and version, in the order in which they came, and what it holds it keeps: an
exact version names one formula for good, and an id names the last one that was taken in.
-/

namespace Appraisal

namespace Formula

variable {f g h : Formula} {fs : List Formula}

theorem Apart.symm (hfg : f.Apart g) : g.Apart f :=
  fun h => hfg ⟨h.1.symm, h.2.symm⟩

theorem apart_of_not_apart (hfg : ¬ f.Apart g) (hgh : g.Apart h) : f.Apart h := by
  obtain ⟨hid, hversion⟩ := not_not.1 hfg
  rwa [Apart, hid, hversion]

/-- The formulas that stand before all others with the same id and version. -/
def firstOfEach : List Formula → List Formula
  | [] => []
  | f :: fs => f :: (firstOfEach fs).filter fun g => g.Apart f

theorem pairwise_firstOfEach (fs : List Formula) : (firstOfEach fs).Pairwise Apart := by
  induction fs with
  | nil => exact .nil
  | cons f fs ih =>
    refine .cons (fun g hg => ?_) (ih.filter _)
    exact (of_decide_eq_true (List.mem_filter.1 hg).2).symm

/-- Every id and version has a first formula. -/
theorem forall_firstOfEach_iff : (∀ g ∈ firstOfEach fs, g.Apart f) ↔ ∀ g ∈ fs, g.Apart f := by
  induction fs with
  | nil => rfl
  | cons h fs ih =>
    simp only [firstOfEach, List.forall_mem_cons, List.mem_filter, decide_eq_true_eq, and_imp]
    rw [← ih]
    refine and_congr_right fun hhf => forall₂_congr fun g _ => ⟨fun hg => ?_, fun hg _ => hg⟩
    by_cases hgh : g.Apart h
    · exact hg hgh
    · exact apart_of_not_apart hgh hhf

theorem firstOfEach_eq_self (h : fs.Pairwise Apart) : firstOfEach fs = fs := by
  induction h with
  | nil => rfl
  | cons hf _ ih =>
    rw [firstOfEach, ih, List.filter_eq_self.2 fun g hg => decide_eq_true (hf g hg).symm]

/-- One more formula is a first one just if its id and version are new. -/
theorem firstOfEach_append (fs : List Formula) (f : Formula) :
    firstOfEach (fs ++ [f]) =
      if ∀ g ∈ fs, g.Apart f then firstOfEach fs ++ [f] else firstOfEach fs := by
  induction fs with
  | nil => rfl
  | cons g fs ih =>
    simp only [List.cons_append, firstOfEach, ih, List.forall_mem_cons]
    by_cases hfs : ∀ x ∈ fs, x.Apart f
    · rw [if_pos hfs, List.filter_append]
      by_cases hg : g.Apart f
      · rw [if_pos ⟨hg, hfs⟩, List.filter_cons_of_pos (by simpa using hg.symm), List.filter_nil]
      · have hf : ¬ f.Apart g := fun hf => hg hf.symm
        rw [if_neg fun h => hg h.1, List.filter_cons_of_neg (by simpa using hf), List.filter_nil,
          List.append_nil]
    · rw [if_neg hfs, if_neg fun h => hfs h.2]

end Formula

namespace FormulaRegistry

variable {r start : FormulaRegistry} {f : Formula} {id version : String}

/-- A formula is refused just if its id and version are taken. -/
theorem register_eq_error_iff {problem : EngineError} :
    r.register f = .error problem ↔
      (¬ ∀ g ∈ r.formulas, g.Apart f) ∧ problem = .duplicateFormula f.id f.version := by
  have hsome : (r.getVersion? f.id f.version).isSome = true ↔ ¬ ∀ g ∈ r.formulas, g.Apart f := by
    simp [getVersion?, Formula.Apart]
  rw [← hsome, register]
  split_ifs with h <;> simp [h, eq_comm]

/-- The registry after a formula was offered to it. A refused one leaves it as it is. -/
def after (r : FormulaRegistry) (f : Formula) : FormulaRegistry :=
  match r.register f with
  | .ok r' => r'
  | .error _ => r

/-- The registry after formulas were offered to it, one after the other. -/
def afterAll (r : FormulaRegistry) (fs : List Formula) : FormulaRegistry :=
  fs.foldl after r

theorem formulas_after (r : FormulaRegistry) (f : Formula) :
    (r.after f).formulas =
      if ∀ g ∈ r.formulas, g.Apart f then r.formulas ++ [f] else r.formulas := by
  cases h : r.register f with
  | ok r' =>
    obtain ⟨hapart, rfl⟩ := register_eq_ok_iff.1 h
    rw [after, h, if_pos hapart]
  | error problem => rw [after, h, if_neg (register_eq_error_iff.1 h).1]

theorem formulas_afterAll (h : start.formulas.Pairwise Formula.Apart) (fs : List Formula) :
    (start.afterAll fs).formulas = Formula.firstOfEach (start.formulas ++ fs) := by
  induction fs using List.reverseRecOn with
  | nil => rw [List.append_nil, Formula.firstOfEach_eq_self h, afterAll, List.foldl_nil]
  | append_singleton fs f ih =>
    rw [afterAll, List.foldl_concat, ← afterAll, formulas_after, ih, ← List.append_assoc,
      Formula.firstOfEach_append]
    simp only [Formula.forall_firstOfEach_iff]

theorem formulas_prefix_afterAll (r : FormulaRegistry) (fs : List Formula) :
    r.formulas <+: (r.afterAll fs).formulas := by
  induction fs generalizing r with
  | nil => exact List.prefix_refl _
  | cons f fs ih =>
    refine List.IsPrefix.trans ?_ (ih (r.after f))
    rw [formulas_after]
    split_ifs
    · exact List.prefix_append _ _
    · exact List.prefix_refl _

/-- What is found under a version is found there for good. -/
theorem getVersion?_afterAll (h : r.getVersion? id version = some f) (fs : List Formula) :
    (r.afterAll fs).getVersion? id version = some f := by
  obtain ⟨more, hmore⟩ := r.formulas_prefix_afterAll fs
  rw [getVersion?, ← hmore, List.find?_append]
  exact congrArg (Option.or · _) h

/-- The formulas offered to an empty or a standard registry are taken in just if their id and
version are new, and all others are refused without a trace. The registry holds them in the order in
which they were offered, no two under the same id and version. What is found under a version is
found there after every further offer, and the formula of an id is the last one that was taken in
under it, which its own version finds as well. -/
theorem registrations_permanent (h : start = empty ∨ start = standard) (offered : List Formula) :
    let r := start.afterAll offered
    r.formulas.Pairwise Formula.Apart ∧
      r.formulas = Formula.firstOfEach (start.formulas ++ offered) ∧
      (∀ f problem, r.register f = .error problem ↔
        (∃ g ∈ r.formulas, g.id = f.id ∧ g.version = f.version) ∧
          problem = .duplicateFormula f.id f.version) ∧
      (∀ f problem, r.register f = .error problem → r.after f = r) ∧
      (∀ id version f, r.getVersion? id version = some f →
        ∀ more, (r.afterAll more).getVersion? id version = some f) ∧
      ∀ id, r.get? id = (r.formulas.filter (·.id = id)).getLast? ∧
        ∀ f ∈ r.get? id, r.getVersion? f.id f.version = some f := by
  intro r
  have hstart : start.formulas.Pairwise Formula.Apart := by
    obtain rfl | rfl := h
    · exact .nil
    · exact pairwise_apart_standard
  have hformulas := formulas_afterAll hstart offered
  have hapart : r.formulas.Pairwise Formula.Apart :=
    hformulas ▸ Formula.pairwise_firstOfEach _
  refine ⟨hapart, hformulas, fun f problem => ?_, fun f problem hrefused => ?_,
    fun _ _ _ => getVersion?_afterAll, fun id => ⟨List.getLast?_filter.symm, fun f hf => ?_⟩⟩
  · rw [register_eq_error_iff]
    simp [Formula.Apart]
  · rw [after, hrefused]
  · exact getVersion?_of_mem hapart (mem_of_get? hf).1

/-- A second version of a formula, after a formula that claims the version of the first one. -/
theorem registrations_permanent_of_second_version :
    let claim : Formula := { Formula.ttvScore with compute := fun _ => 0 }
    let second : Formula := { Formula.ttvScore with version := "3.0.0", compute := fun _ => 1 }
    let r := standard.afterAll [claim, second]
    (standard = empty ∨ standard = standard) ∧
      r.register claim = .error (.duplicateFormula "ttv_score" "2.0.0") ∧
      r.get? "ttv_score" = some second ∧
      r.getVersion? "ttv_score" "3.0.0" = some second ∧
      ∀ more, (r.afterAll more).getVersion? "ttv_score" "2.0.0" = some Formula.ttvScore := by
  intro claim second r
  have hstart : standard = empty ∨ standard = standard := .inr rfl
  obtain ⟨-, -, hrefused, -, hkept, hlatest⟩ := registrations_permanent hstart [claim, second]
  have hfirst : r.getVersion? "ttv_score" "2.0.0" = some Formula.ttvScore := rfl
  have hget : r.get? "ttv_score" = some second := rfl
  refine ⟨hstart, (hrefused _ _).2 ⟨⟨Formula.ttvScore, ?_, rfl, rfl⟩, rfl⟩, hget, ?_,
    hkept _ _ _ hfirst⟩
  · exact List.mem_of_find?_eq_some hfirst
  · exact (hlatest "ttv_score").2 second hget

end FormulaRegistry

end Appraisal
