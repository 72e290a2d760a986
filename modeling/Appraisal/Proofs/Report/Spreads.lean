import Appraisal.Proofs.Engine.Observation
import Appraisal.Proofs.Report.Flaws
import Appraisal.Report.Uncertainty

/-!
# The ranges of an analysis

Bounds that were given with an estimate have passed the same checks as a simulation makes. The ones
that stand in for them are computed, from 70 to 110 percent of the estimate, and they are in order;
but the upper one of a very large estimate overflows, and nobody has looked at it before.
-/

namespace Appraisal

namespace UncertainVariable

variable {v : UncertainVariable}

theorem validate_eq_ok (hlow : v.low.isFinite = true) (hmode : v.mode.isFinite = true)
    (hhigh : v.high.isFinite = true) (hle : v.low ≤ v.mode) (hle' : v.mode ≤ v.high) :
    v.validate = .ok () := by
  have hlow' : ¬ v.mode < v.low := (not_lt_iff_le hmode hlow).2 hle
  have hhigh' : ¬ v.high < v.mode := (not_lt_iff_le hhigh hmode).2 hle'
  simp [validate, hlow, hmode, hhigh, hlow', hhigh']

theorem validate_of_not_finite (h : v.high.isFinite = false) :
    v.validate = .error (.invalidVariable v.id "bounds must be finite") := by
  simp [validate, h]

end UncertainVariable

/-- The four estimates of a use case, each with the bounds that were given for it. -/
def UseCase.estimates (u : UseCase) : List (Float × Option ImpactRange) :=
  [(u.benefits.revenue, u.impactRanges.revenue), (u.benefits.cost, u.impactRanges.cost),
   (u.benefits.cashFlow, u.impactRanges.cashFlow), (u.benefits.risk, u.impactRanges.risk)]

/-- An estimate without given bounds is not so large that 110 percent of it overflow. -/
def HasSpread (estimate : Float × Option ImpactRange) : Prop :=
  estimate.2.isNone = true → (estimate.1 * 1.1).isFinite = true

instance : DecidablePred HasSpread := fun estimate =>
  inferInstanceAs (Decidable (estimate.2.isNone = true → (estimate.1 * 1.1).isFinite = true))

theorem ResearchInput.estimates_of_validate {input : ResearchInput} {research : Research}
    (h : input.validate = .ok research) :
    ∀ u ∈ research.useCases, ∀ d ∈ u.estimates, IsAmount d.1 ∧ Around d.1 d.2 := by
  refine forall_of_validate (fun u r hcopied hu => ?_) h
  have hr := hcopied.valid hu
  simp only [UseCase.estimates, List.forall_mem_cons, hcopied.impactRanges]
  refine ⟨⟨hr.revenue, hu.revenueRange _ ?_⟩, ⟨hr.cost, hu.costRange _ ?_⟩,
    ⟨hr.cashFlow, hu.cashFlowRange _ ?_⟩, ⟨hr.risk, hu.riskRange _ ?_⟩, List.forall_mem_nil _⟩
  · exact hcopied.revenueImpact
  · exact hcopied.costImpact
  · exact hcopied.cashFlowImpact
  · exact hcopied.riskReduction

/-- 70 percent of an amount. -/
theorem IsAmount.lower_le {x : Float} (hx : IsAmount x) :
    (x * 0.7).isFinite = true ∧ x * 0.7 ≤ x := by
  have hzero : (0 : Float) ≤ 0.7 := by decide +kernel
  have hone : (0.7 : Float) ≤ 1 := by decide +kernel
  rw [le_iff_toRat_le rfl rfl] at hzero hone
  have hlower := hx.upTo.mul_share ⟨rfl, toRat_zero ▸ hzero, hone⟩
  exact ⟨hlower.isFinite, (le_iff_toRat_le hlower.isFinite hx.1).2 hlower.le⟩

/-- 110 percent of an amount, rounded, are no less than the amount itself. -/
theorem IsAmount.le_upper {x : Float} (hx : IsAmount x) (h : (x * 1.1).isFinite = true) :
    x ≤ x * 1.1 := by
  have hone : (1 : Float) ≤ 1.1 := by decide +kernel
  rw [le_iff_toRat_le rfl rfl, toRat_one] at hone
  rw [le_iff_toRat_le hx.1 h]
  have hle : toRat x ≤ toRat x * toRat 1.1 := le_mul_of_one_le_right hx.upTo.nonneg hone
  exact ((rounded_mul hx.1 rfl).neighbour h).le_of_le _ (onGrid_toRat x) hle

namespace Uncertainty

variable {x : Float} {range : Option ImpactRange}

theorem validate_driver (hx : IsAmount x) (hrange : Around x range) (h : HasSpread (x, range))
    (id label : String) : (driver id label x range).validate = .ok () := by
  cases range with
  | none =>
    obtain ⟨hlower, hle⟩ := hx.lower_le
    have hupper := h rfl
    exact UncertainVariable.validate_eq_ok hlower hx.1 hupper hle (hx.le_upper hupper)
  | some r =>
    obtain ⟨⟨hlow, hhigh⟩, -, hle, hle'⟩ := hrange r rfl
    exact UncertainVariable.validate_eq_ok hlow hx.1 hhigh hle hle'

theorem not_isFinite_driver (h : ¬ HasSpread (x, range)) (id label : String) :
    (driver id label x range).high.isFinite = false := by
  cases range with
  | none =>
    have hupper : ¬ (x * 1.1).isFinite = true := fun hfinite => h fun _ => hfinite
    exact Bool.eq_false_iff.2 hupper
  | some r => exact absurd (fun hnone => by cases hnone) h

/-- The range around the factor of a level. -/
theorem maturity_range (level : Nat) :
    let factor := maturityFactor level
    let low := Number.smaller 0.5 factor
    let high := Number.larger 0.95 factor
    (low.isFinite = true ∧ factor.isFinite = true ∧ high.isFinite = true) ∧
      low ≤ factor ∧ factor ≤ high := by
  unfold maturityFactor
  split <;> decide +kernel

theorem mem_uncertainInputs {u : UseCase} {maturity : Float} {v : UncertainVariable}
    (h : v ∈ uncertainInputs u maturity) :
    (∃ d ∈ u.estimates, ∃ id label, v = driver id label d.1 d.2) ∨
      v.low = Number.smaller 0.5 maturity ∧ v.mode = maturity ∧
        v.high = Number.larger 0.95 maturity := by
  simp only [uncertainInputs, List.mem_cons, List.not_mem_nil, or_false] at h
  obtain h | h | h | h | rfl := h
  · exact .inl ⟨(u.benefits.revenue, u.impactRanges.revenue), by simp [UseCase.estimates], _, _, h⟩
  · exact .inl ⟨(u.benefits.cost, u.impactRanges.cost), by simp [UseCase.estimates], _, _, h⟩
  · exact .inl
      ⟨(u.benefits.cashFlow, u.impactRanges.cashFlow), by simp [UseCase.estimates], _, _, h⟩
  · exact .inl ⟨(u.benefits.risk, u.impactRanges.risk), by simp [UseCase.estimates], _, _, h⟩
  · exact .inr ⟨rfl, rfl, rfl⟩

theorem exists_driver_mem {u : UseCase} {d : Float × Option ImpactRange} (h : d ∈ u.estimates)
    (maturity : Float) : ∃ id label, driver id label d.1 d.2 ∈ uncertainInputs u maturity := by
  simp only [UseCase.estimates, List.mem_cons, List.not_mem_nil, or_false] at h
  obtain rfl | rfl | rfl | rfl := h
  · exact ⟨"revenueBase", "Revenue impact", by simp [uncertainInputs]⟩
  · exact ⟨"costBase", "Cost impact", by simp [uncertainInputs]⟩
  · exact ⟨"cashFlowBase", "Cash flow impact", by simp [uncertainInputs]⟩
  · exact ⟨"riskBase", "Risk reduction", by simp [uncertainInputs]⟩

section

variable {u : UseCase} {level : Nat}

/-- The variables of a use case are valid as far as their upper bounds are finite. -/
theorem validate_of_mem (hu : ∀ d ∈ u.estimates, IsAmount d.1 ∧ Around d.1 d.2)
    {v : UncertainVariable} (hv : v ∈ uncertainInputs u (maturityFactor level)) :
    v.validate = .ok () ∨ v.high.isFinite = false := by
  obtain ⟨d, hd, id, label, rfl⟩ | ⟨hlow, hmode, hhigh⟩ := mem_uncertainInputs hv
  · obtain ⟨hamount, haround⟩ := hu d hd
    by_cases hspread : HasSpread d
    · exact .inl (validate_driver hamount haround hspread id label)
    · exact .inr (not_isFinite_driver hspread id label)
  · obtain ⟨⟨hlow', hmode', hhigh'⟩, hle, hle'⟩ := maturity_range level
    rw [← hlow, ← hmode] at hle
    rw [← hhigh, ← hmode] at hle'
    exact .inl (UncertainVariable.validate_eq_ok (hlow ▸ hlow') (hmode ▸ hmode') (hhigh ▸ hhigh')
      hle hle')

theorem forall_validate_iff (hu : ∀ d ∈ u.estimates, IsAmount d.1 ∧ Around d.1 d.2) :
    (∀ v ∈ uncertainInputs u (maturityFactor level), v.validate = .ok ()) ↔
      ∀ d ∈ u.estimates, HasSpread d := by
  constructor
  · intro hvalid d hd
    by_contra hspread
    obtain ⟨id, label, hmem⟩ := exists_driver_mem hd (maturityFactor level)
    have hrefused := UncertainVariable.validate_of_not_finite
      (not_isFinite_driver hspread id label)
    rw [hvalid _ hmem] at hrefused
    cases hrefused
  · intro hspreads v hv
    obtain ⟨d, hd, id, label, rfl⟩ | ⟨hlow, hmode, hhigh⟩ := mem_uncertainInputs hv
    · obtain ⟨hamount, haround⟩ := hu d hd
      exact validate_driver hamount haround (hspreads d hd) id label
    · refine (validate_of_mem hu hv).resolve_right fun hnot => ?_
      rw [hhigh, (maturity_range level).1.2.2] at hnot
      cases hnot

end

end Uncertainty

end Appraisal
