import Appraisal.Proofs.Simulation.Range

/-!
# Draws without end

Valid bounds of a PERT variable may be so far apart that the width of the range overflows. Then one
of the two shapes is an infinite number over another one, and there is no end to the search for a
gamma number of that shape.
-/

namespace Appraisal

/-- A PERT variable over a range whose width overflows. -/
def UncertainVariable.Endless (v : UncertainVariable) : Prop :=
  v.distribution = .pert ∧ (v.high - v.low).isFinite = false

instance (v : UncertainVariable) : Decidable v.Endless :=
  inferInstanceAs (Decidable (_ ∧ _))

namespace Simulation

variable {v : UncertainVariable} {functions : Elementary}

theorem toRat_two_pow_1023 : toRat (.ofBits 0x7FE0000000000000) = 2 ^ (1023 : Int) :=
  (toRat_of_unpack (u := .finite .positive (2 ^ 52) 971 (by norm_num)) rfl).trans
    (unpackedValue_full 971 _)

/-- Four times a difference does not overflow only if the difference is below a quarter of what
does. -/
theorem sub_lt_of_isFinite {x y : Float} (hx : x.isFinite = true) (hy : y.isFinite = true)
    (h : (pertShape * (x - y)).isFinite = true) : toRat x - toRat y < 2 ^ (1022 : Int) := by
  have hdifference : (x - y).isFinite = true := (isFinite_of_mul h).2
  have hlt : toRat (x - y) < 2 ^ (1022 : Int) := by
    have hfour : (2 : ℚ) ^ (1024 : Int) = 4 * 2 ^ (1022 : Int) := by
      rw [show (1024 : Int) = 2 + 1022 by norm_num, zpow_add₀ two_ne_zero]
      norm_num
    have hproduct := toRat_lt (pertShape * (x - y))
    rw [toRat_pertShape_mul hdifference h, hfour] at hproduct
    linarith
  by_contra! hle
  have hgrid : OnGrid (2 ^ (1022 : Int)) := ⟨1, 1022, by norm_num, by norm_num, by simp⟩
  exact hlt.not_ge (((rounded_sub hx hy).neighbour hdifference).le_of_le _ hgrid hle)

/-- The width does not overflow if neither shape does. -/
theorem isFinite_width (h : v.Ordered)
    (hbelow : (pertShape * (v.mode - v.low)).isFinite = true)
    (habove : (pertShape * (v.high - v.mode)).isFinite = true) :
    (v.high - v.low).isFinite = true := by
  have hlow := sub_lt_of_isFinite h.mode h.low hbelow
  have hhigh := sub_lt_of_isFinite h.high h.mode habove
  refine ((rounded_sub h.high h.low).upTo ?_ (toRat_two_pow_1023.ge.trans' ?_)).isFinite
  · linarith [h.low_le_mode, h.mode_le_high]
  · rw [show (1023 : Int) = 1 + 1022 by norm_num, zpow_add₀ two_ne_zero, zpow_one]
    linarith

/-- An infinite part has no share in an infinite width. -/
theorem isNaN_shape {x y : Float} (hx : x.isFinite = true) (hy : y.isFinite = true)
    (hle : toRat y ≤ toRat x) (h : (pertShape * (x - y)).isFinite = false) :
    (1 + pertShape * (x - y) / (1 / 0)).isNaN = true := by
  have hinfinity : pertShape * (x - y) = 1 / 0 := by
    obtain hfinite | hinfinity := (rounded_sub hx hy).isFinite_or_eq_infinity (sub_nonneg.2 hle)
    · have hnonneg := (rounded_sub hx hy).nonneg hfinite (sub_nonneg.2 hle)
      exact pertShape_mul_eq_infinity hfinite hnonneg h
    · rw [hinfinity]
      decide +kernel
  rw [hinfinity]
  rfl

/-- No draw of such a variable ends. -/
theorem yields_of_endless (h : v.Ordered) (hv : v.Endless) :
    Yields (drawWith functions v) fun _ => False := by
  obtain ⟨hpert, hwidth⟩ := hv
  have hinfinity : v.high - v.low = 1 / 0 := by
    refine ((rounded_sub h.high h.low).isFinite_or_eq_infinity ?_).resolve_left ?_
    · exact sub_nonneg.2 (h.low_le_mode.trans h.mode_le_high)
    · rw [hwidth]
      exact Bool.false_ne_true
  have hne : (v.high - v.low == 0) = false := by
    rw [hinfinity]
    rfl
  rw [drawWith_of_width hne, hpert, drawAs, hinfinity]
  cases hbelow : (pertShape * (v.mode - v.low)).isFinite with
  | false =>
    have hnan := isNaN_shape h.mode h.low h.low_le_mode hbelow
    exact (yields_gamma_of_isNaN functions _ hnan).bind fun _ hnever => hnever.elim
  | true =>
    have habove : (pertShape * (v.high - v.mode)).isFinite = false := by
      refine eq_false_of_ne_true fun habove => ?_
      rw [isFinite_width h hbelow habove] at hwidth
      cases hwidth
    have hnan := isNaN_shape h.high h.mode h.mode_le_high habove
    exact (yields_true _).bind fun _ _ =>
      (yields_gamma_of_isNaN functions _ hnan).bind fun _ hnever => hnever.elim

end Simulation

end Appraisal
