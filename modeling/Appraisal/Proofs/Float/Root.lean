import Appraisal.Proofs.Number.Bounds
import Mathlib

/-!
# Rounded square roots

A square root is rounded like the other results, but the exact root need not be rational. Some
rational number below it, as near as one wants, is rounded to the same double, and this is enough to
compare roots with other numbers.
-/

namespace Appraisal

open Float.Model (UnpackedFloat Format totalExponent)
open Float.Model.UnpackedFloat (Sign ExtendedMantissa Accuracy sqrtCore)

/-- How the root of a natural number relates to its whole part. -/
def rootAccuracy (m : Nat) : Accuracy :=
  let rest := m - m.sqrt * m.sqrt
  if rest = 0 then .exact else .inexact (if rest ≤ m.sqrt then .lt else .gt)

/-- The point on the chord between two whole roots. -/
def chord (root rest : Nat) : ℚ :=
  root + rest / (2 * root + 1)

theorem chord_sq_le {root rest : Nat} (hrest : rest ≤ 2 * root) :
    chord root rest ^ 2 ≤ (root : ℚ) ^ 2 + rest := by
  obtain ⟨s, hs⟩ : ∃ s : ℚ, s = rest / (2 * root + 1) := ⟨_, rfl⟩
  have hscaled : s * (2 * root + 1) = rest := by
    rw [hs, div_mul_cancel₀ _ (by positivity)]
  have hnonneg : 0 ≤ s := by
    rw [hs]
    positivity
  have hone : s ≤ 1 := by
    have : (rest : ℚ) ≤ 2 * root := by exact_mod_cast hrest
    rw [hs, div_le_one (by positivity)]
    linarith
  rw [chord, ← hs, ← hscaled]
  nlinarith

theorem lt_chord {root rest : Nat} (hrest : 0 < rest) : (root : ℚ) < chord root rest := by
  have : (0 : ℚ) < rest := by exact_mod_cast hrest
  exact lt_add_of_pos_right _ (by positivity)

theorem middle_lt_chord {root rest : Nat} (hrest : root < rest) :
    (root : ℚ) + 1 / 2 < chord root rest := by
  have : (root : ℚ) + 1 ≤ rest := by exact_mod_cast hrest
  rw [chord, add_lt_add_iff_left, div_lt_div_iff₀ two_pos (by positivity)]
  linarith

/-- A number between the chord and the root is on the same side of the middle as the root. -/
theorem exists_approximates_root (m : Nat) {low : ℚ} (hle : low ^ 2 ≤ m) :
    ∃ x, low ≤ x ∧ x ^ 2 ≤ m ∧
      Approximates (.ofMantissaAndAccuracy m.sqrt (rootAccuracy m)) x := by
  obtain ⟨root, hroot⟩ : ∃ root, root = m.sqrt := ⟨_, rfl⟩
  obtain ⟨rest, hrest⟩ : ∃ rest, rest = m - root * root := ⟨_, rfl⟩
  have hsquare : root * root ≤ m := hroot ▸ Nat.sqrt_le m
  have hrestLe : rest ≤ 2 * root := by
    have hnext : m < (root + 1) * (root + 1) := hroot ▸ Nat.lt_succ_sqrt m
    have : (root + 1) * (root + 1) = root * root + 2 * root + 1 := by ring
    omega
  have hm : (m : ℚ) = (root : ℚ) ^ 2 + rest := by
    rw [show m = root * root + rest by omega]
    push_cast
    ring
  have hnonneg : (0 : ℚ) ≤ root := Nat.cast_nonneg root
  rw [rootAccuracy, ← hroot, ← hrest]
  split_ifs with hzero hhalf
  · rw [hzero, Nat.cast_zero, add_zero] at hm
    exact ⟨root, le_of_sq_le_sq (hm ▸ hle) hnonneg, hm.ge, rfl⟩
  all_goals
    have hpos : (root : ℚ) < chord root rest := lt_chord (Nat.pos_of_ne_zero hzero)
    have hge : chord root rest ≤ max low (chord root rest) := le_max_right _ _
    have hmax : max low (chord root rest) ^ 2 ≤ m := by
      obtain h | h := le_total low (chord root rest)
      · rw [max_eq_right h, hm]
        exact chord_sq_le hrestLe
      · rwa [max_eq_left h]
    refine ⟨max low (chord root rest), le_max_left _ _, hmax, ?_⟩
  · have hhalf : (rest : ℚ) ≤ root := by exact_mod_cast hhalf
    have hlt : max low (chord root rest) < root + 1 / 2 := by
      refine lt_of_pow_lt_pow_left₀ 2 (by positivity) (hmax.trans_lt ?_)
      rw [hm]
      linarith
    exact ⟨hpos.trans_le hge, hlt⟩
  · have hmiddle := middle_lt_chord (not_le.1 hhalf)
    have hrestLe : (rest : ℚ) ≤ 2 * root := by exact_mod_cast hrestLe
    have hlt : max low (chord root rest) < root + 1 := by
      refine lt_of_pow_lt_pow_left₀ 2 (by positivity) (hmax.trans_lt ?_)
      rw [hm]
      linarith
    exact ⟨hmiddle.trans_le hge, hlt⟩

theorem two_pow_le_sqrt {n : Nat} (hlog : 104 ≤ n.log2) : 2 ^ 52 ≤ n.sqrt := by
  have hpos : n ≠ 0 := by
    rintro rfl
    rw [Nat.log2_zero] at hlog
    omega
  rw [Nat.le_sqrt]
  calc 2 ^ 52 * 2 ^ 52 = 2 ^ 104 := by norm_num
    _ ≤ n := (Nat.le_log2 hpos).1 hlog

theorem sqrtExponent_eq (m : Nat) (e : Int) :
    min (e.ediv 2) (Format.binary64.targetExponent ((totalExponent m e + 1).ediv 2)) =
      min (e / 2) (max ((m.log2 + e + 2) / 2 - 53) (-1074)) := by
  simp only [Format.targetExponent, totalExponent, Format.mantissaBits, Format.minExponent]
  push_cast
  change min (e / 2) (max ((m.log2 + 1 + e + 1) / 2 - 53) (-1074)) = _
  omega

/-- The shift before the root is taken leaves one of at least 53 bits, or the smallest exponent. -/
theorem roundsTo_sqrt_of_finite {m : Nat} (e : Int) (hm : 0 < m) {low : ℚ}
    (hle : low ^ 2 ≤ m * 2 ^ e) :
    ∃ x, low ≤ x ∧ x ^ 2 ≤ m * 2 ^ e ∧
      RoundsTo x (UnpackedFloat.sqrt Format.binary64 (.finite .positive m e hm)) := by
  simp only [UnpackedFloat.sqrt, sqrtCore, Nat.shiftLeft_eq, sqrtExponent_eq]
  obtain ⟨T, hT⟩ : ∃ T, T = min (e / 2) (max ((m.log2 + e + 2) / 2 - 53) (-1074)) := ⟨_, rfl⟩
  obtain ⟨k, hk⟩ : ∃ k : Nat, (k : Int) = e - 2 * T := ⟨(e - 2 * T).toNat, by omega⟩
  rw [← hT, ← hk, Int.toNat_natCast]
  obtain ⟨n, hn⟩ : ∃ n, n = m * 2 ^ k := ⟨_, rfl⟩
  have hunit : (0 : ℚ) < 2 ^ T := by positivity
  have hvalue : (n : ℚ) * (2 ^ T) ^ 2 = m * 2 ^ e := by
    rw [hn, show e = k + T * 2 by omega, zpow_add₀ (by norm_num), zpow_mul, zpow_natCast]
    push_cast
    ring_nf
    norm_cast
  have hexp : T ≤ max (n.sqrt.log2 + T - 52) (-1074) := by
    by_cases hsmall : T ≤ -1074
    · omega
    · have hlog : 104 ≤ n.log2 := by
        rw [hn, log2_mul_two_pow hm]
        omega
      have hle : 2 ^ 52 ≤ n.sqrt := two_pow_le_sqrt hlog
      have := (Nat.le_log2 (by omega)).2 hle
      omega
  have hscaled : (low / 2 ^ T) ^ 2 ≤ n := by
    rw [div_pow, div_le_iff₀ (by positivity), hvalue]
    exact hle
  obtain ⟨x, hlow, hsquare, happrox⟩ := exists_approximates_root n hscaled
  refine ⟨x * 2 ^ T, (div_le_iff₀ hunit).1 hlow, ?_, ?_⟩
  · rw [mul_pow, ← hvalue]
    gcongr
  · have := roundsTo_roundWithAccuracy .positive happrox hexp
    rw [← hn]
    simpa [Sign.apply, rootAccuracy] using this

/-- Some number from `low` on whose square is not above `x` is rounded to the root of `x`. -/
theorem rounded_sqrt {x : Float} (hx : x.isFinite = true) (h : 0 ≤ toRat x) {low : ℚ}
    (hle : low ^ 2 ≤ toRat x) : ∃ y, |low| ≤ y ∧ y ^ 2 ≤ toRat x ∧ Rounded y x.sqrt := by
  suffices ∃ y, |low| ≤ y ∧ y ^ 2 ≤ toRat x ∧
      RoundsTo y (UnpackedFloat.sqrt Format.binary64 x.toModel.unpack) by
    obtain ⟨y, hlow, hsquare, hy⟩ := this
    exact ⟨y, hlow, hsquare, _, hy, rfl⟩
  change x.toModel.unpack.isFinite = true at hx
  rw [toRat] at h hle ⊢
  generalize x.toModel.unpack = u at *
  rw [← sq_abs] at hle
  cases u with
  | infinity | notANumber => cases hx
  | zero s =>
    have hlow : |low| = 0 := (sq_nonpos_iff _).1 hle
    exact ⟨0, hlow.le, (sq_nonpos_iff _).2 rfl, roundsTo_zero s⟩
  | finite s m e hm =>
    cases s with
    | negative => exact absurd h unpackedValue_negative_lt.not_ge
    | positive =>
      simp only [unpackedValue, Sign.apply, Int.cast_natCast] at hle ⊢
      exact roundsTo_sqrt_of_finite e hm hle

/-- Roots of finite numbers are finite. -/
theorem upTo_sqrt {x : Float} (hx : x.isFinite = true) (h : 0 ≤ toRat x) :
    UpTo x.sqrt x.sqrt := by
  have hzero : (0 : ℚ) ^ 2 ≤ toRat x := by simpa using h
  obtain ⟨y, hlow, hsquare, hy⟩ := rounded_sqrt hx h hzero
  rw [abs_zero] at hlow
  have hfinite : x.sqrt.isFinite = true := by
    obtain hsmall | hlarge := le_total y 1
    · exact (hy.upTo hlow (hsmall.trans_eq toRat_one.symm)).isFinite
    · have hle : y ≤ toRat x := (le_self_pow₀ hlarge two_ne_zero).trans hsquare
      exact (hy.upTo hlow hle).isFinite
  exact upTo_self hfinite (hy.nonneg hfinite hlow)

/-- Roots keep the order. -/
theorem UpTo.sqrt {a x : Float} (hx : UpTo a x) (ha : a.isFinite = true) : UpTo a.sqrt x.sqrt := by
  have hzero : (0 : ℚ) ^ 2 ≤ toRat x := by simpa using hx.nonneg
  obtain ⟨y, hlow, hsquare, hy⟩ := rounded_sqrt hx.isFinite hx.nonneg hzero
  obtain ⟨z, hyz, -, hz⟩ := rounded_sqrt ha (hx.nonneg.trans hx.le) (hsquare.trans hx.le)
  have hfinite := (upTo_sqrt ha (hx.nonneg.trans hx.le)).isFinite
  rw [abs_zero] at hlow
  exact hy.upTo_of_le (hz.roundsTo hfinite) hlow ((le_abs_self y).trans hyz)

/-- A root keeps to bounds whose squares the number keeps to. -/
theorem within_sqrt {x : Float} {low high : ℚ} (hx : Within (low ^ 2) (high ^ 2) x)
    (hlow : Moderate low) (hhigh : Moderate high) (hnonneg : 0 ≤ low) (hpos : 0 ≤ high) :
    Within low high x.sqrt := by
  obtain ⟨y, hle, hsquare, hy⟩ := rounded_sqrt hx.isFinite ((sq_nonneg low).trans hx.low_le)
    hx.low_le
  rw [abs_of_nonneg hnonneg] at hle
  exact hy.within hlow hhigh hle (le_of_sq_le_sq (hsquare.trans hx.le_high) hpos)

theorem isFinite_of_sqrt {x : Float} (h : x.sqrt.isFinite = true) :
    x.isFinite = true ∧ 0 ≤ toRat x := by
  have hroot : (UnpackedFloat.sqrt Format.binary64 x.toModel.unpack).isFinite = true :=
    isFinite_of_pack h
  change x.toModel.unpack.isFinite = true ∧ 0 ≤ unpackedValue x.toModel.unpack
  generalize x.toModel.unpack = u at *
  cases u with
  | notANumber => cases hroot
  | infinity s => cases s <;> cases hroot
  | zero s => exact ⟨rfl, le_rfl⟩
  | finite s m e hm =>
    cases s with
    | negative => cases hroot
    | positive => exact ⟨rfl, unpackedValue_pos.le⟩

end Appraisal
