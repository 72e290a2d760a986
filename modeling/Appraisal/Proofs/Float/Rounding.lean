import Appraisal.Proofs.Float.Exact
import Mathlib

/-!
# Rounded results

Addition, subtraction, multiplication and division give the double that is nearest to the exact
result, and of two that are equally near the even one. So results keep the order of the exact
results and every bound that is a double, and they are exact where the exact results are doubles.
-/

namespace Appraisal

open Float.Model (UnpackedFloat Format totalExponent)
open Float.Model.UnpackedFloat (Sign pack unpack ExtendedMantissa Accuracy shiftToExponent
  shiftToTargetExponent roundWithAccuracy decreaseExponent divCore accuracyOfFraction)

/-- The mantissa is the whole part of a number, and the residual bits tell where the number is
relative to the middle between that and the next whole number. -/
def Approximates (em : ExtendedMantissa) (x : ℚ) : Prop :=
  match em.roundBit, em.stickyBit with
  | false, false => x = em.mantissa
  | false, true => em.mantissa < x ∧ x < em.mantissa + 1 / 2
  | true, false => x = em.mantissa + 1 / 2
  | true, true => em.mantissa + 1 / 2 < x ∧ x < em.mantissa + 1

theorem approximates_exact (m : Nat) :
    Approximates (.ofMantissaAndAccuracy m .exact) m :=
  rfl

namespace Approximates

variable {em : ExtendedMantissa} {x : ℚ}

theorem le (h : Approximates em x) : em.mantissa ≤ x := by
  obtain ⟨m, r, s⟩ := em
  cases r <;> cases s <;> simp only [Approximates] at h ⊢ <;> linarith

theorem lt (h : Approximates em x) : x < em.mantissa + 1 := by
  obtain ⟨m, r, s⟩ := em
  cases r <;> cases s <;> simp only [Approximates] at h ⊢ <;> linarith

theorem shiftRightOne (h : Approximates em x) : Approximates em.shiftRightOne (x / 2) := by
  obtain ⟨m, r, s⟩ := em
  have hdiv : (m : ℚ) = 2 * (m / 2 : Nat) + (m % 2 : Nat) := by
    exact_mod_cast (Nat.div_add_mod m 2).symm
  obtain hbit | hbit := Nat.mod_two_eq_zero_or_one m <;> rw [hbit] at hdiv <;> cases r <;>
      cases s <;>
    simp [Approximates, ExtendedMantissa.shiftRightOne, hbit] at h hdiv ⊢ <;>
    grind

theorem shiftRight (h : Approximates em x) (n : Nat) : Approximates (em >>> n) (x / 2 ^ n) := by
  induction n with
  | zero => simpa [HShiftRight.hShiftRight, Nat.repeat] using h
  | succ n ih =>
    rw [pow_succ, div_mul_eq_div_div]
    exact ih.shiftRightOne

theorem le_roundedMantissa (em : ExtendedMantissa) : em.mantissa ≤ em.roundedMantissa := by
  obtain ⟨m, r, s⟩ := em
  cases r <;> cases s <;>
    simp [ExtendedMantissa.roundedMantissa, ExtendedMantissa.accuracy, Accuracy.roundToNearestEven]

/-- Rounding goes to the nearer one of the two whole numbers, and from the middle to the even
one. -/
theorem roundedMantissa_cases (h : Approximates em x) :
    (em.roundedMantissa = em.mantissa ∧ x ≤ em.mantissa + 1 / 2 ∨
      em.roundedMantissa = em.mantissa + 1 ∧ em.mantissa + 1 / 2 ≤ x) ∧
    (x = em.mantissa + 1 / 2 → Even em.roundedMantissa) := by
  obtain ⟨m, r, s⟩ := em
  cases r <;> cases s <;>
    simp only [Approximates, ExtendedMantissa.roundedMantissa, ExtendedMantissa.accuracy,
      Accuracy.roundToNearestEven] at h ⊢
  · exact ⟨.inl ⟨trivial, by linarith⟩, fun hx => by linarith⟩
  · exact ⟨.inl ⟨trivial, h.2.le⟩, fun hx => by linarith [h.2]⟩
  · obtain heven | hodd := Nat.mod_two_eq_zero_or_one m
    · exact ⟨.inl ⟨by omega, h.le⟩, fun _ => Nat.even_iff.2 (by omega)⟩
    · exact ⟨.inr ⟨by omega, h.ge⟩, fun _ => Nat.even_iff.2 (by omega)⟩
  · exact ⟨.inr ⟨trivial, h.1.le⟩, fun hx => by linarith [h.1]⟩

/-- How far off the rounded mantissa is: no more than half a place, and no more than the mantissa
that was not rounded. -/
theorem error_le (h : Approximates em x) :
    |x - em.roundedMantissa| ≤ 1 / 2 ∧ |x - em.roundedMantissa| ≤ x - em.mantissa := by
  have hle := h.le
  have hlt := h.lt
  obtain ⟨heq, hx⟩ | ⟨heq, hx⟩ := h.roundedMantissa_cases.1 <;> rw [heq] <;> push_cast
  · rw [abs_of_nonneg (by linarith)]
    exact ⟨by linarith, le_rfl⟩
  · rw [abs_of_nonpos (by linarith)]
    constructor <;> linarith

/-- All other whole numbers are half a place away at least. -/
theorem half_le_of_ne (h : Approximates em x) {n : Int} (hn : n ≠ em.roundedMantissa) :
    1 / 2 ≤ |x - n| := by
  have hone : (1 : ℚ) ≤ |(n : ℚ) - em.roundedMantissa| := by
    have : 1 ≤ |n - em.roundedMantissa| := Int.one_le_abs (sub_ne_zero.2 hn)
    exact_mod_cast this
  have htriangle := abs_sub_le (n : ℚ) x em.roundedMantissa
  rw [abs_sub_comm (n : ℚ) x] at htriangle
  linarith [h.error_le.1]

theorem even_of_middle (h : Approximates em x) (hmiddle : |x - em.roundedMantissa| = 1 / 2) :
    Even em.roundedMantissa := by
  obtain ⟨hcases, heven⟩ := h.roundedMantissa_cases
  refine heven ?_
  obtain ⟨-, hx⟩ | ⟨heq, hx⟩ := hcases
  · linarith [h.error_le.2]
  · rw [heq] at hmiddle
    push_cast at hmiddle
    rw [abs_of_nonpos (by linarith [h.lt])] at hmiddle
    linarith

end Approximates

theorem mantissa_shiftRight (em : ExtendedMantissa) (n : Nat) :
    (em >>> n).mantissa = em.mantissa / 2 ^ n := by
  induction n with
  | zero => simp [HShiftRight.hShiftRight, Nat.repeat]
  | succ n ih =>
    change (em >>> n).mantissa / 2 = _
    rw [ih, Nat.div_div_eq_div_mul, pow_succ]

theorem mantissa_ofMantissaAndAccuracy (m : Nat) (a : Accuracy) :
    (ExtendedMantissa.ofMantissaAndAccuracy m a).mantissa = m := by
  cases a with
  | exact => rfl
  | inexact o => cases o <;> rfl

theorem targetExponent_eq (m : Nat) (e : Int) :
    Format.binary64.targetExponent (totalExponent m e) = max (m.log2 + e - 52) (-1074) := by
  simp only [Format.targetExponent, totalExponent, Format.mantissaBits, Format.minExponent]
  push_cast
  congr 1
  ring

/-- A number with a mantissa of at most 53 bits; there is no largest one. -/
def OnGrid (d : ℚ) : Prop :=
  ∃ m e : Int, |m| < 2 ^ 53 ∧ -1074 ≤ e ∧ d = m * 2 ^ e

theorem OnGrid.neg {d : ℚ} (h : OnGrid d) : OnGrid (-d) := by
  obtain ⟨m, e, hm, he, rfl⟩ := h
  exact ⟨-m, e, by rwa [abs_neg], he, by push_cast; ring⟩

/-- No number of the grid is strictly between the two. -/
structure Neighbour (exact rounded : ℚ) : Prop where
  le_of_le : ∀ d, OnGrid d → d ≤ exact → d ≤ rounded
  ge_of_ge : ∀ d, OnGrid d → exact ≤ d → rounded ≤ d

theorem Neighbour.eq {q r : ℚ} (h : Neighbour q r) (hq : OnGrid q) : r = q :=
  le_antisymm (h.ge_of_ge q hq le_rfl) (h.le_of_le q hq le_rfl)

/-- No number of the grid is nearer, and of two that are equally near the rounded one is an even
multiple of their distance. The last place of a small number is that of the smallest ones. -/
structure Nearest (exact rounded : ℚ) : Prop where
  dist_le : ∀ d, OnGrid d → |exact - rounded| ≤ |exact - d|
  even : ∀ d, OnGrid d → |exact - d| = |exact - rounded| → d = rounded ∨
    ∃ k : Int, rounded = k * (4 * |exact - rounded|)
  error_le : |exact - rounded| ≤ max (|exact| / 2 ^ 53) (2 ^ (-1075 : Int))

namespace Nearest

variable {q q' r r' : ℚ}

theorem refl (q : ℚ) : Nearest q q where
  dist_le d _ := by rw [sub_self, abs_zero]; exact abs_nonneg _
  even d _ h := by
    rw [sub_self, abs_zero, abs_eq_zero, sub_eq_zero] at h
    exact .inl h.symm
  error_le := by rw [sub_self, abs_zero]; positivity

theorem neg (h : Nearest q r) : Nearest (-q) (-r) := by
  have hdist (d : ℚ) : |-q - d| = |q - -d| := by
    rw [← abs_neg]
    congr 1
    ring
  constructor
  · intro d hd
    rw [hdist, hdist, neg_neg]
    exact h.dist_le _ hd.neg
  · intro d hd heq
    rw [hdist, hdist, neg_neg] at *
    obtain hsame | ⟨k, hk⟩ := h.even _ hd.neg heq
    · exact .inl (neg_eq_iff_eq_neg.1 hsame)
    · refine .inr ⟨-k, ?_⟩
      rw [Int.cast_neg, neg_mul, ← hk]
  · rw [hdist, neg_neg, abs_neg]
    exact h.error_le

theorem neighbour (h : Nearest q r) : Neighbour q r where
  le_of_le d hd hle := by
    by_contra hlt
    have := h.dist_le d hd
    rw [abs_of_nonneg (by linarith), abs_of_nonneg (by linarith)] at this
    linarith
  ge_of_ge d hd hge := by
    by_contra hlt
    have := h.dist_le d hd
    rw [abs_of_nonpos (by linarith), abs_of_nonpos (by linarith)] at this
    linarith

/-- Rounding keeps the order, and it is determined by the exact number. -/
theorem mono (h : Nearest q r) (h' : Nearest q' r') (hr : OnGrid r) (hr' : OnGrid r')
    (hle : q ≤ q') : r ≤ r' := by
  by_contra! hlt
  -- Each of the two is at least as near to its number as the other one.
  have hq := sq_le_sq.2 (h.dist_le r' hr')
  have hq' := sq_le_sq.2 (h'.dist_le r hr)
  have hmiddle : (r + r') / 2 ≤ q := by nlinarith
  have hmiddle' : q' ≤ (r + r') / 2 := by nlinarith
  obtain rfl : q = q' := le_antisymm hle (hmiddle'.trans hmiddle)
  have hhalf : q = (r + r') / 2 := le_antisymm hmiddle' hmiddle
  have hdist : |q - r| = (r - r') / 2 := by
    rw [hhalf, abs_of_nonpos (by linarith)]
    ring
  have hdist' : |q - r'| = (r - r') / 2 := by
    rw [hhalf, abs_of_nonneg (by linarith)]
    ring
  obtain heq | ⟨k, hk⟩ := h.even r' hr' (hdist'.trans hdist.symm)
  · exact hlt.ne heq
  obtain heq | ⟨l, hl⟩ := h'.even r hr (hdist.trans hdist'.symm)
  · exact hlt.ne' heq
  rw [hdist] at hk
  rw [hdist'] at hl
  have hgap : (r - r') * (2 * (k - l) - 1) = 0 := by linear_combination hl - hk
  have hodd : (2 * (k - l) - 1 : ℚ) ≠ 0 := by
    have : (2 * (k - l) - 1 : Int) ≠ 0 := by omega
    exact_mod_cast this
  exact (mul_ne_zero (sub_ne_zero.2 hlt.ne') hodd) hgap

end Nearest

/-- With a full mantissa, or at the smallest exponent, a number of the grid is a multiple of the
last place or smaller. -/
theorem OnGrid.multiple_or_lt {d : ℚ} (hd : OnGrid d) {m : Nat} {t : Int}
    (hfull : 2 ^ 52 ≤ m ∨ t = -1074) : (∃ n : Int, d = n * 2 ^ t) ∨ d < m * 2 ^ t := by
  obtain ⟨k, e, hk, he, rfl⟩ := hd
  obtain hte | het := le_or_gt t e
  · obtain ⟨n, rfl⟩ := Int.le.dest hte
    refine .inl ⟨k * 2 ^ n, ?_⟩
    rw [zpow_add₀ (by norm_num), zpow_natCast]
    push_cast
    ring
  · refine .inr ?_
    have hm : (2 : ℚ) ^ 52 ≤ m := by exact_mod_cast hfull.resolve_right (by omega)
    have hlt : (k : ℚ) < 2 ^ 53 := by exact_mod_cast (le_abs_self k).trans_lt hk
    calc (k : ℚ) * 2 ^ e < 2 ^ 53 * 2 ^ e := by gcongr
      _ = 2 ^ 52 * 2 ^ (e + 1) := by rw [zpow_add₀ (by norm_num)]; ring
      _ ≤ m * 2 ^ t := by
          gcongr
          · norm_num
          · omega

/-- A mantissa of the right size, rounded, is nearest. -/
theorem nearest_of_approximates {em : ExtendedMantissa} {x : ℚ} {t : Int}
    (h : Approximates em x) (hfull : 2 ^ 52 ≤ em.mantissa ∨ t = -1074) :
    Nearest (x * 2 ^ t) (em.roundedMantissa * 2 ^ t) := by
  have hpow : (0 : ℚ) < 2 ^ t := by positivity
  obtain ⟨hhalf, hbelow⟩ := h.error_le
  have hscale (y z : ℚ) : |y * 2 ^ t - z * 2 ^ t| = |y - z| * 2 ^ t := by
    rw [← sub_mul, abs_mul, abs_of_pos hpow]
  have hlow := mul_le_mul_of_nonneg_right hbelow hpow.le
  rw [sub_mul] at hlow
  constructor
  · intro d hd
    rw [hscale]
    obtain ⟨n, rfl⟩ | hlt := hd.multiple_or_lt hfull
    · rw [hscale]
      refine mul_le_mul_of_nonneg_right ?_ hpow.le
      by_cases hn : n = em.roundedMantissa
      · rw [hn, Int.cast_natCast]
      · exact hhalf.trans (h.half_le_of_ne hn)
    · exact (hlow.trans (sub_le_sub_left hlt.le _)).trans (le_abs_self _)
  · intro d hd heq
    rw [hscale] at heq
    obtain ⟨n, rfl⟩ | hlt := hd.multiple_or_lt hfull
    · by_cases hn : n = em.roundedMantissa
      · exact .inl (by rw [hn, Int.cast_natCast])
      · rw [hscale] at heq
        have hsame : |x - n| = |x - em.roundedMantissa| := mul_right_cancel₀ hpow.ne' heq
        have hmiddle : |x - em.roundedMantissa| = 1 / 2 :=
          le_antisymm hhalf (hsame ▸ h.half_le_of_ne hn)
        obtain ⟨j, hj⟩ := h.even_of_middle hmiddle
        refine .inr ⟨j, ?_⟩
        rw [hscale, hmiddle, hj]
        push_cast
        ring
    · exact absurd ((le_abs_self _).trans_eq heq) (by linarith)
  · rw [hscale]
    obtain hm | rfl := hfull
    · refine le_trans ?_ (le_max_left _ _)
      have hm : (2 : ℚ) ^ 52 ≤ em.mantissa := by exact_mod_cast hm
      have hle := h.le
      have hnonneg : 0 ≤ x * 2 ^ t := mul_nonneg (by linarith) hpow.le
      rw [abs_of_nonneg hnonneg, mul_div_right_comm]
      exact mul_le_mul_of_nonneg_right (by linarith) hpow.le
    · have hunit : (1 / 2 : ℚ) * 2 ^ (-1074 : Int) = 2 ^ (-1075 : Int) := by
        rw [show (-1075 : Int) = -1 + -1074 by norm_num, zpow_add₀ (by norm_num), zpow_neg_one,
          one_div]
      exact (mul_le_mul_of_nonneg_right hhalf hpow.le).trans (hunit.trans_le (le_max_right _ _))

/-- A number in the canonical form that is nearest to an exact one. -/
structure RoundsTo (q : ℚ) (u : UnpackedFloat) : Prop where
  canonical : Canonical u
  isFinite : u.isFinite = true
  nearest : Nearest q (unpackedValue u)

theorem RoundsTo.neighbour {q : ℚ} {u : UnpackedFloat} (h : RoundsTo q u) :
    Neighbour q (unpackedValue u) :=
  h.nearest.neighbour

/-- The first shift leaves a mantissa of 53 bits, which is full above the smallest exponent. -/
theorem mantissa_shifted {m : Nat} {e : Int} {n : Nat} {t : Int}
    (ht : t = max (m.log2 + e - 52) (-1074)) (hn : (n : Int) = t - e) :
    m / 2 ^ n < 2 ^ 53 ∧ (2 ^ 52 ≤ m / 2 ^ n ∨ t = -1074) := by
  have hlog : m.log2 < 53 + n := by omega
  constructor
  · rw [Nat.div_lt_iff_lt_mul (by positivity), ← pow_add]
    exact Nat.lt_log2_self.trans_le (Nat.pow_le_pow_right (by norm_num) hlog)
  · obtain hm | hm := Nat.eq_zero_or_pos m
    · subst hm
      rw [Nat.log2_zero] at ht
      exact .inr (by omega)
    · by_cases hsmall : t = -1074
      · exact .inr hsmall
      · refine .inl ((Nat.le_div_iff_mul_le (by positivity)).2 ?_)
        rw [← pow_add]
        exact (Nat.pow_le_pow_right (by norm_num) (by omega)).trans (Nat.log2_self_le hm.ne')

theorem shiftToTargetExponent_of_lt {m : Nat} {t : Int} (hm : m < 2 ^ 53) (ht : -1074 ≤ t) :
    shiftToTargetExponent Format.binary64 m t .exact = (⟨m, false, false⟩, t) := by
  have hlog : m.log2 ≤ 52 := by
    obtain rfl | hpos := Nat.eq_zero_or_pos m
    · simp
    · exact Nat.lt_succ_iff.1 ((Nat.log2_lt hpos.ne').2 hm)
  have hzero : (Format.binary64.targetExponent (totalExponent m t) - t).toNat = 0 := by
    rw [targetExponent_eq]
    omega
  simp [shiftToTargetExponent, shiftToExponent, hzero, HShiftRight.hShiftRight, Nat.repeat,
    ExtendedMantissa.ofMantissaAndAccuracy]

/-- A mantissa that was rounded up to 54 bits is shifted once more, and nothing is lost. -/
theorem shiftToTargetExponent_carry {t : Int} (ht : -1074 ≤ t) :
    shiftToTargetExponent Format.binary64 (2 ^ 53) t .exact = (⟨2 ^ 52, false, false⟩, t + 1) := by
  have hone : (Format.binary64.targetExponent (totalExponent (2 ^ 53) t) - t).toNat = 1 := by
    rw [targetExponent_eq, Nat.log2_two_pow]
    omega
  simp only [shiftToTargetExponent, shiftToExponent, hone]
  rfl

theorem roundWithAccuracy_eq {s : Sign} {m k : Nat} {e t t' : Int} {a : Accuracy}
    {em : ExtendedMantissa} (hfirst : shiftToTargetExponent Format.binary64 m e a = (em, t))
    (hsecond : shiftToTargetExponent Format.binary64 em.roundedMantissa t .exact =
      (⟨k, false, false⟩, t')) :
    roundWithAccuracy Format.binary64 s m e a =
      if h : k = 0 then .zero s else .finite s k t' (Nat.pos_of_ne_zero h) := by
  simp only [roundWithAccuracy, hfirst, hsecond]

/-- A rounded size with a sign. -/
theorem roundsTo_signed {s : Sign} {q : ℚ} {k : Nat} {t : Int} (h : Nearest q (k * 2 ^ t))
    (hk : k < 2 ^ 53) (ht : -1074 ≤ t) (hfull : 2 ^ 52 ≤ k ∨ t = -1074) :
    RoundsTo (s.apply 1 * q)
      (if h : k = 0 then .zero s else .finite s k t (Nat.pos_of_ne_zero h)) := by
  have hsigned : Nearest (s.apply 1 * q) (s.apply k * 2 ^ t) := by
    cases s with
    | positive => simpa [Sign.apply] using h
    | negative => simpa [Sign.apply] using h.neg
  split_ifs with hzero
  · refine ⟨trivial, rfl, ?_⟩
    cases s <;> simpa [hzero, unpackedValue, Sign.apply] using hsigned
  · exact ⟨⟨hk, ht, hfull⟩, rfl, hsigned⟩

theorem roundsTo_roundWithAccuracy {m : Nat} {e : Int} {a : Accuracy} {x : ℚ} (s : Sign)
    (h : Approximates (.ofMantissaAndAccuracy m a) x) (he : e ≤ max (m.log2 + e - 52) (-1074)) :
    RoundsTo (s.apply 1 * (x * 2 ^ e)) (roundWithAccuracy Format.binary64 s m e a) := by
  obtain ⟨t, ht⟩ : ∃ t : Int, t = max (m.log2 + e - 52) (-1074) := ⟨_, rfl⟩
  obtain ⟨n, hn⟩ : ∃ n : Nat, (n : Int) = t - e := ⟨(t - e).toNat, by omega⟩
  have hlow : -1074 ≤ t := by omega
  obtain ⟨em, hem⟩ : ∃ em, em = ExtendedMantissa.ofMantissaAndAccuracy m a >>> n := ⟨_, rfl⟩
  have hfirst : shiftToTargetExponent Format.binary64 m e a = (em, t) := by
    rw [shiftToTargetExponent, shiftToExponent, targetExponent_eq, ← ht, ← hn, Int.toNat_natCast,
      ← hem]
    simp only [Prod.mk.injEq, true_and]
    omega
  have hmantissa : em.mantissa = m / 2 ^ n := by
    rw [hem, mantissa_shiftRight, mantissa_ofMantissaAndAccuracy]
  obtain ⟨hlt, hfull⟩ := mantissa_shifted ht hn
  rw [← hmantissa] at hlt hfull
  have happrox : Approximates em (x / 2 ^ n) := hem ▸ h.shiftRight n
  have hvalue : x / 2 ^ n * 2 ^ t = x * 2 ^ e := by
    rw [show t = e + n by omega, zpow_add₀ (by norm_num), zpow_natCast]
    field_simp
  have hnearest := nearest_of_approximates happrox hfull
  rw [hvalue] at hnearest
  have hge := Approximates.le_roundedMantissa em
  have hle : em.roundedMantissa ≤ 2 ^ 53 := by
    obtain ⟨h, -⟩ | ⟨h, -⟩ := happrox.roundedMantissa_cases.1 <;> omega
  obtain hsmall | hcarry := hle.lt_or_eq
  · rw [roundWithAccuracy_eq hfirst (shiftToTargetExponent_of_lt hsmall hlow)]
    exact roundsTo_signed hnearest hsmall hlow (hfull.imp_left fun h => h.trans hge)
  · rw [roundWithAccuracy_eq hfirst (hcarry ▸ shiftToTargetExponent_carry hlow)]
    refine roundsTo_signed ?_ (by norm_num) (by omega) (.inl le_rfl)
    have hpow : (em.roundedMantissa : ℚ) * 2 ^ t = (2 ^ 52 : Nat) * 2 ^ (t + 1) := by
      rw [hcarry, zpow_add₀ (by norm_num)]
      push_cast
      ring
    rwa [hpow] at hnearest

theorem RoundsTo.self {u : UnpackedFloat} (hu : Canonical u) (fu : u.isFinite = true) :
    RoundsTo (unpackedValue u) u :=
  ⟨hu, fu, .refl _⟩

theorem roundsTo_zero (s : Sign) : RoundsTo 0 (.zero s) :=
  ⟨trivial, rfl, .refl 0⟩

theorem log2_mul_two_pow {m : Nat} (hm : 0 < m) (k : Nat) : (m * 2 ^ k).log2 = m.log2 + k := by
  induction k with
  | zero => simp
  | succ k ih =>
    rw [pow_succ, ← mul_assoc, mul_comm, Nat.log2_two_mul (by positivity), ih, add_assoc]

theorem roundsTo_round {m : Nat} (s : Sign) (e : Int) (hm : 0 < m) :
    RoundsTo (s.apply 1 * (m * 2 ^ e)) (UnpackedFloat.round Format.binary64 s m e) := by
  simp only [UnpackedFloat.round, decreaseExponent, targetExponent_eq]
  obtain ⟨k, hk⟩ : ∃ k : Nat, k = (e - max (m.log2 + e - 52) (-1074)).toNat := ⟨_, rfl⟩
  rw [← hk, Nat.shiftLeft_eq]
  have hlog : (m * 2 ^ k).log2 = m.log2 + k := log2_mul_two_pow hm k
  have hvalue : ((m * 2 ^ k : Nat) : ℚ) * 2 ^ (e - k) = m * 2 ^ e := by
    rw [zpow_sub₀ (by norm_num), zpow_natCast]
    push_cast
    field_simp
  rw [← hvalue]
  exact roundsTo_roundWithAccuracy s (approximates_exact _) (by rw [hlog]; omega)

theorem roundsTo_normalize (m e : Int) (zeroSign : Sign) :
    RoundsTo (m * 2 ^ e) (UnpackedFloat.normalize Format.binary64 m e zeroSign) := by
  obtain h | rfl | h := lt_trichotomy m 0
  · obtain ⟨n, rfl⟩ : ∃ n : Nat, m = -n := ⟨(-m).toNat, by omega⟩
    have := roundsTo_round .negative e (show 0 < n by omega)
    simpa [UnpackedFloat.normalize, compare_lt_iff_lt.2 h, Sign.apply] using this
  · simpa [UnpackedFloat.normalize] using roundsTo_zero zeroSign
  · obtain ⟨n, rfl⟩ : ∃ n : Nat, m = n := ⟨m.toNat, by omega⟩
    have := roundsTo_round .positive e (show 0 < n by omega)
    simpa [UnpackedFloat.normalize, compare_gt_iff_gt.2 h, Sign.apply] using this

theorem decreaseExponent_min (s : Sign) (m : Nat) {e e' : Int} (h : e' ≤ e) :
    ((s.apply (decreaseExponent m e e').1 : Int) : ℚ) * 2 ^ e' = s.apply m * 2 ^ e := by
  obtain ⟨k, rfl⟩ := Int.le.dest h
  simp only [decreaseExponent, Nat.shiftLeft_eq, add_sub_cancel_left, Int.toNat_natCast]
  rw [zpow_add₀ (by norm_num), zpow_natCast]
  cases s <;> simp only [Sign.apply] <;> push_cast <;> ring

theorem apply_mul_apply (s t : Sign) (m n : Nat) :
    (s.apply m : ℚ) * t.apply n = ((s * t).apply 1 : Int) * (m * n) := by
  have hsign : (s * t).apply 1 = s.apply 1 * t.apply 1 := by cases s <;> cases t <;> rfl
  rw [hsign]
  cases s <;> cases t <;> simp [Sign.apply]

theorem apply_div_apply (s t : Sign) (m n : Nat) :
    (s.apply m : ℚ) / t.apply n = ((s / t).apply 1 : Int) * (m / n) := by
  have hsign : (s / t).apply 1 = s.apply 1 * t.apply 1 := by cases s <;> cases t <;> rfl
  rw [hsign]
  cases s <;> cases t <;> simp [Sign.apply, div_neg, neg_div]

theorem sub_eq_add_neg_unpacked (u v : UnpackedFloat) :
    UnpackedFloat.sub Format.binary64 u v = UnpackedFloat.add Format.binary64 u v.neg := by
  cases u with
  | notANumber => cases v <;> rfl
  | infinity s => cases v <;> rfl
  | zero s => cases v <;> rfl
  | finite s m e hm =>
    cases v with
    | finite t n f hn =>
      have hsign (k l : Int) : s.apply k - t.apply l = s.apply k + (-t).apply l := by
        cases t with
        | negative => exact Int.sub_neg _ _
        | positive => exact Int.sub_eq_add_neg
      simp only [UnpackedFloat.sub, UnpackedFloat.add, UnpackedFloat.neg, hsign]
    | _ => rfl

theorem unpackedValue_neg (u : UnpackedFloat) : unpackedValue u.neg = -unpackedValue u := by
  cases u with
  | finite s m e hm =>
    have hsign : (-s).apply m = -s.apply m := by
      cases s with
      | negative => exact (Int.neg_neg _).symm
      | positive => rfl
    simp [UnpackedFloat.neg, unpackedValue, hsign]
  | _ => simp [UnpackedFloat.neg, unpackedValue]

section

variable {u v : UnpackedFloat} (hu : Canonical u) (hv : Canonical v)
  (fu : u.isFinite = true) (fv : v.isFinite = true)

include hu hv fu fv

theorem roundsTo_add :
    RoundsTo (unpackedValue u + unpackedValue v) (UnpackedFloat.add Format.binary64 u v) := by
  cases u with
  | infinity | notANumber => cases fu
  | zero s =>
    cases v with
    | infinity | notANumber => cases fv
    | zero t =>
      simp only [UnpackedFloat.add, unpackedValue, add_zero]
      split_ifs <;> exact roundsTo_zero _
    | finite t n f hn =>
      rw [show unpackedValue (.zero s) = 0 from rfl, zero_add]
      exact RoundsTo.self hv fv
  | finite s m e hm =>
    cases v with
    | infinity | notANumber => cases fv
    | zero t =>
      rw [show unpackedValue (.zero t) = 0 from rfl, add_zero]
      exact RoundsTo.self hu fu
    | finite t n f hn =>
      have := roundsTo_normalize
        (s.apply (decreaseExponent m e (min e f)).1 + t.apply (decreaseExponent n f (min e f)).1)
        (min e f) .positive
      rwa [Int.cast_add, add_mul, decreaseExponent_min s m (min_le_left e f),
        decreaseExponent_min t n (min_le_right e f)] at this

theorem roundsTo_sub :
    RoundsTo (unpackedValue u - unpackedValue v) (UnpackedFloat.sub Format.binary64 u v) := by
  rw [sub_eq_add_neg_unpacked, sub_eq_add_neg, ← unpackedValue_neg]
  refine roundsTo_add hu ?_ fu ?_
  · cases v <;> exact hv
  · cases v <;> exact fv

theorem roundsTo_mul :
    RoundsTo (unpackedValue u * unpackedValue v) (UnpackedFloat.mul Format.binary64 u v) := by
  cases u with
  | infinity | notANumber => cases fu
  | zero s =>
    rw [show unpackedValue (.zero s) = 0 from rfl, zero_mul]
    cases v with
    | infinity | notANumber => cases fv
    | zero | finite => exact roundsTo_zero _
  | finite s m e hm =>
    cases v with
    | infinity | notANumber => cases fv
    | zero t =>
      rw [show unpackedValue (.zero t) = 0 from rfl, mul_zero]
      exact roundsTo_zero _
    | finite t n f hn =>
      have hexp : e + f ≤ max ((m * n).log2 + (e + f) - 52) (-1074) := by
        by_cases hfull : 2 ^ 52 ≤ m * n
        · have := (Nat.le_log2 (Nat.mul_pos hm hn).ne').2 hfull
          omega
        · have hle := Nat.le_mul_of_pos_right m hn
          have hle' := Nat.le_mul_of_pos_left n hm
          have he := hu.2.2.resolve_left (by omega)
          have hf := hv.2.2.resolve_left (by omega)
          omega
      have := roundsTo_roundWithAccuracy (s * t) (approximates_exact (m * n)) hexp
      rwa [zpow_add₀ (by norm_num), Nat.cast_mul, ← mul_assoc, ← apply_mul_apply,
        mul_mul_mul_comm] at this

end

/-- The accuracy of a quotient of natural numbers. -/
theorem approximates_quotient (m : Nat) {n : Nat} (hn : 0 < n) :
    Approximates (.ofMantissaAndAccuracy (m / n) (accuracyOfFraction (m % n) n)) (m / n) := by
  have hpos : (0 : ℚ) < n := by exact_mod_cast hn
  have hdiv : (m : ℚ) / n = (m / n : Nat) + (m % n : Nat) / n := by
    have : (m : ℚ) = (m / n : Nat) * n + (m % n : Nat) := by
      exact_mod_cast (Nat.div_add_mod' m n).symm
    rw [div_eq_iff hpos.ne', add_mul, div_mul_cancel₀ _ hpos.ne', ← this]
  have hmod : ((m % n : Nat) : ℚ) / n < 1 := by
    rw [div_lt_one hpos]
    exact_mod_cast Nat.mod_lt m hn
  rw [hdiv, accuracyOfFraction]
  split_ifs with hzero
  · rw [hzero, Nat.cast_zero, zero_div, add_zero]
    exact approximates_exact _
  · have hrest : 0 < ((m % n : Nat) : ℚ) / n := by
      have : (0 : ℚ) < (m % n : Nat) := by exact_mod_cast Nat.pos_of_ne_zero hzero
      positivity
    rcases horder : compare (2 * (m % n)) n with _ | _ | _
    · have : ((m % n : Nat) : ℚ) / n < 1 / 2 := by
        rw [div_lt_div_iff₀ hpos two_pos, one_mul, mul_comm]
        exact_mod_cast compare_lt_iff_lt.1 horder
      exact ⟨lt_add_of_pos_right _ hrest, add_lt_add_right this _⟩
    · have : ((m % n : Nat) : ℚ) / n = 1 / 2 := by
        rw [div_eq_div_iff hpos.ne' two_ne_zero, one_mul, mul_comm]
        exact_mod_cast compare_eq_iff_eq.1 horder
      exact congrArg _ this
    · have : 1 / 2 < ((m % n : Nat) : ℚ) / n := by
        rw [div_lt_div_iff₀ two_pos hpos, one_mul, mul_comm]
        exact_mod_cast compare_gt_iff_gt.1 horder
      exact ⟨add_lt_add_right this _, add_lt_add_right hmod _⟩

theorem two_pow_le_quotient {m n k : Nat} (hm : 0 < m) (hn : 0 < n)
    (hlog : n.log2 + 53 ≤ m.log2 + k) : 2 ^ 52 ≤ m * 2 ^ k / n := by
  rw [Nat.le_div_iff_mul_le hn]
  calc 2 ^ 52 * n ≤ 2 ^ 52 * 2 ^ (n.log2 + 1) := by gcongr; exact Nat.lt_log2_self.le
    _ = 2 ^ (n.log2 + 53) := by rw [← pow_add]; congr 1; omega
    _ ≤ 2 ^ (m.log2 + k) := Nat.pow_le_pow_right (by norm_num) hlog
    _ = 2 ^ m.log2 * 2 ^ k := pow_add ..
    _ ≤ m * 2 ^ k := by gcongr; exact Nat.log2_self_le hm.ne'

/-- The shift before a division leaves a quotient of at least 53 bits, or the smallest exponent. -/
theorem roundsTo_div_of_finite (s t : Sign) {m n : Nat} (e f : Int) (hm : 0 < m) (hn : 0 < n) :
    RoundsTo (s.apply m * 2 ^ e / (t.apply n * 2 ^ f))
      (UnpackedFloat.div Format.binary64 (.finite s m e hm) (.finite t n f hn)) := by
  simp only [UnpackedFloat.div, divCore, Nat.shiftLeft_eq]
  obtain ⟨T, hT⟩ : ∃ T, T = min (e - f) (Format.binary64.targetExponent
    (totalExponent m e - totalExponent n f)) := ⟨_, rfl⟩
  have hT' : T = min (e - f) (max (m.log2 + e - n.log2 - f - 53) (-1074)) := by
    rw [hT, totalExponent, totalExponent, Format.targetExponent]
    simp only [Format.mantissaBits, Format.minExponent]
    push_cast
    omega
  obtain ⟨k, hk⟩ : ∃ k : Nat, (k : Int) = e - f - T := ⟨(e - f - T).toNat, by omega⟩
  rw [← hT, ← hk, Int.toNat_natCast]
  have hexp : T ≤ max ((m * 2 ^ k / n).log2 + T - 52) (-1074) := by
    by_cases hsmall : T ≤ -1074
    · omega
    · have hle : 2 ^ 52 ≤ m * 2 ^ k / n := two_pow_le_quotient hm hn (by omega)
      have := (Nat.le_log2 (by omega)).2 hle
      omega
  have := roundsTo_roundWithAccuracy (s / t) (approximates_quotient (m * 2 ^ k) hn) hexp
  have hvalue : ((m * 2 ^ k : Nat) : ℚ) / n * 2 ^ T = m / n * (2 ^ e / 2 ^ f) := by
    rw [show T = e - f - k by omega, zpow_sub₀ (by norm_num), zpow_sub₀ (by norm_num), zpow_natCast]
    push_cast
    field_simp
  rwa [hvalue, ← mul_assoc, ← apply_div_apply, div_mul_div_comm] at this

theorem roundsTo_div {u v : UnpackedFloat} (fu : u.isFinite = true) (fv : v.isFinite = true)
    (hv : unpackedValue v ≠ 0) :
    RoundsTo (unpackedValue u / unpackedValue v) (UnpackedFloat.div Format.binary64 u v) := by
  cases v with
  | infinity | notANumber => cases fv
  | zero t => exact absurd rfl hv
  | finite t n f hn =>
    cases u with
    | infinity | notANumber => cases fu
    | zero s =>
      rw [show unpackedValue (.zero s) = 0 from rfl, zero_div]
      exact roundsTo_zero _
    | finite s m e hm => exact roundsTo_div_of_finite s t e f hm hn

/-- A double that is a neighbour of an exact number, or an overflow of such a neighbour. -/
def Rounded (q : ℚ) (x : Float) : Prop :=
  ∃ u, RoundsTo q u ∧ x = .ofModel (.pack u)

theorem canonical_unpack_toModel (x : Float) :
    Canonical x.toModel.unpack ∧ Storable x.toModel.unpack :=
  canonical_unpack x.toModel.toBits.toBitVec

theorem onGrid_of_canonical {u : UnpackedFloat} (hu : Canonical u) : OnGrid (unpackedValue u) := by
  cases u with
  | finite s m e hm =>
    obtain ⟨hlt, hlow, -⟩ := hu
    refine ⟨s.apply m, e, ?_, hlow, rfl⟩
    cases s <;> simp only [Sign.apply, abs_neg, Nat.abs_cast] <;> exact_mod_cast hlt
  | _ => exact ⟨0, 0, by norm_num, by norm_num, by simp [unpackedValue]⟩

theorem onGrid_toRat (x : Float) : OnGrid (toRat x) :=
  onGrid_of_canonical (canonical_unpack_toModel x).1

theorem abs_unpackedValue (s : Sign) (m : Nat) (e : Int) (hm : 0 < m) :
    |unpackedValue (.finite s m e hm)| = m * 2 ^ e := by
  have : (0 : ℚ) < m * 2 ^ e := by positivity
  cases s <;> simp [unpackedValue, Sign.apply, abs_of_pos this]

/-- What is no larger than a double can be stored. -/
theorem storable_of_le {u : UnpackedFloat} {x : Float} (hu : Canonical u)
    (h : |unpackedValue u| ≤ |toRat x|) : Storable u := by
  cases u with
  | finite s m e hm =>
    obtain ⟨hcanonical, hstorable⟩ := canonical_unpack_toModel x
    rw [toRat] at h
    generalize x.toModel.unpack = v at h hcanonical hstorable
    rw [abs_unpackedValue] at h
    cases v with
    | finite t n f hn =>
      rw [abs_unpackedValue] at h
      refine not_lt.1 fun hlt => absurd h (not_le.2 ?_)
      exact magnitude_lt_of_exponent_lt hcanonical hu (lt_of_le_of_lt hstorable hlt)
    | _ =>
      have : (0 : ℚ) < m * 2 ^ e := by positivity
      exact absurd h (not_le.2 (by simpa [unpackedValue] using this))
  | _ => trivial

/-- A rounded number between two doubles is a double. -/
theorem RoundsTo.between {q : ℚ} {u : UnpackedFloat} {a b : Float} (hu : RoundsTo q u)
    (hle : toRat a ≤ unpackedValue u) (hge : unpackedValue u ≤ toRat b) :
    (Float.ofModel (.pack u)).isFinite = true ∧ toRat a ≤ toRat (.ofModel (.pack u)) ∧
      toRat (.ofModel (.pack u)) ≤ toRat b := by
  have hstorable : Storable u := by
    obtain h | h := le_total 0 (unpackedValue u)
    · refine storable_of_le (x := b) hu.canonical ?_
      rw [abs_of_nonneg h]
      exact hge.trans (le_abs_self _)
    · refine storable_of_le (x := a) hu.canonical ?_
      rw [abs_of_nonpos h]
      exact (neg_le_neg hle).trans (neg_le_abs _)
  have hunpack : (Float.Model.pack u).unpack = u := unpack_pack hu.canonical hstorable
  have hvalue : toRat (.ofModel (.pack u)) = unpackedValue u := congrArg unpackedValue hunpack
  rw [hvalue]
  exact ⟨(congrArg UnpackedFloat.isFinite hunpack).trans hu.isFinite, hle, hge⟩

theorem roundsTo_self {x : Float} (hx : x.isFinite = true) :
    RoundsTo (toRat x) x.toModel.unpack :=
  .self (canonical_unpack_toModel x).1 hx

namespace Rounded

variable {p q r : ℚ} {x a b : Float}

/-- A result keeps to the doubles that the exact result keeps to. -/
theorem between (h : Rounded q x) (ha : toRat a ≤ q) (hb : q ≤ toRat b) :
    x.isFinite = true ∧ toRat a ≤ toRat x ∧ toRat x ≤ toRat b := by
  obtain ⟨u, hu, rfl⟩ := h
  exact hu.between (hu.neighbour.le_of_le _ (onGrid_toRat a) ha)
    (hu.neighbour.ge_of_ge _ (onGrid_toRat b) hb)

/-- A finite result is the nearest number to the exact one. -/
theorem roundsTo (h : Rounded q x) (hx : x.isFinite = true) : RoundsTo q x.toModel.unpack := by
  obtain ⟨u, hu, rfl⟩ := h
  have hstorable : Storable u := by
    cases u with
    | finite s m e hm =>
      refine not_lt.1 fun he => ?_
      change (UnpackedFloat.unpack _ (UnpackedFloat.pack _ _)).isFinite = true at hx
      rw [pack_of_not_storable he] at hx
      cases s <;> exact absurd hx (by decide)
    | _ => trivial
  have hunpack : (Float.Model.pack u).unpack = u := unpack_pack hu.canonical hstorable
  change RoundsTo q (Float.Model.pack u).unpack
  rwa [hunpack]

theorem neighbour (h : Rounded q x) (hx : x.isFinite = true) : Neighbour q (toRat x) :=
  (h.roundsTo hx).neighbour

/-- A result is between the results for a smaller and a larger number. -/
theorem mono (h : Rounded q x) (ha : RoundsTo p a.toModel.unpack)
    (hb : RoundsTo r b.toModel.unpack) (hpq : p ≤ q) (hqr : q ≤ r) :
    x.isFinite = true ∧ toRat a ≤ toRat x ∧ toRat x ≤ toRat b := by
  obtain ⟨u, hu, rfl⟩ := h
  have hgrid := onGrid_of_canonical hu.canonical
  exact hu.between (ha.nearest.mono hu.nearest (onGrid_toRat a) hgrid hpq)
    (hu.nearest.mono hb.nearest hgrid (onGrid_toRat b) hqr)

/-- A result is exact if the exact one is on the grid and no larger than a double. -/
theorem exact (h : Rounded q x) (hq : OnGrid q) (hb : |q| ≤ |toRat b|) :
    x.isFinite = true ∧ toRat x = q := by
  obtain ⟨u, hu, rfl⟩ := h
  have hvalue : unpackedValue u = q := hu.neighbour.eq hq
  have hunpack : (Float.Model.pack u).unpack = u :=
    unpack_pack hu.canonical (storable_of_le hu.canonical (hvalue ▸ hb))
  exact ⟨(congrArg UnpackedFloat.isFinite hunpack).trans hu.isFinite,
    (congrArg unpackedValue hunpack).trans hvalue⟩

end Rounded

section

variable {x y : Float} (hx : x.isFinite = true) (hy : y.isFinite = true)

include hx hy

theorem rounded_add : Rounded (toRat x + toRat y) (x + y) :=
  ⟨_, roundsTo_add (canonical_unpack _).1 (canonical_unpack _).1 hx hy, rfl⟩

theorem rounded_sub : Rounded (toRat x - toRat y) (x - y) :=
  ⟨_, roundsTo_sub (canonical_unpack _).1 (canonical_unpack _).1 hx hy, rfl⟩

theorem rounded_mul : Rounded (toRat x * toRat y) (x * y) :=
  ⟨_, roundsTo_mul (canonical_unpack _).1 (canonical_unpack _).1 hx hy, rfl⟩

theorem rounded_div (hne : toRat y ≠ 0) : Rounded (toRat x / toRat y) (x / y) :=
  ⟨_, roundsTo_div hx hy hne, rfl⟩

end

theorem rounded_toFloat (n : UInt64) : Rounded n.toNat n.toFloat := by
  have := roundsTo_normalize n.toNat 0 .positive
  rw [zpow_zero, mul_one, Int.cast_natCast] at this
  exact ⟨_, this, rfl⟩

end Appraisal
