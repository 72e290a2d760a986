import Appraisal.Decimal.Shortest
import Mathlib

/-!
# The numbers that a double stands for

The shortest decimal of a double lies between the halfway points to its neighbours, and on one of
them only if the mantissa is even. So different doubles have different decimals. That seventeen
digits suffice is not needed for it.
-/

namespace Appraisal.Decimal

/-- Splits a power into the parts that the exact fractions are made of. -/
theorem zpow_mul_pow_toNat {b : ℚ} (hb : b ≠ 0) (e : Int) :
    b ^ e * b ^ (-e).toNat = b ^ e.toNat := by
  rw [← zpow_natCast, ← zpow_natCast, ← zpow_add₀ hb]
  congr 1
  omega

namespace Scaled

def value (s : Scaled) : ℚ :=
  s.digits * 10 ^ s.exponent

theorem value_stripZeros (fuel : Nat) (s : Scaled) : (s.stripZeros fuel).value = s.value := by
  induction fuel generalizing s with
  | zero => rfl
  | succ fuel ih =>
    rw [stripZeros]
    split
    · rename_i h
      obtain ⟨n, hn⟩ : ∃ n, s.digits = 10 * n := ⟨s.digits / 10, by omega⟩
      rw [ih, value, value, hn, Nat.mul_div_cancel_left n (by decide), zpow_add₀ (by norm_num)]
      push_cast
      ring
    · rfl

end Scaled

namespace Dyadic

/-- A mantissa of 53 bits that is full, or not full at the smallest exponent. -/
structure IsCanonical (d : Dyadic) : Prop where
  mantissa_lt : d.mantissa < 2 ^ 53
  exponent_ge : -1074 ≤ d.exponent
  full : 2 ^ 52 ≤ d.mantissa ∨ d.exponent = -1074

theorem isCanonical_ofBits (bits : Nat) : (ofBits bits).IsCanonical := by
  have hfraction : bits % Nat.pow 2 52 < Nat.pow 2 52 := Nat.mod_lt _ (by decide)
  simp only [ofBits]
  split
  · exact ⟨by simp only [Nat.pow_eq] at *; omega, le_rfl, .inr rfl⟩
  · exact ⟨by simp only [Nat.pow_eq] at *; omega, by simp only; omega, .inl (Nat.le_add_right _ _)⟩

/-- The halfway point to the next double below; negative for zero, which has none. -/
def below (d : Dyadic) : ℚ :=
  (4 * d.mantissa - if d.narrowBelow then 1 else 2) * 2 ^ d.exponent / 4

/-- The halfway point to the next double above. -/
def above (d : Dyadic) : ℚ :=
  (4 * d.mantissa + 2) * 2 ^ d.exponent / 4

/-- A number rounds to a magnitude if it is between the halfway points, which both round to the
even mantissa of the two that they are between. -/
structure Rounds (d : Dyadic) (r : ℚ) : Prop where
  below_le : d.below ≤ r
  le_above : r ≤ d.above
  inside : d.mantissa % 2 ≠ 0 → d.below < r ∧ r < d.above

/-- One mantissa or exponent comes before another in the order of their magnitudes. -/
def Before (d d' : Dyadic) : Prop :=
  d.exponent < d'.exponent ∨ d.exponent = d'.exponent ∧ d.mantissa < d'.mantissa

namespace IsCanonical

variable {d d' : Dyadic}

/-- At equal exponents the halfway points meet only if the mantissas are next to each other. -/
theorem above_le_below_of_mantissa (hexponent : d.exponent = d'.exponent)
    (hmantissa : d.mantissa < d'.mantissa) :
    d.above ≤ d'.below ∧ (d.mantissa % 2 = 0 → d'.mantissa % 2 = 0 → d.above < d'.below) := by
  have hpow : (0 : ℚ) < 2 ^ d'.exponent := by positivity
  have hstep : (d.mantissa : ℚ) + 1 ≤ d'.mantissa := by exact_mod_cast hmantissa
  have hgap : (if d'.narrowBelow then (1 : ℚ) else 2) ≤ 2 := by split <;> norm_num
  rw [above, below, hexponent]
  constructor
  · gcongr
    linarith
  · intro heven heven'
    have hstep : (d.mantissa : ℚ) + 2 ≤ d'.mantissa := by
      exact_mod_cast (by omega : d.mantissa + 2 ≤ d'.mantissa)
    gcongr
    linarith

/-- The greatest mantissa is odd, so a halfway point to the next exponent does not belong to it. -/
theorem above_le_below_of_exponent (h : d.IsCanonical) (h' : d'.IsCanonical)
    (hexponent : d.exponent < d'.exponent) :
    d.above ≤ d'.below ∧ (d.mantissa % 2 = 0 → d'.mantissa % 2 = 0 → d.above < d'.below) := by
  have hpow : (0 : ℚ) < 2 ^ d.exponent := by positivity
  have hfull : 2 ^ 52 ≤ d'.mantissa := by
    have := h'.full
    have := h.exponent_ge
    omega
  have hstart : (2 : ℚ) ^ 54 - 1 ≤ 4 * d'.mantissa - if d'.narrowBelow then 1 else 2 := by
    by_cases hleast : d'.mantissa = 2 ^ 52
    · have hnarrow : d'.narrowBelow = true := by
        simp only [narrowBelow, hleast]
        have := h.exponent_ge
        simp
        omega
      rw [hnarrow, hleast]
      norm_num
    · have hmore : (2 : ℚ) ^ 52 + 1 ≤ d'.mantissa := by
        exact_mod_cast (by omega : 2 ^ 52 + 1 ≤ d'.mantissa)
      have hgap : (if d'.narrowBelow then (1 : ℚ) else 2) ≤ 2 := by split <;> norm_num
      linarith
  have hbelow : ((2 : ℚ) ^ 55 - 2) * 2 ^ d.exponent / 4 ≤ d'.below := by
    have hdouble : (2 : ℚ) ^ (d.exponent + 1) ≤ 2 ^ d'.exponent := by
      gcongr
      · norm_num
      · omega
    calc ((2 : ℚ) ^ 55 - 2) * 2 ^ d.exponent / 4
        = ((2 : ℚ) ^ 54 - 1) * 2 ^ (d.exponent + 1) / 4 := by
          rw [zpow_add_one₀ (by norm_num)]
          ring
      _ ≤ (4 * (d'.mantissa : ℚ) - if d'.narrowBelow then 1 else 2) * 2 ^ d'.exponent / 4 := by
          gcongr
  have hlast : (d.mantissa : ℚ) + 1 ≤ 2 ^ 53 := by exact_mod_cast h.mantissa_lt
  constructor
  · refine le_trans ?_ hbelow
    rw [above]
    gcongr
    linarith
  · intro heven _
    have hlast : (d.mantissa : ℚ) + 2 ≤ 2 ^ 53 := by
      have := h.mantissa_lt
      exact_mod_cast (by omega : d.mantissa + 2 ≤ 2 ^ 53)
    refine lt_of_lt_of_le ?_ hbelow
    rw [above]
    gcongr
    linarith

theorem not_rounds_of_before (h : d.IsCanonical) (h' : d'.IsCanonical) (hbefore : d.Before d')
    {r : ℚ} (hr : d.Rounds r) : ¬ d'.Rounds r := by
  intro hr'
  obtain ⟨hle, hlt⟩ :
      d.above ≤ d'.below ∧ (d.mantissa % 2 = 0 → d'.mantissa % 2 = 0 → d.above < d'.below) := by
    rcases hbefore with hexponent | ⟨hexponent, hmantissa⟩
    · exact above_le_below_of_exponent h h' hexponent
    · exact above_le_below_of_mantissa hexponent hmantissa
  have hbelow := hr'.below_le
  have habove := hr.le_above
  by_cases heven : d.mantissa % 2 = 0
  · by_cases heven' : d'.mantissa % 2 = 0
    · linarith [hlt heven heven']
    · linarith [(hr'.inside heven').1]
  · linarith [(hr.inside heven).2]

/-- No number rounds to two doubles. -/
theorem eq_of_rounds (h : d.IsCanonical) (h' : d'.IsCanonical) {r : ℚ} (hr : d.Rounds r)
    (hr' : d'.Rounds r) : d = d' := by
  have hnot : ¬ d.Before d' := fun hbefore => h.not_rounds_of_before h' hbefore hr hr'
  have hnot' : ¬ d'.Before d := fun hbefore => h'.not_rounds_of_before h hbefore hr' hr
  simp only [Before] at hnot hnot'
  have hparts : d.mantissa = d'.mantissa ∧ d.exponent = d'.exponent := by omega
  cases d
  cases d'
  exact congrArg₂ Dyadic.mk hparts.1 hparts.2

end IsCanonical

variable {d : Dyadic}

theorem cast_high (d : Dyadic) :
    ((Interval.ofDyadic d).high : ℚ) = d.above * (Interval.ofDyadic d).unit := by
  have hpow := zpow_mul_pow_toNat (b := 2) (by norm_num) d.exponent
  simp only [Interval.ofDyadic, above, denominator, Nat.pow_eq]
  push_cast
  rw [← hpow]
  ring

theorem cast_low (hd : 0 < d.mantissa) :
    ((Interval.ofDyadic d).low : ℚ) = d.below * (Interval.ofDyadic d).unit := by
  have hpow := zpow_mul_pow_toNat (b := 2) (by norm_num) d.exponent
  have hgap : (if d.narrowBelow then 1 else 2) ≤ 4 * d.mantissa := by split <;> omega
  simp only [Interval.ofDyadic, below, denominator, Nat.pow_eq]
  push_cast [Nat.cast_sub hgap]
  rw [← hpow]
  ring

theorem unit_pos (d : Dyadic) : (0 : ℚ) < (Interval.ofDyadic d).unit := by
  have := d.denominator_pos
  simp only [Interval.ofDyadic]
  positivity

end Dyadic

/-- What is found on a grid is in the interval, and not at its ends unless it is closed. -/
theorem onGrid?_value {tie : Tie} {i : Interval} {k : Int} {s : Scaled}
    (h : onGrid? tie i k = some s) :
    (i.low ≤ s.value * i.unit ∧ s.value * i.unit ≤ i.high) ∧
      (i.closed = false → i.low < s.value * i.unit ∧ s.value * i.unit < i.high) := by
  obtain ⟨n, hs, hn⟩ : ∃ n : Nat, s = ⟨n, k⟩ ∧
      Interval.contains ⟨i.low * 10 ^ (-k).toNat, i.value * 10 ^ (-k).toNat,
        i.high * 10 ^ (-k).toNat, i.unit, i.closed⟩ (n * (i.unit * 10 ^ k.toNat)) = true := by
    unfold onGrid? at h
    extract_lets up fine step below nearest other at h
    split at h
    · rename_i hnearest
      exact ⟨nearest, (Option.some.inj h).symm, hnearest⟩
    · split at h
      · rename_i hother
        exact ⟨other, (Option.some.inj h).symm, hother⟩
      · cases h
  have hpow : (0 : ℚ) < 10 ^ (-k).toNat := by positivity
  have hvalue : s.value * i.unit = ((n * (i.unit * 10 ^ k.toNat) : Nat) : ℚ) / 10 ^ (-k).toNat := by
    have hsplit := zpow_mul_pow_toNat (b := (10 : ℚ)) (by norm_num) k
    rw [hs, Scaled.value, eq_div_iff hpow.ne']
    push_cast
    rw [← hsplit]
    ring
  rw [hvalue, le_div_iff₀ hpow, div_le_iff₀ hpow, lt_div_iff₀ hpow, div_lt_iff₀ hpow]
  unfold Interval.contains at hn
  split at hn
  · rename_i hclosed
    simp only [Bool.and_eq_true, decide_eq_true_eq] at hn
    exact ⟨by exact_mod_cast hn, fun h => absurd hclosed (by simpa using h)⟩
  · simp only [Bool.and_eq_true, decide_eq_true_eq] at hn
    have hweak := And.intro hn.1.le hn.2.le
    exact ⟨by exact_mod_cast hweak, fun _ => by exact_mod_cast hn⟩

theorem rounds_of_onGrid? {tie : Tie} {d : Dyadic} {k : Int} {s : Scaled} (hd : 0 < d.mantissa)
    (h : onGrid? tie (Interval.ofDyadic d) k = some s) : d.Rounds s.value := by
  obtain ⟨hweak, hstrict⟩ := onGrid?_value h
  have hunit := d.unit_pos
  simp only [Dyadic.cast_low hd, Dyadic.cast_high, mul_le_mul_iff_of_pos_right hunit,
    mul_lt_mul_iff_of_pos_right hunit] at hweak hstrict
  exact ⟨hweak.1, hweak.2, fun hodd => hstrict (by simpa [Interval.ofDyadic] using hodd)⟩

theorem value_exact {d : Dyadic} {places : Nat} {e : Int} (hdvd : d.denominator ∣ 10 ^ places)
    (he : e = -places) :
    Scaled.value ⟨d.numerator * Nat.pow 10 places / d.denominator, e⟩ =
      d.mantissa * 2 ^ d.exponent := by
  have hne : (d.denominator : ℚ) ≠ 0 := by exact_mod_cast d.denominator_pos.ne'
  have hexact : d.mantissa * (2 : ℚ) ^ d.exponent * d.denominator = d.numerator := by
    simp only [Dyadic.numerator, Dyadic.denominator, Nat.pow_eq]
    push_cast
    rw [mul_assoc, zpow_mul_pow_toNat (by norm_num)]
  rw [Scaled.value, Nat.pow_eq, Nat.mul_div_assoc _ hdvd, Nat.cast_mul, Nat.cast_div hdvd hne,
    ← hexact, he, zpow_neg, zpow_natCast]
  push_cast
  field_simp

theorem rounds_exact {d : Dyadic} {places : Nat} {e : Int} (hdvd : d.denominator ∣ 10 ^ places)
    (he : e = -places) :
    d.Rounds (Scaled.value ⟨d.numerator * Nat.pow 10 places / d.denominator, e⟩) := by
  have hpow : (0 : ℚ) < 2 ^ d.exponent := by positivity
  have hgap : (0 : ℚ) < if d.narrowBelow then 1 else 2 := by split <;> norm_num
  have hbelow : d.below < d.mantissa * 2 ^ d.exponent := by
    rw [Dyadic.below]
    nlinarith
  have habove : d.mantissa * 2 ^ d.exponent < d.above := by
    rw [Dyadic.above]
    nlinarith
  rw [value_exact hdvd he]
  exact ⟨hbelow.le, habove.le, fun _ => ⟨hbelow, habove⟩⟩

theorem Dyadic.IsCanonical.denominator_dvd {d : Dyadic} (h : d.IsCanonical) {places : Nat}
    (hplaces : 1074 ≤ places) : d.denominator ∣ 10 ^ places := by
  have := h.exponent_ge
  exact (pow_dvd_pow 2 (by omega)).trans (pow_dvd_pow_of_dvd (by norm_num) places)

/-- The shortest decimal rounds to the magnitude that it was looked for. -/
theorem rounds_shortest {d : Dyadic} (h : d.IsCanonical) (hd : 0 < d.mantissa) (tie : Tie) :
    d.Rounds (shortest tie d).value := by
  unfold shortest
  extract_lets i top found
  cases hfound : found with
  | none =>
    dsimp only
    generalize hplaces : (1074 : Nat) = places
    exact rounds_exact (h.denominator_dvd hplaces.le) (by omega)
  | some s =>
    obtain ⟨n, -, hn⟩ := List.exists_of_findSome?_eq_some hfound
    change d.Rounds (s.stripZeros 400).value
    rw [Scaled.value_stripZeros]
    exact rounds_of_onGrid? hd hn

end Appraisal.Decimal
