import Appraisal.Number.Rounding
import Appraisal.Proofs.Float.Rounding
import Mathlib

/-!
# Whole numbers among the doubles

The whole numbers up to `2 ^ 53` are doubles. The whole number below a double is found exactly, and
a double from 1 to 5 without a part behind the point is one of the five whole numbers there.
-/

namespace Appraisal

open Float.Model (UnpackedFloat Format)
open Float.Model.UnpackedFloat (Sign)

theorem toRat_of_unpack {x : Float} {u : UnpackedFloat} (h : x.toModel.unpack = u) :
    toRat x = unpackedValue u :=
  congrArg unpackedValue h

theorem toRat_two_pow_53 : toRat (.ofBits 0x4340000000000000) = 2 ^ 53 := by
  rw [toRat_of_unpack (u := .finite .positive (2 ^ 52) 1 (by norm_num)) rfl]
  norm_num [unpackedValue, Sign.apply]

theorem toRat_two_pow_52 : toRat 4503599627370496.0 = 2 ^ 52 := by
  rw [toRat_of_unpack (u := .finite .positive (2 ^ 52) 0 (by norm_num)) rfl]
  norm_num [unpackedValue, Sign.apply]

theorem onGrid_intCast {n : Int} (hn : |n| < 2 ^ 53) : OnGrid n :=
  ⟨n, 0, hn, by norm_num, by simp⟩

theorem onGrid_natCast {n : Nat} (hn : n < 2 ^ 53) : OnGrid n := by
  rw [← Int.cast_natCast]
  exact onGrid_intCast (by rw [Nat.abs_cast]; exact_mod_cast hn)

theorem Rounded.exact_integer {n : Int} {x : Float} (h : Rounded n x) (hn : |n| < 2 ^ 53) :
    x.isFinite = true ∧ toRat x = n := by
  refine h.exact (onGrid_intCast hn) (b := .ofBits 0x4340000000000000) ?_
  rw [toRat_two_pow_53, ← Int.cast_abs]
  have : ((|n| : Int) : ℚ) < 2 ^ 53 := by exact_mod_cast hn
  exact this.le.trans (le_abs_self _)

theorem Rounded.exact_natural {n : Nat} {x : Float} (h : Rounded n x) (hn : n < 2 ^ 53) :
    x.isFinite = true ∧ toRat x = n := by
  rw [← Int.cast_natCast] at h ⊢
  exact h.exact_integer (by rw [Nat.abs_cast]; exact_mod_cast hn)

theorem toFloat_exact {n : UInt64} (hn : n.toNat < 2 ^ 53) :
    n.toFloat.isFinite = true ∧ toRat n.toFloat = n.toNat :=
  (rounded_toFloat n).exact_natural hn

/-- A literal of up to 53 bits is what it says. -/
theorem ofNat_exact {n : Nat} (hn : n < 2 ^ 53) :
    (Float.ofNat n).isFinite = true ∧ toRat (Float.ofNat n) = n := by
  have htoNat : n.toUInt64.toNat = n := UInt64.toNat_ofNat_of_lt' (by simp [UInt64.size]; omega)
  obtain ⟨hfinite, hvalue⟩ := toFloat_exact (n := n.toUInt64) (by rwa [htoNat])
  have hone : toRat (.ofBits 0x3FF0000000000000) = 1 := by
    rw [toRat_of_unpack (u := .finite .positive (2 ^ 52) (-52) (by norm_num)) rfl]
    norm_num [unpackedValue, Sign.apply]
  have hmul := rounded_mul hfinite (y := .ofBits 0x3FF0000000000000) rfl
  rw [hvalue, hone, mul_one, htoNat] at hmul
  have heq : Float.ofNat n = n.toUInt64.toFloat * .ofBits 0x3FF0000000000000 := by
    change Float.ofScientific n false 0 = _
    rw [Float.ofScientific, dif_pos ⟨hn, by norm_num⟩]
    rfl
  rw [heq]
  exact hmul.exact_natural hn

theorem literal_exact {n : Nat} (hn : n < 2 ^ 53) :
    (OfNat.ofNat n : Float).isFinite = true ∧ toRat (OfNat.ofNat n) = n :=
  ofNat_exact hn

theorem unpack_neg (x : Float) : (-x).toModel.unpack = x.toModel.unpack.neg := by
  obtain ⟨hcanonical, hstorable⟩ := canonical_unpack_toModel x
  refine unpack_pack (u := x.toModel.unpack.neg) ?_ ?_
  · cases h : x.toModel.unpack <;> rw [h] at hcanonical <;> exact hcanonical
  · cases h : x.toModel.unpack <;> rw [h] at hstorable <;> exact hstorable

theorem unpack_abs (x : Float) : x.abs.toModel.unpack = x.toModel.unpack.abs := by
  obtain ⟨hcanonical, hstorable⟩ := canonical_unpack_toModel x
  refine unpack_pack (u := x.toModel.unpack.abs) ?_ ?_
  · cases h : x.toModel.unpack <;> rw [h] at hcanonical <;> exact hcanonical
  · cases h : x.toModel.unpack <;> rw [h] at hstorable <;> exact hstorable

theorem toRat_neg (x : Float) : toRat (-x) = -toRat x := by
  rw [toRat, unpack_neg, unpackedValue_neg, toRat]

theorem toRat_abs (x : Float) : toRat x.abs = |toRat x| := by
  rw [toRat, unpack_abs, toRat]
  cases x.toModel.unpack with
  | finite s m e hm =>
    rw [abs_unpackedValue]
    simp [UnpackedFloat.abs, unpackedValue, Sign.apply]
  | _ => simp [UnpackedFloat.abs, unpackedValue]

theorem isFinite_neg (x : Float) : (-x).isFinite = x.isFinite := by
  change (-x).toModel.unpack.isFinite = x.toModel.unpack.isFinite
  rw [unpack_neg]
  cases x.toModel.unpack <;> rfl

theorem isFinite_abs (x : Float) : x.abs.isFinite = x.isFinite := by
  change x.abs.toModel.unpack.isFinite = x.toModel.unpack.isFinite
  rw [unpack_abs]
  cases x.toModel.unpack <;> rfl

/-- A number between two finite ones is finite. -/
theorem isFinite_of_le_of_le {x a b : Float} (ha : a.isFinite = true) (hb : b.isFinite = true)
    (hax : a ≤ x) (hxb : x ≤ b) : x.isFinite = true := by
  change x.toModel.unpack.isFinite = true
  change a.toModel.unpack.isFinite = true at ha
  change b.toModel.unpack.isFinite = true at hb
  replace hax : (a.toModel.unpack.compare x.toModel.unpack).any (·.isLE) = true :=
    of_decide_eq_true hax
  replace hxb : (x.toModel.unpack.compare b.toModel.unpack).any (·.isLE) = true :=
    of_decide_eq_true hxb
  generalize a.toModel.unpack = a, b.toModel.unpack = b, x.toModel.unpack = x at *
  cases x with
  | zero | finite => rfl
  | notANumber => cases a <;> cases hax
  | infinity s =>
    cases s with
    | positive =>
      cases b with
      | infinity | notANumber => cases hb
      | zero | finite => cases hxb
    | negative =>
      cases a with
      | infinity | notANumber => cases ha
      | zero s => cases hax
      | finite s => cases s <;> cases hax

/-- A double is its rational number, unless that is zero. -/
theorem eq_of_toRat_eq {x y : Float} (hx : x.isFinite = true) (hy : y.isFinite = true)
    (h : toRat x = toRat y) (hne : toRat x ≠ 0) : x = y := by
  have hbeq := (beq_iff_toRat_eq hx hy).2 h
  obtain ⟨-, -, rfl | ⟨rfl, -⟩ | ⟨rfl, -⟩⟩ := Float.beq_iff_ne_nan_and_eq.1 hbeq
  · rfl
  · exact absurd rfl hne
  · exact absurd rfl hne

/-- Every double is a multiple of the smallest positive one. -/
theorem exists_toRat_eq (x : Float) : ∃ k : Int, toRat x = k * 2 ^ (-1074 : Int) := by
  obtain ⟨m, e, -, he, h⟩ := onGrid_toRat x
  obtain ⟨n, rfl⟩ := Int.le.dest he
  refine ⟨m * 2 ^ n, ?_⟩
  rw [h, zpow_add₀ (by norm_num), zpow_natCast, Int.cast_mul, Int.cast_pow, Int.cast_ofNat,
    mul_assoc, mul_comm (2 ^ n)]

/-- Two different multiples of the smallest positive double are apart by at least that. -/
theorem le_sub_of_lt {q r : ℚ} (hq : ∃ k : Int, q = k * 2 ^ (-1074 : Int))
    (hr : ∃ k : Int, r = k * 2 ^ (-1074 : Int)) (hlt : q < r) :
    (2 : ℚ) ^ (-1074 : Int) ≤ r - q := by
  obtain ⟨k, rfl⟩ := hq
  obtain ⟨l, rfl⟩ := hr
  have hunit : (0 : ℚ) < 2 ^ (-1074 : Int) := by positivity
  have hkl : k < l := by exact_mod_cast lt_of_mul_lt_mul_right hlt hunit.le
  have hone : (1 : ℚ) ≤ ((l - k : Int) : ℚ) := by exact_mod_cast (by omega : 1 ≤ l - k)
  rw [← sub_mul, ← Int.cast_sub]
  exact le_mul_of_one_le_left hunit.le hone

/-- A difference is not lost: only equal numbers have the difference zero. -/
theorem toRat_eq_of_sub_eq_zero {x y : Float} (hx : x.isFinite = true) (hy : y.isFinite = true)
    (hfinite : (x - y).isFinite = true) (h : toRat (x - y) = 0) : toRat x = toRat y := by
  have hneighbour := (rounded_sub hx hy).neighbour hfinite
  rw [h] at hneighbour
  have hunit : (0 : ℚ) < 2 ^ (-1074 : Int) := by positivity
  have hgrid : OnGrid (2 ^ (-1074 : Int)) :=
    ⟨1, -1074, by norm_num, le_rfl, by rw [Int.cast_one, one_mul]⟩
  obtain hlt | heq | hgt := lt_trichotomy (toRat x) (toRat y)
  · have hgap := le_sub_of_lt (exists_toRat_eq x) (exists_toRat_eq y) hlt
    have := hneighbour.ge_of_ge _ hgrid.neg (by linarith)
    linarith
  · exact heq
  · have hgap := le_sub_of_lt (exists_toRat_eq y) (exists_toRat_eq x) hgt
    have := hneighbour.le_of_le _ hgrid hgap
    linarith

theorem toNat_ofNatClamp (n : Nat) : (UInt64.ofNatClamp n).toNat = min n (2 ^ 64 - 1) := by
  unfold UInt64.ofNatClamp
  split_ifs with hn
  · exact (min_eq_left (Nat.le_sub_one_of_lt hn)).symm
  · exact (min_eq_right ((Nat.sub_le _ _).trans (not_lt.1 hn))).symm

theorem roundToInt_positive (m : Nat) (e : Int) :
    UnpackedFloat.roundToInt .positive m e = ⌊(m : ℚ) * 2 ^ e⌋₊ := by
  simp only [UnpackedFloat.roundToInt, UnpackedFloat.decreaseExponent,
    UnpackedFloat.shiftToExponent, mantissa_shiftRight, mantissa_ofMantissaAndAccuracy, Sign.apply,
    Nat.shiftLeft_eq]
  obtain ⟨k, rfl | rfl⟩ := e.eq_nat_or_neg
  · simp only [sub_zero, Int.toNat_natCast, sub_self, Int.toNat_zero, pow_zero, Nat.div_one]
    rw [zpow_natCast]
    congr 1
    exact_mod_cast (Nat.floor_natCast (R := ℚ) (m * 2 ^ k)).symm
  · have hzero : (-(k : Int) - 0).toNat = 0 := by omega
    have hk : (0 - (-(k : Int) - (0 : Nat))).toNat = k := by omega
    rw [hzero, hk, pow_zero, mul_one, zpow_neg, zpow_natCast, ← div_eq_mul_inv]
    congr 1
    exact_mod_cast (Nat.floor_div_eq_div (K := ℚ) m (2 ^ k)).symm

/-- The whole part of a number that is not negative, as far as 64 bits hold it. -/
theorem toNat_toUInt64_of_nonneg {x : Float} (hx : x.isFinite = true) (h : 0 ≤ toRat x) :
    x.toUInt64.toNat = min ⌊toRat x⌋₊ (2 ^ 64 - 1) := by
  change (UInt64.ofNatClamp (x.toModel.unpack.toInt 0 (UInt64.size - 1)).toNat).toNat = _
  change x.toModel.unpack.isFinite = true at hx
  rw [toRat] at *
  generalize x.toModel.unpack = u at *
  have hint : u.toInt 0 (UInt64.size - 1) = ⌊unpackedValue u⌋₊ := by
    cases u with
    | infinity | notANumber => cases hx
    | zero => simp [UnpackedFloat.toInt, unpackedValue]
    | finite s m e hm =>
      cases s with
      | positive =>
        have hvalue : unpackedValue (.finite .positive m e hm) = m * 2 ^ e := by
          simp [unpackedValue, Sign.apply]
        rw [hvalue]
        exact roundToInt_positive m e
      | negative => exact absurd h unpackedValue_negative_lt.not_ge
  rw [hint, Int.toNat_natCast, toNat_ofNatClamp]

theorem toNat_toUInt64 {x : Float} (hx : x.isFinite = true) (hlow : 0 ≤ toRat x)
    (hhigh : toRat x < 2 ^ 64) : x.toUInt64.toNat = ⌊toRat x⌋₊ := by
  rw [toNat_toUInt64_of_nonneg hx hlow]
  refine min_eq_left (Nat.le_sub_one_of_lt ((Nat.floor_lt hlow).2 ?_))
  exact_mod_cast hhigh

/-- The first bit is the sign. -/
theorem positive_iff_toBits_lt {x : Float} {s : Sign} {m : Nat} {e : Int} {hm : 0 < m}
    (h : x.toModel.unpack = .finite s m e hm) : s = .positive ↔ x.toBits.toNat < 2 ^ 63 := by
  have hsign : s = .ofBitVec
      (@UnpackedFloat.unpackSign Format.binary64 x.toModel.toBits.toBitVec) := by
    rw [Float.Model.unpack, UnpackedFloat.unpack] at h
    simp only [] at h
    split_ifs at h <;> cases h <;> rfl
  have hbit : (@UnpackedFloat.unpackSign Format.binary64 x.toModel.toBits.toBitVec).toNat =
      x.toBits.toNat / 2 ^ 63 := by
    change x.toModel.toBits.toNat >>> 63 % 2 ^ (63 - 63 + 1) = x.toModel.toBits.toNat / 2 ^ 63
    have hlt : x.toModel.toBits.toNat < 2 ^ 64 := x.toModel.toBits.toNat_lt
    rw [Nat.shiftRight_eq_div_pow]
    omega
  have hzero : @UnpackedFloat.unpackSign Format.binary64 x.toModel.toBits.toBitVec = 0#1 ↔
      x.toBits.toNat < 2 ^ 63 := by
    rw [← BitVec.toNat_inj, hbit, BitVec.toNat_ofNat, Nat.zero_mod]
    omega
  rw [hsign, ← hzero, Sign.ofBitVec]
  split_ifs with hbits <;> simp [hbits]

theorem toBits_lt_of_pos {x : Float} (h : 0 < toRat x) : x.toBits.toNat < 2 ^ 63 := by
  rw [toRat] at h
  cases hunpack : x.toModel.unpack with
  | finite s m e hm =>
    rw [← positive_iff_toBits_lt hunpack]
    cases s with
    | positive => rfl
    | negative =>
      rw [hunpack] at h
      exact absurd h unpackedValue_negative_lt.not_gt
  | _ =>
    rw [hunpack] at h
    exact absurd h (lt_irrefl 0)

theorem not_toBits_lt_of_neg {x : Float} (h : toRat x < 0) : ¬ x.toBits.toNat < 2 ^ 63 := by
  rw [toRat] at h
  cases hunpack : x.toModel.unpack with
  | finite s m e hm =>
    rw [← positive_iff_toBits_lt hunpack]
    rintro rfl
    rw [hunpack] at h
    exact h.not_gt unpackedValue_pos
  | _ =>
    rw [hunpack] at h
    exact absurd h (lt_irrefl 0)

namespace Number

theorem abs_lt_iff {x : Float} (hx : x.isFinite = true) :
    x.abs < 4503599627370496.0 ↔ |toRat x| < 2 ^ 52 := by
  rw [lt_iff_toRat_lt ((isFinite_abs x).trans hx) rfl, toRat_abs, toRat_two_pow_52]

/-- The whole part of the size of a small number. -/
theorem toFloat_toUInt64_abs {x : Float} (hx : x.isFinite = true) (h : |toRat x| < 2 ^ 52) :
    x.abs.toUInt64.toFloat.isFinite = true ∧
      toRat x.abs.toUInt64.toFloat = ⌊|toRat x|⌋₊ := by
  have hnonneg : 0 ≤ toRat x.abs := by rw [toRat_abs]; exact abs_nonneg _
  have hlt : toRat x.abs < 2 ^ 64 := by rw [toRat_abs]; linarith
  have hnat : x.abs.toUInt64.toNat = ⌊|toRat x|⌋₊ := by
    rw [toNat_toUInt64 ((isFinite_abs x).trans hx) hnonneg hlt, toRat_abs]
  have hfloor : ⌊|toRat x|⌋₊ < 2 ^ 52 :=
    (Nat.floor_lt (abs_nonneg _)).2 (by exact_mod_cast h)
  obtain ⟨hfinite, hvalue⟩ := toFloat_exact (n := x.abs.toUInt64) (by omega)
  exact ⟨hfinite, hvalue.trans (by rw [hnat])⟩

/-- The whole part of a small number that is not negative. -/
theorem wholePart_of_lt {x : Float} (hx : x.isFinite = true) (hlow : 0 ≤ toRat x)
    (hhigh : toRat x < 2 ^ 52) :
    (wholePart x).isFinite = true ∧ toRat (wholePart x) = ⌊toRat x⌋₊ := by
  have hsmall : |toRat x| < 2 ^ 52 := by rwa [abs_of_nonneg hlow]
  obtain ⟨hfinite, hvalue⟩ := toFloat_toUInt64_abs hx hsmall
  rw [abs_of_nonneg hlow] at hvalue
  simp only [wholePart, if_pos ((abs_lt_iff hx).2 hsmall)]
  split_ifs with hsign
  · exact ⟨hfinite, hvalue⟩
  · -- Without a positive sign the number is zero.
    have hzero : ⌊toRat x⌋₊ = 0 := by
      rw [le_antisymm (not_lt.1 (hsign ∘ toBits_lt_of_pos)) hlow, Nat.floor_zero]
    rw [hzero, Nat.cast_zero] at hvalue ⊢
    exact ⟨(isFinite_neg _).trans hfinite, by rw [toRat_neg, hvalue, neg_zero]⟩

/-- The whole part of a small negative number. -/
theorem wholePart_of_neg {x : Float} (hx : x.isFinite = true) (hneg : toRat x < 0)
    (hlow : -2 ^ 52 < toRat x) :
    (wholePart x).isFinite = true ∧ toRat (wholePart x) = -⌊-toRat x⌋₊ := by
  have hsmall : |toRat x| < 2 ^ 52 := by
    rw [abs_of_neg hneg]
    linarith
  obtain ⟨hfinite, hvalue⟩ := toFloat_toUInt64_abs hx hsmall
  rw [abs_of_neg hneg] at hvalue
  simp only [wholePart, if_pos ((abs_lt_iff hx).2 hsmall)]
  split_ifs with hsign
  · exact absurd hsign (not_toBits_lt_of_neg hneg)
  · exact ⟨(isFinite_neg _).trans hfinite, by rw [toRat_neg, hvalue]⟩

/-- The test of a scale accepts the whole numbers from 1 to 5 and no others. -/
theorem onScale_iff (x : Float) :
    (fraction x == 0 && 1 ≤ x && x ≤ 5) = true ↔ ∃ n, 1 ≤ n ∧ n ≤ 5 ∧ x = .ofNat n := by
  constructor
  · intro h
    simp only [Bool.and_eq_true, decide_eq_true_eq] at h
    obtain ⟨⟨hfraction, hone⟩, hfive⟩ := h
    obtain ⟨honeFinite, honeValue⟩ := literal_exact (n := 1) (by norm_num)
    obtain ⟨hfiveFinite, hfiveValue⟩ := literal_exact (n := 5) (by norm_num)
    have hx := isFinite_of_le_of_le honeFinite hfiveFinite hone hfive
    rw [le_iff_toRat_le honeFinite hx, honeValue] at hone
    rw [le_iff_toRat_le hx hfiveFinite, hfiveValue] at hfive
    have hlow : 1 ≤ toRat x := by exact_mod_cast hone
    have hhigh : toRat x ≤ 5 := by exact_mod_cast hfive
    obtain ⟨hwhole, hvalue⟩ := wholePart_of_lt hx (by linarith) (by linarith)
    have hzero : (fraction x).isFinite = true ∧ toRat (fraction x) = 0 := by
      obtain ⟨-, -, h | ⟨h, -⟩ | ⟨h, -⟩⟩ := Float.beq_iff_ne_nan_and_eq.1 hfraction <;>
        rw [h] <;> exact ⟨rfl, rfl⟩
    have hsize := (toRat_eq_of_sub_eq_zero hx hwhole hzero.1 hzero.2).trans hvalue
    obtain ⟨n, hn⟩ : ∃ n, n = ⌊toRat x⌋₊ := ⟨_, rfl⟩
    rw [← hn] at hsize
    have hle : n ≤ 5 := by exact_mod_cast hsize ▸ hhigh
    obtain ⟨hfinite, hofNat⟩ := ofNat_exact (n := n) (by omega)
    refine ⟨n, ?_, hle, eq_of_toRat_eq hx hfinite (hsize.trans hofNat.symm) (by linarith)⟩
    exact_mod_cast hsize ▸ hlow
  · rintro ⟨n, hone, hfive, rfl⟩
    interval_cases n <;> decide +kernel

/-- The number below is found for every number in the range of the 64-bit integers. -/
theorem toNatural_floor {x : Float} (hx : x.isFinite = true) (hlow : 0 ≤ toRat x)
    (hhigh : toRat x < 2 ^ 64) : toNatural (floor x) = ⌊toRat x⌋₊ := by
  by_cases hsmall : toRat x < 2 ^ 52
  · obtain ⟨hfinite, hvalue⟩ := wholePart_of_lt hx hlow hsmall
    have hle : toRat (wholePart x) ≤ toRat x := hvalue.trans_le (Nat.floor_le hlow)
    have hsame : ¬ x < wholePart x := by
      rwa [lt_iff_toRat_lt hx hfinite, not_lt]
    simp only [floor, if_neg hsame]
    rw [toNatural, toNat_toUInt64 hfinite (by rw [hvalue]; positivity) (hle.trans_lt hhigh),
      hvalue, Nat.floor_natCast]
  · have habs : ¬ x.abs < 4503599627370496.0 := by
      rwa [abs_lt_iff hx, abs_of_nonneg hlow]
    have hsame : ¬ x < x := by rw [lt_iff_toRat_lt hx hx]; exact lt_irrefl _
    simp only [floor, wholePart, if_neg habs, if_neg hsame]
    exact toNat_toUInt64 hx hlow hhigh

theorem toNatural_ofNat {n : Nat} (hn : n < 2 ^ 53) : toNatural (.ofNat n) = n := by
  obtain ⟨hfinite, hvalue⟩ := ofNat_exact hn
  have hlt : (n : ℚ) < 2 ^ 53 := by exact_mod_cast hn
  rw [toNatural, toNat_toUInt64 hfinite (by rw [hvalue]; positivity) (by rw [hvalue]; linarith),
    hvalue, Nat.floor_natCast]

end Number

end Appraisal
