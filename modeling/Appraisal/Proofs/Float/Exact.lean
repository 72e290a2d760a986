import Appraisal.Proofs.Float
import Mathlib

/-!
# The rational number of a double

A finite double is a sign, a mantissa and an exponent, in the one form that fills the mantissa
unless the exponent is the smallest. In that form the comparisons of doubles are the comparisons
of the rational numbers they stand for.
-/

namespace Appraisal

open Float.Model (UnpackedFloat Format)
open Float.Model.UnpackedFloat (Sign pack unpack packComponents unpackSign unpackExponent
  unpackMantissa)

/-- The rational number of an unpacked double; 0 for an infinite or undefined one. -/
def unpackedValue : UnpackedFloat → ℚ
  | .finite s m e _ => s.apply m * 2 ^ e
  | _ => 0

/-- A mantissa of 53 bits that is full, or not full at the smallest exponent. The exponent has no
upper bound here. -/
def Canonical : UnpackedFloat → Prop
  | .finite _ m e _ => m < 2 ^ 53 ∧ -1074 ≤ e ∧ (2 ^ 52 ≤ m ∨ e = -1074)
  | _ => True

/-- The exponent is one that a double can have. -/
def Storable : UnpackedFloat → Prop
  | .finite _ _ e _ => e ≤ 971
  | _ => True

/-- The rational number of a double; 0 for an infinite or undefined one. -/
def toRat (x : Float) : ℚ :=
  unpackedValue x.toModel.unpack

theorem toNat_implicit_append (mantissa : BitVec 52) :
    (1#1 ++ mantissa).toNat = 2 ^ 52 + mantissa.toNat := by
  rw [BitVec.toNat_append, ← Nat.shiftLeft_add_eq_or_of_lt mantissa.isLt]
  simp [Nat.shiftLeft_eq]

theorem canonical_unpack (b : BitVec Format.binary64.numBits) :
    Canonical (unpack Format.binary64 b) ∧ Storable (unpack Format.binary64 b) := by
  unfold unpack
  extract_lets mantissa exponentBits exponent signBits sign
  have hmantissa : mantissa.toNat < 2 ^ 52 := mantissa.isLt
  have hexponent : exponentBits.toNat < 2 ^ 11 := exponentBits.isLt
  have hbias : exponent = exponentBits.toNat - 1075 := by simp [exponent, Format.exponentBias]
  split_ifs with hfull hzero hsmall hnone
  · exact ⟨trivial, trivial⟩
  · exact ⟨trivial, trivial⟩
  · exact ⟨trivial, trivial⟩
  · have hnil : exponentBits.toNat = 0 := by simp [hsmall]
    simp only [Canonical, Storable]
    omega
  · have hlow : exponentBits.toNat ≠ 0 := fun h => hsmall (BitVec.eq_of_toNat_eq (by simpa using h))
    have hhigh : exponentBits.toNat ≠ 2047 :=
      fun h => hfull (BitVec.eq_of_toNat_eq (by simpa using h))
    have hvalue : (1#1 ++ mantissa).toNat = 2 ^ 52 + mantissa.toNat :=
      toNat_implicit_append mantissa
    simp only [Canonical, Storable, hvalue]
    omega

theorem unpack_normal (s : Sign) {e : BitVec 11} (m : BitVec 52) (hones : e ≠ -1#11)
    (hzeros : e ≠ 0#11) :
    unpack Format.binary64 (packComponents Format.binary64 s e m) =
      .finite s (2 ^ 52 + m.toNat) (e.toNat - 1075) (by omega) := by
  simp only [unpack, Float.Model.UnpackedFloat.unpackMantissa_packComponents,
    Float.Model.UnpackedFloat.unpackExponent_packComponents,
    Float.Model.UnpackedFloat.unpackSign_packComponents,
    Float.Model.UnpackedFloat.Sign.ofBitVec_toBitVec, hones, hzeros, if_false,
    toNat_implicit_append]
  rfl

theorem unpack_subnormal (s : Sign) {m : BitVec 52} (hm : m ≠ 0#52) :
    unpack Format.binary64 (packComponents Format.binary64 s 0#11 m) =
      .finite s m.toNat (-1074) (by simpa [BitVec.toNat_pos, BitVec.pos_iff_ne_zero] using hm) := by
  simp only [unpack, Float.Model.UnpackedFloat.unpackMantissa_packComponents,
    Float.Model.UnpackedFloat.unpackExponent_packComponents,
    Float.Model.UnpackedFloat.unpackSign_packComponents,
    Float.Model.UnpackedFloat.Sign.ofBitVec_toBitVec]
  rw [if_neg (by decide), if_pos trivial, dif_neg hm]
  rfl

/-- What is packed in the canonical form is unpacked again, if its exponent can be stored. -/
theorem unpack_pack {u : UnpackedFloat} (hu : Canonical u) (hs : Storable u) :
    unpack Format.binary64 (pack Format.binary64 u) = u := by
  cases u with
  | notANumber => rfl
  | infinity s => cases s <;> rfl
  | zero s => cases s <;> rfl
  | finite s m e hm =>
    obtain ⟨hlt, hlow, hfull⟩ := hu
    simp only [Storable] at hs
    obtain ⟨b, hb⟩ : ∃ b : Nat, (b : Int) = e + 1075 := ⟨(e + 1075).toNat, by omega⟩
    have hbiased : (e + (Format.binary64.exponentBias : Nat) + (52 : Nat)).toNat = b := by
      simp [Format.exponentBias]
      omega
    rw [pack]
    simp only [hbiased, Format.mantissaBits]
    rw [if_neg (by omega)]
    by_cases hnormal : 2 ^ 52 ≤ m
    · have hlog : m.log2 = 52 := (Nat.log2_eq_iff hm.ne').2 ⟨hnormal, hlt⟩
      have hbits : (BitVec.ofNat 11 b).toNat = b := by
        rw [BitVec.toNat_ofNat, Nat.mod_eq_of_lt (by omega)]
      rw [if_pos (by omega), unpack_normal]
      · congr 1
        · rw [BitVec.toNat_ofNat]
          omega
        · omega
      · exact ne_of_apply_ne BitVec.toNat (by simp [hbits]; omega)
      · exact ne_of_apply_ne BitVec.toNat (by simp [hbits]; omega)
    · have hlog : m.log2 < 52 := (Nat.log2_lt hm.ne').2 (by omega)
      have hbits : (BitVec.ofNat 52 m).toNat = m := by
        rw [BitVec.toNat_ofNat, Nat.mod_eq_of_lt (by omega)]
      have hne : BitVec.ofNat 52 m ≠ 0#52 := ne_of_apply_ne BitVec.toNat (by simp [hbits]; omega)
      rw [if_neg (by omega), unpack_subnormal s hne]
      congr 1
      omega

/-- An exponent that cannot be stored is an overflow. -/
theorem pack_of_not_storable {s : Sign} {m : Nat} {e : Int} {hm : 0 < m} (he : 971 < e) :
    pack Format.binary64 (.finite s m e hm) = pack Format.binary64 (.infinity s) := by
  have hbiased : 2 ^ 11 ≤ (e + (Format.binary64.exponentBias : Nat) + (52 : Nat)).toNat + 1 := by
    simp [Format.exponentBias]
    omega
  exact if_pos hbiased

theorem magnitude_lt_of_exponent_lt {s t : Sign} {m n : Nat} {e f : Int} {hm : 0 < m} {hn : 0 < n}
    (hx : Canonical (.finite s m e hm)) (hy : Canonical (.finite t n f hn)) (h : e < f) :
    (m : ℚ) * 2 ^ e < n * 2 ^ f := by
  obtain ⟨hlt, hlow, -⟩ := hx
  obtain ⟨-, -, hfull⟩ := hy
  have hn : 2 ^ 52 ≤ n := hfull.resolve_right (by omega)
  calc (m : ℚ) * 2 ^ e < 2 ^ 53 * 2 ^ e := by
        have : (m : ℚ) < 2 ^ 53 := by exact_mod_cast hlt
        gcongr
    _ = 2 ^ 52 * 2 ^ (e + 1) := by rw [zpow_add₀ (by norm_num)]; ring
    _ ≤ n * 2 ^ f := by
        have : (2 : ℚ) ^ 52 ≤ n := by exact_mod_cast hn
        gcongr
        · norm_num
        · omega

theorem compare_magnitude {s t : Sign} {m n : Nat} {e f : Int} {hm : 0 < m} {hn : 0 < n}
    (hx : Canonical (.finite s m e hm)) (hy : Canonical (.finite t n f hn)) :
    (compare e f).then (compare m n) = compare ((m : ℚ) * 2 ^ e) (n * 2 ^ f) := by
  obtain h | rfl | h := lt_trichotomy e f
  · rw [compare_lt_iff_lt.2 h, compare_lt_iff_lt.2 (magnitude_lt_of_exponent_lt hx hy h)]
    rfl
  · have hpow : (0 : ℚ) < 2 ^ e := by positivity
    rw [compare_eq_iff_eq.2 rfl, Ordering.eq_then]
    obtain h | rfl | h := lt_trichotomy m n
    · rw [compare_lt_iff_lt.2 h, compare_lt_iff_lt.2]
      exact mul_lt_mul_of_pos_right (by exact_mod_cast h) hpow
    · rw [compare_eq_iff_eq.2 rfl, compare_eq_iff_eq.2 rfl]
    · rw [compare_gt_iff_gt.2 h, compare_gt_iff_gt.2]
      exact mul_lt_mul_of_pos_right (by exact_mod_cast h) hpow
  · rw [compare_gt_iff_gt.2 h, compare_gt_iff_gt.2 (magnitude_lt_of_exponent_lt hy hx h)]
    rfl

theorem unpackedValue_pos {m : Nat} {e : Int} {hm : 0 < m} :
    0 < unpackedValue (.finite .positive m e hm) := by
  simp only [unpackedValue, Sign.apply]
  positivity

theorem unpackedValue_negative_lt {m : Nat} {e : Int} {hm : 0 < m} :
    unpackedValue (.finite .negative m e hm) < 0 := by
  simp only [unpackedValue, Sign.apply, Int.cast_neg, Int.cast_natCast, neg_mul]
  exact neg_neg_of_pos (by positivity)

theorem compare_neg_neg (a b : ℚ) : compare (-a) (-b) = compare b a := by
  simp only [LinearOrder.compare_eq_compareOfLessAndEq, compareOfLessAndEq, neg_lt_neg_iff,
    neg_inj, eq_comm]

/-- Canonical numbers are compared as the rational numbers they stand for. -/
theorem compare_unpacked {u v : UnpackedFloat} (hu : Canonical u) (hv : Canonical v)
    (fu : u.isFinite = true) (fv : v.isFinite = true) :
    u.compare v = some (compare (unpackedValue u) (unpackedValue v)) := by
  cases u with
  | infinity | notANumber => cases fu
  | zero s =>
    cases v with
    | infinity | notANumber => cases fv
    | zero t => exact congrArg some (compare_eq_iff_eq.2 rfl).symm
    | finite t n f hn =>
      cases t with
      | positive => exact congrArg some (compare_lt_iff_lt.2 unpackedValue_pos).symm
      | negative => exact congrArg some (compare_gt_iff_gt.2 unpackedValue_negative_lt).symm
  | finite s m e hm =>
    cases v with
    | infinity | notANumber => cases fv
    | zero t =>
      cases s with
      | positive => exact congrArg some (compare_gt_iff_gt.2 unpackedValue_pos).symm
      | negative => exact congrArg some (compare_lt_iff_lt.2 unpackedValue_negative_lt).symm
    | finite t n f hn =>
      cases s with
      | positive =>
        cases t with
        | positive =>
          simp only [UnpackedFloat.compare, compare_magnitude hu hv, unpackedValue, Sign.apply,
            Int.cast_natCast]
        | negative =>
          refine congrArg some (compare_gt_iff_gt.2 ?_).symm
          exact unpackedValue_negative_lt.trans unpackedValue_pos
      | negative =>
        cases t with
        | positive =>
          refine congrArg some (compare_lt_iff_lt.2 ?_).symm
          exact unpackedValue_negative_lt.trans unpackedValue_pos
        | negative =>
          simp only [UnpackedFloat.compare, compare_magnitude hu hv, unpackedValue, Sign.apply,
            Int.cast_neg, Int.cast_natCast, neg_mul]
          rw [← Std.OrientedOrd.eq_swap, compare_neg_neg]

section

variable {x y : Float} (hx : x.isFinite = true) (hy : y.isFinite = true)

include hx hy

theorem compare_eq_compare_toRat :
    x.toModel.compare y.toModel = some (compare (toRat x) (toRat y)) :=
  compare_unpacked (canonical_unpack _).1 (canonical_unpack _).1 hx hy

theorem le_iff_toRat_le : x ≤ y ↔ toRat x ≤ toRat y := by
  change decide ((x.toModel.compare y.toModel).any (·.isLE) = true) = true ↔ _
  rw [decide_eq_true_eq, compare_eq_compare_toRat hx hy, Option.any_some, Ordering.isLE_iff_ne_gt,
    compare_gt_iff_gt, not_lt]

theorem lt_iff_toRat_lt : x < y ↔ toRat x < toRat y := by
  change decide ((x.toModel.compare y.toModel == some .lt) = true) = true ↔ _
  rw [decide_eq_true_eq, compare_eq_compare_toRat hx hy, beq_iff_eq, Option.some_inj,
    compare_lt_iff_lt]

theorem beq_iff_toRat_eq : (x == y) = true ↔ toRat x = toRat y := by
  change (x.toModel.compare y.toModel == some .eq) = true ↔ _
  rw [compare_eq_compare_toRat hx hy, beq_iff_eq, Option.some_inj, compare_eq_iff_eq]

theorem not_lt_iff_le : ¬ x < y ↔ y ≤ x := by
  rw [lt_iff_toRat_lt hx hy, le_iff_toRat_le hy hx, not_lt]

end

end Appraisal
