import Appraisal.Proofs.Number.Whole

/-!
# Bounds of computed numbers

Numbers that are not negative stay so under addition, multiplication and division, and they stay
below a double that the exact result stays below. What overflows is positive infinity. Numbers of
moderate size keep to rational bounds from both sides.
-/

namespace Appraisal

open Float.Model (UnpackedFloat Format)
open Float.Model.UnpackedFloat (Sign)

/-- A finite number from 0 to a bound. -/
structure UpTo (bound x : Float) : Prop where
  isFinite : x.isFinite = true
  nonneg : 0 ≤ toRat x
  le : toRat x ≤ toRat bound

theorem toRat_zero : toRat 0 = 0 := by
  simpa using (literal_exact (n := 0) (by norm_num)).2

theorem toRat_one : toRat 1 = 1 := by
  simpa using (literal_exact (n := 1) (by norm_num)).2

theorem toRat_ofNat (n : Nat) [n.AtLeastTwo] (hn : n < 2 ^ 53) :
    toRat (OfNat.ofNat n) = OfNat.ofNat n :=
  (literal_exact hn).2

theorem upTo_zero {bound : Float} (h : 0 ≤ toRat bound) : UpTo bound 0 :=
  ⟨rfl, toRat_zero.ge, toRat_zero.trans_le h⟩

theorem upTo_self {x : Float} (hx : x.isFinite = true) (h : 0 ≤ toRat x) : UpTo x x :=
  ⟨hx, h, le_rfl⟩

theorem UpTo.self {bound x : Float} (h : UpTo bound x) : UpTo x x :=
  upTo_self h.isFinite h.nonneg

namespace Rounded

variable {q : ℚ} {x bound : Float}

theorem upTo (h : Rounded q x) (hq : 0 ≤ q) (hle : q ≤ toRat bound) : UpTo bound x := by
  obtain ⟨hfinite, hlow, hhigh⟩ := h.between (a := 0) (by rwa [toRat_zero]) hle
  exact ⟨hfinite, by rwa [toRat_zero] at hlow, hhigh⟩

/-- A result is up to the result for a larger number. -/
theorem upTo_of_le {r : ℚ} (h : Rounded q x) (hr : RoundsTo r bound.toModel.unpack) (hq : 0 ≤ q)
    (hle : q ≤ r) : UpTo bound x := by
  have hzero : RoundsTo 0 (Float.toModel 0).unpack := toRat_zero ▸ roundsTo_self (x := 0) rfl
  obtain ⟨hfinite, hlow, hhigh⟩ := h.mono hzero hr hq hle
  exact ⟨hfinite, by rwa [toRat_zero] at hlow, hhigh⟩

theorem nonneg (h : Rounded q x) (hx : x.isFinite = true) (hq : 0 ≤ q) : 0 ≤ toRat x := by
  have hzero := onGrid_toRat 0
  rw [toRat_zero] at hzero
  exact (h.neighbour hx).le_of_le 0 hzero hq

/-- A number that is not negative overflows to positive infinity. -/
theorem isFinite_or_eq_infinity (h : Rounded q x) (hq : 0 ≤ q) :
    x.isFinite = true ∨ x = 1 / 0 := by
  obtain ⟨u, hu, rfl⟩ := h
  by_cases hstorable : Storable u
  · have hunpack : (Float.Model.pack u).unpack = u := unpack_pack hu.canonical hstorable
    exact .inl ((congrArg UnpackedFloat.isFinite hunpack).trans hu.isFinite)
  · refine .inr ?_
    cases u with
    | finite s m e hm =>
      cases s with
      | positive =>
        have hpack : Float.Model.UnpackedFloat.pack Format.binary64 (.finite .positive m e hm) =
            Float.Model.UnpackedFloat.pack Format.binary64 (.infinity .positive) :=
          pack_of_not_storable (not_le.1 hstorable)
        have hmodel : Float.Model.pack (.finite .positive m e hm) =
            Float.Model.pack (.infinity .positive) := by
          simp only [Float.Model.pack, hpack]
        rw [hmodel]
        rfl
      | negative =>
        have hzero := hu.neighbour.le_of_le 0 (toRat_zero ▸ onGrid_toRat 0) hq
        exact absurd hzero unpackedValue_negative_lt.not_ge
    | _ => exact absurd trivial hstorable

end Rounded

/-- Nothing finite comes out of a division by zero. -/
theorem isFinite_div_zero {x y : Float} (hy : y.isFinite = true) (h : toRat y = 0) :
    (x / y).isFinite = false := by
  have hzero : ∃ s, y.toModel.unpack = .zero s := by
    change y.toModel.unpack.isFinite = true at hy
    rw [toRat] at h
    generalize y.toModel.unpack = v at hy h ⊢
    cases v with
    | zero s => exact ⟨s, rfl⟩
    | infinity | notANumber => cases hy
    | finite s m e hm =>
      cases s with
      | positive => exact absurd h unpackedValue_pos.ne'
      | negative => exact absurd h unpackedValue_negative_lt.ne
  obtain ⟨s, hs⟩ := hzero
  rw [← Bool.not_eq_true]
  intro hfinite
  have hdiv : (UnpackedFloat.div Format.binary64 x.toModel.unpack
      y.toModel.unpack).isFinite = true :=
    isFinite_of_pack hfinite
  rw [hs] at hdiv
  cases hx : x.toModel.unpack <;> rw [hx] at hdiv <;> cases hdiv

section

variable {x : Float} (hx : x.isFinite = true)

include hx

theorem exists_unpack_of_pos (h : 0 < toRat x) :
    ∃ m e, ∃ hm : 0 < m, x.toModel.unpack = .finite .positive m e hm := by
  change x.toModel.unpack.isFinite = true at hx
  rw [toRat] at h
  generalize x.toModel.unpack = u at *
  cases u with
  | infinity | notANumber => cases hx
  | zero => exact absurd h (lt_irrefl 0)
  | finite s m e hm =>
    cases s with
    | positive => exact ⟨m, e, hm, rfl⟩
    | negative => exact absurd h unpackedValue_negative_lt.not_gt

theorem infinity_mul (h : 0 < toRat x) : 1 / 0 * x = 1 / 0 := by
  obtain ⟨m, e, hm, hunpack⟩ := exists_unpack_of_pos hx h
  change Float.ofModel (.pack (UnpackedFloat.mul Format.binary64 (.infinity .positive)
    x.toModel.unpack)) = _
  rw [hunpack]
  rfl

theorem infinity_div (h : 0 < toRat x) : 1 / 0 / x = 1 / 0 := by
  obtain ⟨m, e, hm, hunpack⟩ := exists_unpack_of_pos hx h
  change Float.ofModel (.pack (UnpackedFloat.div Format.binary64 (.infinity .positive)
    x.toModel.unpack)) = _
  rw [hunpack]
  rfl

theorem add_infinity : x + 1 / 0 = 1 / 0 := by
  change x.toModel.unpack.isFinite = true at hx
  change Float.ofModel (.pack (UnpackedFloat.add Format.binary64 x.toModel.unpack
    (.infinity .positive))) = _
  cases h : x.toModel.unpack with
  | infinity | notANumber =>
    rw [h] at hx
    cases hx
  | zero | finite => rfl

theorem div_infinity : (x / (1 / 0)).isFinite = true ∧ toRat (x / (1 / 0)) = 0 := by
  change x.toModel.unpack.isFinite = true at hx
  have hzero : ∃ s, UnpackedFloat.div Format.binary64 x.toModel.unpack (.infinity .positive) =
      .zero s := by
    cases h : x.toModel.unpack with
    | infinity | notANumber =>
      rw [h] at hx
      cases hx
    | zero | finite => exact ⟨_, rfl⟩
  obtain ⟨s, hs⟩ := hzero
  have hdiv : x / (1 / 0) = .ofModel (.pack (.zero s)) :=
    congrArg (fun u => Float.ofModel (.pack u)) hs
  rw [hdiv]
  cases s <;> exact ⟨rfl, rfl⟩

end

section

variable {a b c x y : Float}

theorem UpTo.add (hx : UpTo a x) (hy : UpTo b y) (h : toRat a + toRat b ≤ toRat c) :
    UpTo c (x + y) :=
  (rounded_add hx.isFinite hy.isFinite).upTo (add_nonneg hx.nonneg hy.nonneg)
    ((add_le_add hx.le hy.le).trans h)

theorem UpTo.mul (hx : UpTo a x) (hy : UpTo b y) (h : toRat a * toRat b ≤ toRat c) :
    UpTo c (x * y) :=
  (rounded_mul hx.isFinite hy.isFinite).upTo (mul_nonneg hx.nonneg hy.nonneg)
    ((mul_le_mul hx.le hy.le hy.nonneg (hx.nonneg.trans hx.le)).trans h)

/-- A share of a number is no larger than the number. -/
theorem UpTo.mul_share (hx : UpTo a x) (hy : UpTo 1 y) : UpTo a (x * y) :=
  hx.mul hy (by rw [toRat_one, mul_one])

theorem UpTo.div (hx : UpTo a x) (hy : y.isFinite = true) (hpos : 0 < toRat y)
    (h : toRat a ≤ toRat c * toRat y) : UpTo c (x / y) := by
  refine (rounded_div hx.isFinite hy hpos.ne').upTo (div_nonneg hx.nonneg hpos.le) ?_
  rw [div_le_iff₀ hpos]
  exact hx.le.trans h

theorem UpTo.add_of_isFinite (hx : UpTo a x) (hy : UpTo b y) (h : (x + y).isFinite = true) :
    UpTo (x + y) (x + y) :=
  upTo_self h ((rounded_add hx.isFinite hy.isFinite).nonneg h (add_nonneg hx.nonneg hy.nonneg))

theorem UpTo.mul_of_isFinite (hx : UpTo a x) (hy : UpTo b y) (h : (x * y).isFinite = true) :
    UpTo (x * y) (x * y) :=
  upTo_self h ((rounded_mul hx.isFinite hy.isFinite).nonneg h (mul_nonneg hx.nonneg hy.nonneg))

theorem UpTo.zero_le (h : UpTo a x) : 0 ≤ x := by
  rw [le_iff_toRat_le rfl h.isFinite, toRat_zero]
  exact h.nonneg

theorem UpTo.le_bound (h : UpTo a x) (ha : a.isFinite = true) : x ≤ a :=
  (le_iff_toRat_le h.isFinite ha).2 h.le

theorem UpTo.of_le (hx : x.isFinite = true) (ha : a.isFinite = true) (h : 0 ≤ x) (hle : x ≤ a) :
    UpTo a x :=
  ⟨hx, by rwa [le_iff_toRat_le rfl hx, toRat_zero] at h, by rwa [le_iff_toRat_le hx ha] at hle⟩

/-- Products keep the order, as computed. -/
theorem UpTo.mul_mono (hx : UpTo a x) (hy : UpTo b y) (h : (a * b).isFinite = true) :
    UpTo (a * b) (x * y) := by
  obtain ⟨ha, hb⟩ := isFinite_of_mul h
  have hle : toRat x * toRat y ≤ toRat a * toRat b :=
    mul_le_mul hx.le hy.le hy.nonneg (hx.nonneg.trans hx.le)
  exact (rounded_mul hx.isFinite hy.isFinite).upTo_of_le ((rounded_mul ha hb).roundsTo h)
    (mul_nonneg hx.nonneg hy.nonneg) hle

/-- Sums keep the order, as computed. -/
theorem UpTo.add_mono (hx : UpTo a x) (hy : UpTo b y) (h : (a + b).isFinite = true) :
    UpTo (a + b) (x + y) := by
  obtain ⟨ha, hb⟩ := isFinite_of_add h
  exact (rounded_add hx.isFinite hy.isFinite).upTo_of_le ((rounded_add ha hb).roundsTo h)
    (add_nonneg hx.nonneg hy.nonneg) (add_le_add hx.le hy.le)

/-- Quotients keep the order of the dividends, as computed. -/
theorem UpTo.div_mono (hx : UpTo a x) (hy : y.isFinite = true) (hpos : 0 < toRat y)
    (h : (a / y).isFinite = true) : UpTo (a / y) (x / y) := by
  have ha := isFinite_of_div h
  exact (rounded_div hx.isFinite hy hpos.ne').upTo_of_le ((rounded_div ha hy hpos.ne').roundsTo h)
    (div_nonneg hx.nonneg hpos.le) (div_le_div_of_nonneg_right hx.le hpos.le)

/-- What is left of a bound. -/
theorem UpTo.sub_from (hx : UpTo a x) (ha : a.isFinite = true) : UpTo a (a - x) :=
  (rounded_sub ha hx.isFinite).upTo (sub_nonneg.2 hx.le) (sub_le_self _ hx.nonneg)

end

theorem div_self_eq_one {x : Float} (hx : x.isFinite = true) (hpos : 0 < toRat x) : x / x = 1 := by
  have hrounded := rounded_div hx hx hpos.ne'
  rw [div_self hpos.ne'] at hrounded
  obtain ⟨hfinite, hlow, hhigh⟩ := hrounded.between (a := 1) (b := 1) toRat_one.le toRat_one.ge
  have heq : toRat 1 = toRat (x / x) := le_antisymm hlow hhigh
  exact (eq_of_toRat_eq rfl hfinite heq (by rw [toRat_one]; exact one_ne_zero)).symm

/-- Every double is below `2 ^ 1024`. -/
theorem toRat_lt (x : Float) : toRat x < 2 ^ (1024 : Int) := by
  obtain ⟨hcanonical, hstorable⟩ := canonical_unpack_toModel x
  rw [toRat]
  generalize x.toModel.unpack = u at *
  cases u with
  | finite s m e hm =>
    obtain ⟨hlt, -, -⟩ := hcanonical
    have hlt : (m : ℚ) < 2 ^ 53 := by exact_mod_cast hlt
    have hpow : (2 : ℚ) ^ e ≤ 2 ^ (971 : Int) := zpow_le_zpow_right₀ (by norm_num) hstorable
    calc unpackedValue (.finite s m e hm) ≤ m * 2 ^ e := by
          rw [← abs_unpackedValue s m e hm]
          exact le_abs_self _
      _ ≤ m * 2 ^ (971 : Int) := by gcongr
      _ < 2 ^ 53 * 2 ^ (971 : Int) := by gcongr
      _ = 2 ^ (1024 : Int) := by
          rw [← zpow_natCast, ← zpow_add₀ (by norm_num)]
          rfl
  | _ =>
    change (0 : ℚ) < 2 ^ (1024 : Int)
    positivity

theorem toRat_half : toRat 0.5 = 1 / 2 := by
  rw [toRat_of_unpack (u := .finite .positive (2 ^ 52) (-53) (by norm_num)) rfl]
  norm_num [unpackedValue, Sign.apply]

theorem unpackedValue_full (e : Int) (h : 0 < 2 ^ 52) :
    unpackedValue (.finite .positive (2 ^ 52) e h) = 2 ^ (52 + e) := by
  rw [unpackedValue, zpow_add₀ (by norm_num)]
  norm_num [Sign.apply]

theorem toRat_two_pow_1005 : toRat (.ofBits 0x7EC0000000000000) = 2 ^ (1005 : Int) :=
  (toRat_of_unpack (u := .finite .positive (2 ^ 52) 953 (by norm_num)) rfl).trans
    (unpackedValue_full 953 _)

theorem toRat_two_pow_1006 : toRat (.ofBits 0x7ED0000000000000) = 2 ^ (1006 : Int) :=
  (toRat_of_unpack (u := .finite .positive (2 ^ 52) 954 (by norm_num)) rfl).trans
    (unpackedValue_full 954 _)

theorem toRat_two_pow_1010 : toRat (.ofBits 0x7F10000000000000) = 2 ^ (1010 : Int) :=
  (toRat_of_unpack (u := .finite .positive (2 ^ 52) 958 (by norm_num)) rfl).trans
    (unpackedValue_full 958 _)

/-- A finite number between two rational ones. -/
structure Within (low high : ℚ) (x : Float) : Prop where
  isFinite : x.isFinite = true
  low_le : low ≤ toRat x
  le_high : toRat x ≤ high

/-- The number of a double that is far from overflowing. -/
structure Moderate (d : ℚ) : Prop where
  onGrid : OnGrid d
  abs_le : |d| ≤ 2 ^ 64

theorem Moderate.neg {d : ℚ} (h : Moderate d) : Moderate (-d) :=
  ⟨h.onGrid.neg, by rw [abs_neg]; exact h.abs_le⟩

theorem moderate_two_pow {e : Int} (hlow : -1074 ≤ e) (hhigh : e ≤ 64) : Moderate (2 ^ e) := by
  refine ⟨⟨1, e, by norm_num, hlow, by rw [Int.cast_one, one_mul]⟩, ?_⟩
  rw [abs_of_pos (by positivity), ← zpow_natCast]
  exact zpow_le_zpow_right₀ (by norm_num) hhigh

theorem moderate_natCast {n : Nat} (hn : n < 2 ^ 53) : Moderate n := by
  refine ⟨onGrid_natCast hn, ?_⟩
  rw [Nat.abs_cast]
  exact_mod_cast hn.le.trans (by norm_num)

theorem moderate_zero : Moderate 0 := by
  simpa using moderate_natCast (n := 0) (by norm_num)

theorem moderate_one : Moderate 1 := by
  simpa using moderate_natCast (n := 1) (by norm_num)

theorem moderate_ofNat (n : Nat) [n.AtLeastTwo] (hn : n < 2 ^ 53) :
    Moderate (OfNat.ofNat n : ℚ) :=
  moderate_natCast (n := OfNat.ofNat n) hn

/-- A result keeps to the moderate bounds of the exact result. -/
theorem Rounded.within {q low high : ℚ} {x : Float} (h : Rounded q x) (hlow : Moderate low)
    (hhigh : Moderate high) (hle : low ≤ q) (hge : q ≤ high) : Within low high x := by
  have hlimit : (2 : ℚ) ^ 64 ≤ 2 ^ (1010 : Int) := by
    rw [← zpow_natCast]
    exact zpow_le_zpow_right₀ (by norm_num) (by norm_num)
  have hlowBound := neg_le_of_abs_le hlow.abs_le
  have hhighBound := le_of_abs_le hhigh.abs_le
  have hleast : -2 ^ (1010 : Int) ≤ q := (neg_le_neg hlimit).trans (hlowBound.trans hle)
  have hgreatest : q ≤ 2 ^ (1010 : Int) := hge.trans (hhighBound.trans hlimit)
  rw [← toRat_two_pow_1010] at hleast hgreatest
  rw [← toRat_neg] at hleast
  obtain ⟨hfinite, -, -⟩ := h.between hleast hgreatest
  exact ⟨hfinite, (h.neighbour hfinite).le_of_le _ hlow.onGrid hle,
    (h.neighbour hfinite).ge_of_ge _ hhigh.onGrid hge⟩

theorem Within.mul {a b c d : Int} {x y : Float} (hx : Within (2 ^ a) (2 ^ b) x)
    (hy : Within (2 ^ c) (2 ^ d) y) (hlow : -1074 ≤ a + c) (hle : a + c ≤ b + d)
    (hhigh : b + d ≤ 64) : Within (2 ^ (a + c)) (2 ^ (b + d)) (x * y) := by
  have hx0 : 0 ≤ toRat x := hx.low_le.trans' (by positivity)
  have hy0 : 0 ≤ toRat y := hy.low_le.trans' (by positivity)
  refine (rounded_mul hx.isFinite hy.isFinite).within (moderate_two_pow hlow (by omega))
    (moderate_two_pow (by omega) hhigh) ?_ ?_
  · rw [zpow_add₀ two_ne_zero]
    exact mul_le_mul hx.low_le hy.low_le (by positivity) hx0
  · rw [zpow_add₀ two_ne_zero]
    exact mul_le_mul hx.le_high hy.le_high hy0 (by positivity)

theorem within_of_le_of_le {a b x : Float} (ha : a.isFinite = true) (hb : b.isFinite = true)
    (hax : a ≤ x) (hxb : x ≤ b) : Within (toRat a) (toRat b) x := by
  have hx := isFinite_of_le_of_le ha hb hax hxb
  exact ⟨hx, (le_iff_toRat_le ha hx).1 hax, (le_iff_toRat_le hx hb).1 hxb⟩

/-- A large double is a multiple of the last place that its size leaves. -/
theorem OnGrid.exists_eq {d : ℚ} (hd : OnGrid d) {e : Int} (hlarge : 2 ^ (e + 52) ≤ |d|) :
    ∃ k : Int, d = k * 2 ^ e := by
  obtain ⟨m, f, hm, -, rfl⟩ := hd
  have hle : e ≤ f := by
    by_contra! hlt
    have hsize : |(m : ℚ)| < 2 ^ 53 := by exact_mod_cast hm
    refine hlarge.not_gt ?_
    rw [abs_mul, abs_of_pos (show (0 : ℚ) < 2 ^ f by positivity)]
    calc |(m : ℚ)| * 2 ^ f < 2 ^ 53 * 2 ^ f := by gcongr
      _ ≤ 2 ^ 53 * 2 ^ (e - 1) := by
          gcongr
          · norm_num
          · omega
      _ = 2 ^ (e + 52) := by
          rw [← zpow_natCast, ← zpow_add₀ (by norm_num)]
          congr 1
          push_cast
          ring
  obtain ⟨k, rfl⟩ := Int.le.dest hle
  refine ⟨m * 2 ^ k, ?_⟩
  rw [zpow_add₀ (by norm_num), zpow_natCast]
  push_cast
  ring

/-- A double above -1 is so by `2 ^ -53` at least. -/
theorem two_pow_le_one_add {d : ℚ} (hd : OnGrid d) (hpos : 0 < 1 + d) :
    (2 : ℚ) ^ (-53 : Int) ≤ 1 + d := by
  obtain hlarge | hsmall := le_or_gt (-1 / 2) d
  · norm_num
    linarith
  · have hhalf : (2 : ℚ) ^ (-53 + 52 : Int) ≤ |d| := by
      norm_num
      exact le_abs.2 (.inr (by linarith))
    obtain ⟨k, rfl⟩ := hd.exists_eq hhalf
    have hsum : 1 + (k : ℚ) * 2 ^ (-53 : Int) = ((2 ^ 53 + k : Int) : ℚ) * 2 ^ (-53 : Int) := by
      push_cast
      norm_num
      ring
    rw [hsum] at hpos ⊢
    have hone : 0 < 2 ^ 53 + k := by
      exact_mod_cast pos_of_mul_pos_left hpos (by positivity)
    exact le_mul_of_one_le_left (by positivity) (by exact_mod_cast hone)

namespace Number

/-- The number above is whole and not negative, and overflows nowhere. -/
theorem ceiling_nonneg {x : Float} (hx : x.isFinite = true) (h : 0 ≤ toRat x) :
    (ceiling x).isFinite = true ∧ 0 ≤ toRat (ceiling x) := by
  by_cases hsmall : x.abs < 4503599627370496.0
  · have hlt : toRat x < 2 ^ 52 := by rwa [abs_lt_iff hx, abs_of_nonneg h] at hsmall
    have hwhole := wholePart_of_lt hx h hlt
    have hfloor : ⌊toRat x⌋₊ < 2 ^ 52 := (Nat.floor_lt h).2 (by exact_mod_cast hlt)
    have hupTo : UpTo 4503599627370496.0 (wholePart x) := by
      refine ⟨hwhole.1, ?_, ?_⟩
      · rw [hwhole.2]
        positivity
      · rw [hwhole.2, toRat_two_pow_52]
        exact_mod_cast hfloor.le
    have hnext : UpTo (.ofBits 0x4340000000000000) (wholePart x + 1) := by
      refine hupTo.add (upTo_self rfl (by rw [toRat_one]; norm_num)) ?_
      rw [toRat_two_pow_52, toRat_one, toRat_two_pow_53]
      norm_num
    simp only [ceiling]
    split_ifs
    · exact ⟨hnext.isFinite, hnext.nonneg⟩
    · exact ⟨hupTo.isFinite, hupTo.nonneg⟩
  · have hsame : ¬ x < x := by rw [lt_iff_toRat_lt hx hx]; exact lt_irrefl _
    simp only [ceiling, wholePart, if_neg hsmall, if_neg hsame]
    exact ⟨hx, h⟩

theorem isNaN_of_isFinite {x : Float} (hx : x.isFinite = true) : x.isNaN = false := by
  change x.toModel.unpack.isNaN = false
  change x.toModel.unpack.isFinite = true at hx
  cases h : x.toModel.unpack <;> rw [h] at hx <;> first | rfl | cases hx

theorem upTo_larger {x y : Float} (hx : UpTo x x) (hy : UpTo y y) :
    UpTo (larger x y) (larger x y) := by
  rw [larger]
  split_ifs <;> assumption

theorem upTo_foldl_larger {values : List Float} (h : ∀ x ∈ values, UpTo x x) {start : Float}
    (hstart : UpTo start start) :
    UpTo (values.foldl larger start) (values.foldl larger start) := by
  induction values generalizing start with
  | nil => exact hstart
  | cons x xs ih =>
    obtain ⟨hx, hxs⟩ := List.forall_mem_cons.1 h
    exact ih hxs (upTo_larger hstart hx)

/-- What is left of a hundred, or nothing. -/
theorem upTo_larger_sub {q : ℚ} {y : Float} (h : Rounded q y) (hq : 0 ≤ q) :
    UpTo 100 (larger (100 - y) 0) := by
  have hzero : UpTo 100 0 := upTo_zero (by rw [toRat_ofNat 100 (by norm_num)]; norm_num)
  obtain hy | rfl := h.isFinite_or_eq_infinity hq
  · have hyNonneg := h.nonneg hy hq
    obtain ⟨hfinite, -, hle⟩ := (rounded_sub (x := 100) rfl hy).between (a := -y) (b := 100)
      (by rw [toRat_neg, toRat_ofNat 100 (by norm_num)]; linarith) (by linarith)
    rw [larger, isNaN_of_isFinite hfinite, if_neg Bool.false_ne_true]
    split_ifs with hlt
    · exact hzero
    · exact ⟨hfinite, by rwa [not_lt_iff_le hfinite rfl, le_iff_toRat_le rfl hfinite, toRat_zero]
        at hlt, hle⟩
  · have hnothing : larger (100 - 1 / 0) 0 = 0 := by decide +kernel
    rwa [hnothing]

/-- A percentage, cut at a hundred. -/
theorem upTo_percentage {x y : Float} (hx : UpTo x x) (hy : UpTo y y)
    (hfinite : (if (x / y * 100).isNaN then x / y * 100
      else smaller (x / y * 100) 100).isFinite = true) :
    UpTo 100 (if (x / y * 100).isNaN then x / y * 100 else smaller (x / y * 100) 100) := by
  cases hnan : (x / y * 100).isNaN with
  | true =>
    rw [if_pos hnan] at hfinite
    rw [isNaN_of_isFinite hfinite] at hnan
    cases hnan
  | false =>
    simp only [smaller, hnan, Bool.false_eq_true, if_false] at hfinite ⊢
    split_ifs at hfinite ⊢ with hcut
    · exact upTo_self rfl (by rw [toRat_ofNat 100 (by norm_num)]; norm_num)
    · have hquotient : (x / y).isFinite = true := (isFinite_of_mul hfinite).1
      have hne : toRat y ≠ 0 := fun hzero => by
        rw [isFinite_div_zero hy.isFinite hzero] at hquotient
        cases hquotient
      have hnonneg : 0 ≤ toRat (x / y) :=
        (rounded_div hx.isFinite hy.isFinite hne).nonneg hquotient
          (div_nonneg hx.nonneg hy.nonneg)
      refine ⟨hfinite, ?_, ?_⟩
      · refine (rounded_mul hquotient rfl).nonneg hfinite (mul_nonneg hnonneg ?_)
        rw [toRat_ofNat 100 (by norm_num)]
        norm_num
      · rwa [not_lt_iff_le rfl hfinite, le_iff_toRat_le hfinite rfl] at hcut

end Number

end Appraisal
