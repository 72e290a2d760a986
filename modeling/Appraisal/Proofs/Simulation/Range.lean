import Appraisal.Proofs.Except
import Appraisal.Proofs.Simulation.Gamma

/-!
# Draws from a range

A uniform, triangular or PERT number lies in its range, but the doubles that are computed for it
may not: the width of the range, a product of widths or a shape may leave the doubles, and the
difference from one end to the other need not lead back to the first one. For which bounds all draws
stay in the range is told by `UncertainVariable.Fits`; bounds that pass the validation need not fit.
-/

namespace Appraisal

open Appraisal.Random.Generator (unitNumber unitNumber_value upTo_one_unitNumber upTo_unitNumber)

namespace UncertainVariable

variable {v : UncertainVariable} {s t x : Float}

/-- A finite number of the range. -/
structure Contains (v : UncertainVariable) (x : Float) : Prop where
  isFinite : x.isFinite = true
  low_le : v.low ≤ x
  le_high : x ≤ v.high

instance (v : UncertainVariable) (x : Float) : Decidable (v.Contains x) :=
  decidable_of_iff (x.isFinite = true ∧ v.low ≤ x ∧ x ≤ v.high)
    ⟨fun h => ⟨h.1, h.2.1, h.2.2⟩, fun h => ⟨h.isFinite, h.low_le, h.le_high⟩⟩

/-- Finite bounds in order. -/
structure Ordered (v : UncertainVariable) : Prop where
  low : v.low.isFinite = true
  mode : v.mode.isFinite = true
  high : v.high.isFinite = true
  low_le_mode : toRat v.low ≤ toRat v.mode
  mode_le_high : toRat v.mode ≤ toRat v.high

/-- How many uniform numbers are below the share of the range that is below the mode. -/
def unitsBelowMode (v : UncertainVariable) : Nat :=
  ⌈toRat ((v.mode - v.low) / (v.high - v.low)) * 2 ^ 53⌉₊

/-- The bounds are such that numbers computed for this distribution stay between them. A uniform
number only needs a width that does not overflow. The numbers of a triangular range rise towards the
mode from both ends, so the two next to the mode tell about all. A PERT number is a share of the
width, and the shape of its first gamma number must not overflow. -/
def FitsAs (v : UncertainVariable) : Distribution → Prop
  | .point => True
  | .uniform => (v.high - v.low).isFinite = true
  | .triangular => (v.high - v.low).isFinite = true ∧
      ∀ m ∈ [v.unitsBelowMode - 1, v.unitsBelowMode], m < 2 ^ 53 →
        v.Contains (Simulation.triangularAt v (unitNumber m.toUInt64))
  | .pert => (Simulation.pertShape * (v.mode - v.low)).isFinite = true ∧
      v.Contains (v.low + (v.high - v.low))
  | .normal => False

instance (v : UncertainVariable) : DecidablePred v.FitsAs
  | .point => inferInstanceAs (Decidable True)
  | .uniform => inferInstanceAs (Decidable (_ = _))
  | .triangular => inferInstanceAs (Decidable (_ ∧ ∀ m ∈ _, _))
  | .pert => inferInstanceAs (Decidable (_ ∧ _))
  | .normal => inferInstanceAs (Decidable False)

/-- The bounds are equal, or such that computed numbers stay between them. -/
def Fits (v : UncertainVariable) : Prop :=
  (v.high - v.low == 0) = true ∨ v.FitsAs v.distribution

instance (v : UncertainVariable) : Decidable v.Fits :=
  inferInstanceAs (Decidable (_ ∨ _))

theorem ordered_of_validate (h : v.validate = .ok ()) : v.Ordered := by
  rw [validate] at h
  split_ifs at h with hfinite horder
  simp only [Bool.not_eq_true, Bool.not_eq_false', Bool.and_eq_true] at hfinite
  obtain ⟨⟨hlow, hmode⟩, hhigh⟩ := hfinite
  simp only [Bool.or_eq_true, decide_eq_true_eq, not_or] at horder
  rw [not_lt_iff_le hmode hlow, not_lt_iff_le hhigh hmode, le_iff_toRat_le hlow hmode,
    le_iff_toRat_le hmode hhigh] at horder
  exact ⟨hlow, hmode, hhigh, horder.1, horder.2⟩

namespace Ordered

variable (h : v.Ordered)

include h

theorem contains_iff :
    v.Contains x ↔ x.isFinite = true ∧ toRat v.low ≤ toRat x ∧ toRat x ≤ toRat v.high := by
  constructor
  · rintro ⟨hx, hlow, hhigh⟩
    exact ⟨hx, (le_iff_toRat_le h.low hx).1 hlow, (le_iff_toRat_le hx h.high).1 hhigh⟩
  · rintro ⟨hx, hlow, hhigh⟩
    exact ⟨hx, (le_iff_toRat_le h.low hx).2 hlow, (le_iff_toRat_le hx h.high).2 hhigh⟩

theorem contains_mode : v.Contains v.mode :=
  h.contains_iff.2 ⟨h.mode, h.low_le_mode, h.mode_le_high⟩

/-- What is closer to the lower end is in the range, too. -/
theorem contains_low_add (hs : UpTo t s) (ht : v.Contains (v.low + t)) :
    v.Contains (v.low + s) := by
  rw [h.contains_iff] at ht ⊢
  obtain ⟨hfinite, -, hhigh⟩ := ht
  obtain ⟨hsum, hlow, hle⟩ := (rounded_add h.low hs.isFinite).mono (roundsTo_self h.low)
    ((rounded_add h.low (isFinite_of_add hfinite).2).roundsTo hfinite)
    (le_add_of_nonneg_right hs.nonneg) (add_le_add_right hs.le _)
  exact ⟨hsum, hlow, hle.trans hhigh⟩

/-- What is closer to the upper end is in the range, too. -/
theorem contains_high_sub (hs : UpTo t s) (ht : v.Contains (v.high - t)) :
    v.Contains (v.high - s) := by
  rw [h.contains_iff] at ht ⊢
  obtain ⟨hfinite, hlow, -⟩ := ht
  obtain ⟨hsum, hle, hhigh⟩ := (rounded_sub h.high hs.isFinite).mono
    ((rounded_sub h.high (isFinite_of_sub hfinite).2).roundsTo hfinite) (roundsTo_self h.high)
    (sub_le_sub_left hs.le _) (sub_le_self _ hs.nonneg)
  exact ⟨hsum, hlow.trans hle, hhigh⟩

section

variable (hwidth : (v.high - v.low).isFinite = true)

include hwidth

theorem upTo_width {a b : Float} (ha : a.isFinite = true) (hb : b.isFinite = true)
    (hle : toRat b ≤ toRat a) (hmost : toRat a - toRat b ≤ toRat v.high - toRat v.low) :
    UpTo (v.high - v.low) (a - b) :=
  (rounded_sub ha hb).upTo_of_le ((rounded_sub h.high h.low).roundsTo hwidth)
    (sub_nonneg.2 hle) hmost

theorem upTo_below_mode : UpTo (v.high - v.low) (v.mode - v.low) :=
  h.upTo_width hwidth h.mode h.low h.low_le_mode (by linarith [h.mode_le_high])

theorem upTo_above_mode : UpTo (v.high - v.low) (v.high - v.mode) :=
  h.upTo_width hwidth h.high h.mode h.mode_le_high (by linarith [h.low_le_mode])

theorem upTo_whole_width : UpTo (v.high - v.low) (v.high - v.low) :=
  h.upTo_width hwidth h.high h.low (h.low_le_mode.trans h.mode_le_high) le_rfl

theorem pos_width (hne : (v.high - v.low == 0) = false) : 0 < toRat (v.high - v.low) := by
  refine (h.upTo_whole_width hwidth).nonneg.lt_of_ne fun heq => ?_
  rw [← toRat_zero, eq_comm, ← beq_iff_toRat_eq hwidth rfl, hne] at heq
  cases heq

end

end Ordered

end UncertainVariable

/-- There are no doubles between this share and 1. -/
theorem toRat_le_of_lt_one {s : Float} (hlt : toRat s < 1) : toRat s ≤ 1 - 1 / 2 ^ 53 := by
  have := two_pow_le_one_add (onGrid_toRat s).neg (by linarith)
  norm_num at this ⊢
  linarith

/-- A share below 1 of a rounded number is not above the number before it was rounded: whoever
rounds up gains half a place at most, and the share loses more. -/
theorem toRat_share_mul_le {q : ℚ} {r s : Float} (hq : 0 ≤ q)
    (hgrid : ∃ k : Int, q = k * 2 ^ (-1074 : Int)) (hr : Rounded q r)
    (hfinite : r.isFinite = true) (hs : UpTo 1 s) (hlt : toRat s < 1) :
    UpTo r (s * r) ∧ toRat (s * r) ≤ q := by
  have hr0 : 0 ≤ toRat r := hr.nonneg hfinite hq
  have hproduct := rounded_mul hs.isFinite hfinite
  have hupTo : UpTo r (s * r) :=
    hproduct.upTo (mul_nonneg hs.nonneg hr0) (mul_le_of_le_one_left hr0 hlt.le)
  refine ⟨hupTo, ?_⟩
  by_contra! habove
  -- Then the product is the rounded number itself, which is the next double above.
  have heq : toRat (s * r) = toRat r :=
    le_antisymm hupTo.le ((hr.neighbour hfinite).ge_of_ge _ (onGrid_toRat _) habove.le)
  rw [heq] at habove
  have hgap : (2 : ℚ) ^ (-1074 : Int) ≤ toRat r - q :=
    le_sub_of_lt hgrid (exists_toRat_eq r) habove
  have hhalf : (2 : ℚ) ^ (-1075 : Int) < 2 ^ (-1074 : Int) :=
    zpow_lt_zpow_right₀ (by norm_num) (by norm_num)
  have hloss : toRat s * toRat r ≤ toRat r - toRat r / 2 ^ 53 := by
    calc toRat s * toRat r ≤ (1 - 1 / 2 ^ 53) * toRat r := by
          gcongr
          exact toRat_le_of_lt_one hlt
      _ = toRat r - toRat r / 2 ^ 53 := by ring
  have hgain : toRat r - q ≤ q / 2 ^ 53 := by
    have herror := (hr.roundsTo hfinite).nearest.error_le
    change |q - toRat r| ≤ _ at herror
    rw [abs_of_neg (by linarith), abs_of_nonneg hq, neg_sub, le_max_iff] at herror
    exact herror.resolve_right (by linarith)
  have hgain' : toRat r - toRat s * toRat r ≤
      max (toRat s * toRat r / 2 ^ 53) (2 ^ (-1075 : Int)) := by
    have hs0 := mul_nonneg hs.nonneg hr0
    have hless := mul_le_of_le_one_left hr0 hlt.le
    have herror := (hproduct.roundsTo hupTo.isFinite).nearest.error_le
    change |toRat s * toRat r - toRat (s * r)| ≤ _ at herror
    rwa [heq, abs_of_nonpos (by linarith), abs_of_nonneg hs0, neg_sub] at herror
  obtain hsmall | htiny := le_max_iff.1 hgain'
  · have : toRat s * toRat r ≤ q := by linarith
    linarith
  · linarith

/-- A share of the width below 1, counted from the lower end, is in the range. -/
theorem UncertainVariable.Ordered.contains_share {v : UncertainVariable} (h : v.Ordered)
    (hwidth : (v.high - v.low).isFinite = true) {s : Float} (hs : UpTo 1 s)
    (hlt : toRat s < 1) : v.Contains (v.low + s * (v.high - v.low)) := by
  have hle : toRat v.low ≤ toRat v.high := h.low_le_mode.trans h.mode_le_high
  have hgrid : ∃ k : Int, toRat v.high - toRat v.low = k * 2 ^ (-1074 : Int) := by
    obtain ⟨k, hk⟩ := exists_toRat_eq v.high
    obtain ⟨l, hl⟩ := exists_toRat_eq v.low
    exact ⟨k - l, by rw [hk, hl, ← sub_mul, Int.cast_sub]⟩
  obtain ⟨hupTo, hmost⟩ := toRat_share_mul_le (sub_nonneg.2 hle) hgrid
    (rounded_sub h.high h.low) hwidth hs hlt
  rw [h.contains_iff]
  exact (rounded_add h.low hupTo.isFinite).between (le_add_of_nonneg_right hupTo.nonneg)
    (by linarith)

namespace Simulation

variable {v : UncertainVariable} {functions : Elementary}

theorem upTo_one_sub {m n : UInt64} (hmn : m ≤ n) (hn : n.toNat < 2 ^ 53) :
    UpTo (1 - unitNumber m) (1 - unitNumber n) := by
  have hu := upTo_unitNumber hmn hn
  have hle : m.toNat < 2 ^ 53 := (UInt64.le_iff_toNat_le.1 hmn).trans_lt hn
  have hone : toRat (unitNumber n) ≤ toRat 1 := (upTo_one_unitNumber hn).1.le
  exact (rounded_sub rfl (unitNumber_value hn).1).upTo_of_le
    ((rounded_sub rfl hu.isFinite).roundsTo (within_one_sub hle).isFinite) (sub_nonneg.2 hone)
    (sub_le_sub_left hu.le _)

theorem toNat_toUInt64_of_lt {m : Nat} (hm : m < 2 ^ 53) : m.toUInt64.toNat = m :=
  UInt64.toNat_ofNat_of_lt' (hm.trans (by norm_num [UInt64.size]))

/-- The uniform numbers below a share are the first ones. -/
theorem unitNumber_lt_iff {c : Float} {n : UInt64} (hc : c.isFinite = true)
    (hn : n.toNat < 2 ^ 53) : unitNumber n < c ↔ n.toNat < ⌈toRat c * 2 ^ 53⌉₊ := by
  obtain ⟨hfinite, hvalue⟩ := unitNumber_value hn
  rw [lt_iff_toRat_lt hfinite hc, hvalue, div_lt_iff₀ (by positivity), Nat.lt_ceil]

/-- A share of the whole width is found from 0 to 1. -/
theorem upTo_one_div {w r : Float} (hw : UpTo r w) (hr : r.isFinite = true)
    (hpos : 0 < toRat r) : UpTo 1 (w / r) :=
  hw.div hr hpos (by rw [toRat_one, one_mul])

section

variable (h : v.Ordered)

include h

section

variable (hwidth : (v.high - v.low).isFinite = true) (hpos : 0 < toRat (v.high - v.low))

include hwidth hpos

/-- Below the mode, the greatest of the computed numbers belongs to the greatest uniform number. -/
theorem contains_triangular_of_lt {m n : UInt64} (hmn : n ≤ m) (hm : m.toNat < 2 ^ 53)
    (hlt : unitNumber m < (v.mode - v.low) / (v.high - v.low))
    (hcontains : v.Contains (triangularAt v (unitNumber m))) :
    v.Contains (triangularAt v (unitNumber n)) := by
  have hshare := (upTo_one_div (h.upTo_below_mode hwidth) hwidth hpos).isFinite
  have hlt' : unitNumber n < (v.mode - v.low) / (v.high - v.low) := by
    rw [unitNumber_lt_iff hshare hm] at hlt
    have hle := UInt64.le_iff_toNat_le.1 hmn
    exact (unitNumber_lt_iff hshare (hle.trans_lt hm)).2 (hle.trans_lt hlt)
  rw [triangularAt, if_pos hlt] at hcontains
  rw [triangularAt, if_pos hlt']
  obtain ⟨hproduct, -⟩ := isFinite_of_sqrt (isFinite_of_add hcontains.isFinite).2
  have hw := h.upTo_below_mode hwidth
  have hur := (upTo_unitNumber hmn hm).mul_mono (h.upTo_whole_width hwidth)
    (isFinite_of_mul hproduct).1
  have hmost := hur.mul_mono (upTo_self hw.isFinite hw.nonneg) hproduct
  exact h.contains_low_add (hmost.sqrt hproduct) hcontains

/-- Above the mode, the least of them belongs to the least one. -/
theorem contains_triangular_of_not_lt {m n : UInt64} (hmn : m ≤ n) (hn : n.toNat < 2 ^ 53)
    (hlt : ¬ unitNumber m < (v.mode - v.low) / (v.high - v.low))
    (hcontains : v.Contains (triangularAt v (unitNumber m))) :
    v.Contains (triangularAt v (unitNumber n)) := by
  have hshare := (upTo_one_div (h.upTo_below_mode hwidth) hwidth hpos).isFinite
  have hlt' : ¬ unitNumber n < (v.mode - v.low) / (v.high - v.low) := by
    have hle := UInt64.le_iff_toNat_le.1 hmn
    rw [unitNumber_lt_iff hshare (hle.trans_lt hn), not_lt] at hlt
    rw [unitNumber_lt_iff hshare hn, not_lt]
    exact hlt.trans hle
  rw [triangularAt, if_neg hlt] at hcontains
  rw [triangularAt, if_neg hlt']
  obtain ⟨hproduct, -⟩ := isFinite_of_sqrt (isFinite_of_sub hcontains.isFinite).2
  have hw := h.upTo_above_mode hwidth
  have hur := (upTo_one_sub hmn hn).mul_mono (h.upTo_whole_width hwidth)
    (isFinite_of_mul hproduct).1
  have hmost := hur.mul_mono (upTo_self hw.isFinite hw.nonneg) hproduct
  exact h.contains_high_sub (hmost.sqrt hproduct) hcontains

theorem yields_triangular (hfits : v.FitsAs .triangular) :
    Yields (drawAs functions v .triangular) v.Contains := by
  refine yields_unit.bind ?_
  rintro _ ⟨n, hn, rfl⟩
  refine yields_pure ?_
  have hshare := upTo_one_div (h.upTo_below_mode hwidth) hwidth hpos
  have hcount : v.unitsBelowMode ≤ 2 ^ 53 := by
    refine Nat.ceil_le.2 ?_
    have := hshare.le
    rw [toRat_one] at this
    push_cast
    linarith
  obtain ⟨-, hmode⟩ := hfits
  obtain hlt | hge := lt_or_ge n.toNat v.unitsBelowMode
  · have hm : v.unitsBelowMode - 1 < 2 ^ 53 := by omega
    have htoNat := toNat_toUInt64_of_lt hm
    have hm' : (v.unitsBelowMode - 1).toUInt64.toNat < 2 ^ 53 := by rwa [htoNat]
    refine contains_triangular_of_lt h hwidth hpos ?_ hm' ?_ (hmode _ (by simp) hm)
    · rw [UInt64.le_iff_toNat_le, htoNat]
      omega
    · rw [unitNumber_lt_iff hshare.isFinite hm', htoNat]
      exact Nat.sub_one_lt (by omega)
  · have hm : v.unitsBelowMode < 2 ^ 53 := hge.trans_lt hn
    have htoNat := toNat_toUInt64_of_lt hm
    have hm' : v.unitsBelowMode.toUInt64.toNat < 2 ^ 53 := by rwa [htoNat]
    refine contains_triangular_of_not_lt h hwidth hpos ?_ hn ?_ (hmode _ (by simp) hm)
    · rwa [UInt64.le_iff_toNat_le, htoNat]
    · rw [unitNumber_lt_iff hshare.isFinite hm', htoNat]
      exact lt_irrefl _

end

end

theorem toRat_pertShape_mul {w : Float} (hw : w.isFinite = true)
    (h : (pertShape * w).isFinite = true) : toRat (pertShape * w) = 4 * toRat w := by
  have hfour : toRat pertShape = 4 := toRat_ofNat 4 (by norm_num)
  have hproduct := rounded_mul (x := pertShape) rfl hw
  rw [hfour] at hproduct
  refine (hproduct.neighbour h).eq ?_
  obtain ⟨m, e, hm, he, hvalue⟩ := onGrid_toRat w
  refine ⟨m, e + 2, hm, by omega, ?_⟩
  rw [hvalue, zpow_add₀ two_ne_zero]
  ring

/-- The shape of the gamma number for one side of the mode. -/
theorem within_shape {w r : Float} (hw : UpTo r w) (hr : r.isFinite = true) (hpos : 0 < toRat r)
    (h : (pertShape * w).isFinite = true) : Within 1 (2 ^ (3 : Int)) (1 + pertShape * w / r) := by
  have hquotient : Within 0 4 (pertShape * w / r) := by
    have hvalue := toRat_pertShape_mul hw.isFinite h
    have hw0 := hw.nonneg
    refine (rounded_div h hr hpos.ne').within moderate_zero (moderate_ofNat 4 (by norm_num)) ?_ ?_
    · rw [hvalue]
      positivity
    · rw [hvalue, div_le_iff₀ hpos]
      linarith [hw.le]
  have hsum := rounded_add (x := 1) rfl hquotient.isFinite
  rw [toRat_one] at hsum
  refine hsum.within moderate_one (moderate_two_pow (by norm_num) (by norm_num)) ?_ ?_
  · exact le_add_of_nonneg_right hquotient.low_le
  · have := hquotient.le_high
    norm_num
    linarith

theorem pertShape_mul_eq_infinity {w : Float} (hw : w.isFinite = true) (hnonneg : 0 ≤ toRat w)
    (h : (pertShape * w).isFinite = false) : pertShape * w = 1 / 0 := by
  have hfour : toRat pertShape = 4 := toRat_ofNat 4 (by norm_num)
  have hproduct := rounded_mul (x := pertShape) rfl hw
  rw [hfour] at hproduct
  obtain hfinite | hinfinity := hproduct.isFinite_or_eq_infinity (by positivity)
  · rw [h] at hfinite
    cases hfinite
  · exact hinfinity

theorem shape_eq_infinity {w r : Float} (hw : UpTo r w) (hr : r.isFinite = true)
    (hpos : 0 < toRat r) (h : (pertShape * w).isFinite = false) :
    1 + pertShape * w / r = 1 / 0 := by
  rw [pertShape_mul_eq_infinity hw.isFinite hw.nonneg h, infinity_div hr hpos, add_infinity rfl]

theorem upTo_share {a b : Float} (ha : Within (2 ^ (-160 : Int)) (2 ^ (21 : Int)) a)
    (hb : Within (2 ^ (-160 : Int)) (2 ^ (21 : Int)) b ∨ b = 1 / 0) : UpTo 1 (a / (a + b)) := by
  have ha0 : 0 < toRat a := ha.low_le.trans_lt' (by positivity)
  obtain hb | rfl := hb
  · have hb0 : 0 ≤ toRat b := hb.low_le.trans' (by positivity)
    have hsum := (rounded_add ha.isFinite hb.isFinite)
    have hfinite : (a + b).isFinite = true := by
      refine (hsum.within moderate_zero
        (moderate_two_pow (e := 22) (by norm_num) (by norm_num)) (by positivity) ?_).isFinite
      have := ha.le_high
      have := hb.le_high
      norm_num at *
      linarith
    have hle : toRat a ≤ toRat (a + b) :=
      (hsum.neighbour hfinite).le_of_le _ (onGrid_toRat a) (le_add_of_nonneg_right hb0)
    exact (upTo_self ha.isFinite ha0.le).div hfinite (ha0.trans_le hle)
      (by rwa [toRat_one, one_mul])
  · obtain ⟨hfinite, hzero⟩ := div_infinity ha.isFinite
    rw [add_infinity ha.isFinite]
    exact ⟨hfinite, hzero.ge, hzero.trans_le (by rw [toRat_one]; norm_num)⟩

theorem one_mul_eq {x : Float} (hx : x.isFinite = true) (hpos : 0 < toRat x) : 1 * x = x := by
  have hproduct := rounded_mul (x := 1) rfl hx
  rw [toRat_one, one_mul] at hproduct
  obtain ⟨hfinite, hvalue⟩ := hproduct.exact (onGrid_toRat x) (b := x) le_rfl
  exact eq_of_toRat_eq hfinite hx hvalue (hvalue ▸ hpos.ne')

/-- A PERT draw is in the range, or it is the upper end as computed from the lower one. -/
theorem yields_pert (hf : functions.Tame) (h : v.Ordered)
    (hwidth : (v.high - v.low).isFinite = true) (hpos : 0 < toRat (v.high - v.low))
    (hshape : (pertShape * (v.mode - v.low)).isFinite = true) :
    Yields (drawAs functions v .pert) fun x =>
      v.Contains x ∨ x = v.low + (v.high - v.low) := by
  have hbelow := h.upTo_below_mode hwidth
  have habove := h.upTo_above_mode hwidth
  have hb : Yields (gamma functions (1 + pertShape * (v.high - v.mode) / (v.high - v.low)))
      fun b => Within (2 ^ (-160 : Int)) (2 ^ (21 : Int)) b ∨ b = 1 / 0 := by
    cases hfinite : (pertShape * (v.high - v.mode)).isFinite with
    | true => exact (yields_gamma hf (within_shape habove hwidth hpos hfinite)).imp fun _ => .inl
    | false =>
      rw [shape_eq_infinity habove hwidth hpos hfinite]
      exact (yields_gamma_infinity hf).imp fun _ => .inr
  refine (yields_gamma hf (within_shape hbelow hwidth hpos hshape)).bind fun a ha => ?_
  refine hb.bind fun b hb => yields_pure ?_
  have hshare := upTo_share ha hb
  obtain hone | hlt := (hshare.le.trans_eq toRat_one).eq_or_lt
  · have heq : a / (a + b) = 1 :=
      eq_of_toRat_eq hshare.isFinite rfl (hone.trans toRat_one.symm) (by rw [hone]; norm_num)
    exact .inr (by rw [heq, one_mul_eq hwidth hpos])
  · exact .inl (h.contains_share hwidth hshare hlt)

/-- Where the bounds fit, every draw is in the range. -/
theorem yields_contains (hf : functions.Tame) (h : v.Ordered) (hfits : v.Fits) :
    Yields (drawWith functions v) v.Contains := by
  cases hne : (v.high - v.low == 0) with
  | true =>
    rw [drawWith, if_pos hne]
    exact yields_pure h.contains_mode
  | false =>
    rw [UncertainVariable.Fits, hne, or_iff_right Bool.false_ne_true] at hfits
    rw [drawWith_of_width hne]
    cases hd : v.distribution with
    | point => exact yields_pure h.contains_mode
    | uniform =>
      rw [hd] at hfits
      refine yields_unit.bind ?_
      rintro _ ⟨n, hn, rfl⟩
      obtain ⟨hshare, hlt⟩ := upTo_one_unitNumber hn
      exact yields_pure (h.contains_share hfits hshare hlt)
    | triangular =>
      rw [hd] at hfits
      exact yields_triangular h hfits.1 (h.pos_width hfits.1 hne) hfits
    | pert =>
      rw [hd] at hfits
      have hwidth := (isFinite_of_add hfits.2.isFinite).2
      refine (yields_pert hf h hwidth (h.pos_width hwidth hne) hfits.1).imp fun x hx => ?_
      exact hx.elim id fun heq => heq ▸ hfits.2
    | normal =>
      rw [hd] at hfits
      exact hfits.elim

example : (UncertainVariable.triangular "x" 0.1 0.25 0.3 .usd).Fits := by decide +kernel

example : ¬ (UncertainVariable.triangular "x" 0 1e155 2e155 .usd).Fits := by decide +kernel

theorem yields_uniform_isFinite : Yields (drawAs functions v .uniform) fun x =>
    x.isFinite = true → (v.high - v.low).isFinite = true :=
  (yields_true unit).bind fun _ _ =>
    yields_pure fun hx => (isFinite_of_mul (isFinite_of_add hx).2).2

theorem isFinite_width_of_triangularAt {u : Float} (h : (triangularAt v u).isFinite = true) :
    (v.high - v.low).isFinite = true := by
  simp only [triangularAt] at h
  split_ifs at h
  · obtain ⟨hproduct, -⟩ := isFinite_of_sqrt (isFinite_of_add h).2
    exact (isFinite_of_mul (isFinite_of_mul hproduct).1).2
  · obtain ⟨hproduct, -⟩ := isFinite_of_sqrt (isFinite_of_sub h).2
    exact (isFinite_of_mul (isFinite_of_mul hproduct).1).2

/-- A PERT draw is not finite if the width or the shape of the first gamma number overflows. -/
theorem yields_pert_isFinite : Yields (drawAs functions v .pert) fun x => x.isFinite = true →
    (v.high - v.low).isFinite = true ∧ (pertShape * (v.mode - v.low)).isFinite = true := by
  refine (yields_gamma_isFinite functions _).bind fun a ha => ?_
  refine (yields_true _).bind fun b _ => yields_pure fun hx => ?_
  obtain ⟨hshare, hwidth⟩ := isFinite_of_mul (isFinite_of_add hx).2
  exact ⟨hwidth, isFinite_of_div (isFinite_of_add (ha (isFinite_of_div hshare))).2⟩

/-- The bounds of a uniform or triangular variable fit if all its draws are in the range. -/
theorem fits_of_draws (hnormal : v.distribution ≠ .normal) (hpert : v.distribution ≠ .pert)
    (h : Yields (drawWith functions v) v.Contains) : v.Fits := by
  cases hne : (v.high - v.low == 0) with
  | true => exact .inl hne
  | false =>
    rw [drawWith_of_width hne] at h
    refine .inr ?_
    cases hd : v.distribution with
    | point => trivial
    | uniform =>
      rw [hd] at h
      have hends : Ends (drawAs functions v .uniform) := ends_unit.bind fun _ => ends_pure _
      obtain ⟨x, g', hrun⟩ := hends.exists_run (.ofSeed 0)
      exact yields_uniform_isFinite _ _ hrun (h _ _ hrun).isFinite
    | triangular =>
      rw [hd] at h
      have hcontains {n : UInt64} (hn : n.toNat < 2 ^ 53) :
          v.Contains (triangularAt v (unitNumber n)) := by
        obtain ⟨g, g', hunit⟩ := exists_run_unit hn
        exact h g (triangularAt v (unitNumber n), g') (run_bind_eq_some_iff.2 ⟨_, g', hunit, rfl⟩)
      refine ⟨isFinite_width_of_triangularAt (hcontains (n := 0) (by decide)).isFinite, ?_⟩
      intro m _ hm
      exact hcontains (by rwa [toNat_toUInt64_of_lt hm])
    | pert => exact absurd hd hpert
    | normal => exact absurd hd hnormal

/-- Draws of a valid variable that is not normal. If its bounds fit, all of them are finite and in
the range; and if all draws of a uniform, triangular or point variable are in the range, its bounds
fit. A PERT draw can only leave the range to the upper end as it is computed from the lower one,
unless the width or a shape overflows, and then none is finite. Only PERT draws may have no end. -/
theorem draws_contained (hvalid : v.validate = .ok ()) (hnormal : v.distribution ≠ .normal) :
    (v.Fits → ∀ functions : Elementary, functions.Tame → ∀ g n xs g',
      (drawsWith functions v n).run g = some (xs, g') →
        xs.length = n ∧ ∀ x ∈ xs, v.Contains x) ∧
    (v.distribution ≠ .pert →
      (∀ functions g n, ∃ xs g', (drawsWith functions v n).run g = some (xs, g')) ∧
      ((∀ g n xs g', (draws v n).run g = some (xs, g') → ∀ x ∈ xs, v.Contains x) → v.Fits)) ∧
    (v.distribution = .pert → (v.high - v.low == 0) = false →
      ∀ functions : Elementary, functions.Tame → ∀ g n xs g',
        (drawsWith functions v n).run g = some (xs, g') → ∀ x ∈ xs,
          ((v.high - v.low).isFinite = true ∧ (pertShape * (v.mode - v.low)).isFinite = true →
            v.Contains x ∨ x = v.low + (v.high - v.low)) ∧
          (x.isFinite = true →
            (v.high - v.low).isFinite = true ∧
              (pertShape * (v.mode - v.low)).isFinite = true)) := by
  have h := UncertainVariable.ordered_of_validate hvalid
  refine ⟨fun hfits functions hf g n xs g' hrun => ?_, fun hpert => ⟨fun functions g n => ?_, ?_⟩,
    fun hpert hne functions hf g n xs g' hrun x hx => ⟨fun ⟨hwidth, hshape⟩ => ?_, ?_⟩⟩
  · exact yields_drawsWith (yields_contains hf h hfits) n g _ hrun
  · exact (ends_drawsWith (ends_drawWith fun hsearches => hpert hsearches.1) n).exists_run g
  · intro hall
    have hdraw : Yields (draw v) v.Contains := fun g ⟨x, g'⟩ hrun => by
      have hdraws : (draws v 1).run g = some ([x], g') :=
        run_bind_eq_some_iff.2 ⟨x, g', hrun, rfl⟩
      exact hall g 1 _ _ hdraws x (List.mem_singleton_self x)
    exact fits_of_draws hnormal hpert hdraw
  · have hdraw := yields_pert hf h hwidth (h.pos_width hwidth hne) hshape
    rw [← hpert, ← drawWith_of_width hne] at hdraw
    exact (yields_drawsWith hdraw n g _ hrun).2 x hx
  · have hdraw : Yields (drawAs functions v .pert) fun x => x.isFinite = true →
        (v.high - v.low).isFinite = true ∧ (pertShape * (v.mode - v.low)).isFinite = true :=
      yields_pert_isFinite
    rw [← hpert, ← drawWith_of_width hne] at hdraw
    exact (yields_drawsWith hdraw n g _ hrun).2 x hx

/-- The generator has numbers for two gamma numbers, each from the normal number 0: the logarithm
is only taken of 1, and the cosine of 0. -/
theorem draws_contained_of_pert :
    let v : UncertainVariable := .pert "x" 0 10 100 .usd
    let functions : Elementary := ⟨fun _ => 0, fun _ => 1⟩
    let g : Random.Generator := ⟨⟨⟨0, 0, 0, 0⟩, ⟨0, 0, 0, 0⟩⟩, 0,
      [0, 0, 0x8000000000000000, 0, 0, 0x4000000000000000]⟩
    v.validate = .ok () ∧ v.distribution ≠ .normal ∧ v.Fits ∧ functions.Tame ∧
    ∃ xs g', (drawsWith functions v 1).run g = some (xs, g') ∧
      xs.length = 1 ∧ ∀ x ∈ xs, v.Contains x := by
  intro v functions g
  have hvalid : v.validate = .ok () := eq_ok_of_isOk (by decide +kernel)
  have hnormal : v.distribution ≠ .normal := by decide
  have hfits : v.Fits := by decide +kernel
  have hlog : (0 : Float) ≤ 0 ∧ (-1024 : Float) ≤ 0 := by decide +kernel
  have hcos : (-1 : Float) ≤ 1 ∧ (1 : Float) ≤ 1 := by decide +kernel
  have htame : functions.Tame :=
    ⟨fun _ _ _ => hlog.1, fun _ _ _ => hlog.2, fun _ _ => hcos.1, fun _ _ => hcos.2⟩
  have hfirst : ∃ a, gamma functions (1 + pertShape * (v.mode - v.low) / (v.high - v.low)) g =
      some (a, { g with pending := [0, 0, 0x4000000000000000] }) := by
    rw [gamma_of_not_lt (by decide +kernel)]
    exact ⟨_, run_gammaFrom_of_accepts rfl (by decide +kernel) rfl (by decide +kernel)⟩
  have hsecond : ∃ b, gamma functions (1 + pertShape * (v.high - v.mode) / (v.high - v.low))
      { g with pending := [0, 0, 0x4000000000000000] } = some (b, { g with pending := [] }) := by
    rw [gamma_of_not_lt (by decide +kernel)]
    exact ⟨_, run_gammaFrom_of_accepts rfl (by decide +kernel) rfl (by decide +kernel)⟩
  have hrun : ∃ xs g', (drawsWith functions v 1).run g = some (xs, g') := by
    obtain ⟨a, ha⟩ := hfirst
    obtain ⟨b, hb⟩ := hsecond
    obtain ⟨x, hdraw⟩ : ∃ x, (drawWith functions v).run g = some (x, { g with pending := [] }) := by
      rw [drawWith_of_width (by decide +kernel)]
      exact ⟨_, run_bind_eq_some_iff.2 ⟨a, _, ha, run_bind_eq_some_iff.2 ⟨b, _, hb, rfl⟩⟩⟩
    exact ⟨[x], _, run_bind_eq_some_iff.2 ⟨x, _, hdraw, rfl⟩⟩
  obtain ⟨xs, g', hrun⟩ := hrun
  obtain ⟨hdraws, -⟩ := draws_contained hvalid hnormal
  exact ⟨hvalid, hnormal, hfits, htame, xs, g', hrun,
    hdraws hfits functions htame g 1 xs g' hrun⟩

/-- Each bound is finite, but the width of the range is not. -/
theorem not_contains_of_wide_uniform :
    let v : UncertainVariable := .uniform "x" (-1.7e308) 1.7e308 .usd
    v.validate = .ok () ∧ v.distribution = .uniform ∧
    ∃ xs g', (draws v 1).run (.ofSeed 0) = some (xs, g') ∧ ∃ x ∈ xs, ¬ v.Contains x := by
  intro v
  have hvalid : v.validate = .ok () := eq_ok_of_isOk (by decide +kernel)
  have hwidth : ¬ (v.high - v.low).isFinite = true := by decide +kernel
  have hne : (v.high - v.low == 0) = false := by decide +kernel
  have hdraw : Yields (drawWith .machine v) fun x =>
      x.isFinite = true → (v.high - v.low).isFinite = true := by
    rw [drawWith_of_width hne]
    exact yields_uniform_isFinite
  have hends : Ends (drawWith .machine v) := ends_drawWith nofun
  obtain ⟨x, g', hrun⟩ := hends.exists_run (.ofSeed 0)
  refine ⟨hvalid, rfl, [x], g', run_bind_eq_some_iff.2 ⟨x, g', hrun, rfl⟩, x,
    List.mem_singleton_self x, fun hx => ?_⟩
  exact hwidth (hdraw _ _ hrun hx.isFinite)

end Simulation

end Appraisal
