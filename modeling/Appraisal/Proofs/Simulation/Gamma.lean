import Appraisal.Proofs.Float.Root
import Appraisal.Proofs.Float.Undefined
import Appraisal.Proofs.Simulation.Draws

/-!
# Gamma numbers

A gamma number of a shape from 1 to 8 is a positive double of moderate size, whatever the generator
has given. Of the logarithm and the cosine only crude bounds are used, so this does not depend on
how they are rounded; the distribution of the numbers is not looked at.
-/

namespace Appraisal

namespace Random.Generator

theorem unitNumber_value {n : UInt64} (hn : n.toNat < 2 ^ 53) :
    (unitNumber n).isFinite = true ∧ toRat (unitNumber n) = n.toNat / 2 ^ 53 := by
  obtain ⟨hfinite, hvalue⟩ := toFloat_exact hn
  have hunit : toRat 9007199254740992 = 2 ^ 53 := by
    rw [toRat_of_unpack (u := .finite .positive (2 ^ 52) 1 (by norm_num)) rfl]
    norm_num [unpackedValue, Float.Model.UnpackedFloat.Sign.apply]
  have hdiv := rounded_div hfinite (y := 9007199254740992) rfl (by rw [hunit]; positivity)
  rw [hvalue, hunit] at hdiv
  refine hdiv.exact (b := 1) ⟨n.toNat, -53, ?_, by norm_num, ?_⟩ ?_
  · rw [Nat.abs_cast]
    exact_mod_cast hn
  · rw [zpow_neg, div_eq_mul_inv]
    norm_cast
  · have hle : (n.toNat : ℚ) ≤ 2 ^ 53 := by exact_mod_cast hn.le
    rw [toRat_one, abs_one, abs_of_nonneg (by positivity)]
    exact (div_le_one (by positivity)).2 hle

theorem upTo_one_unitNumber {n : UInt64} (hn : n.toNat < 2 ^ 53) :
    UpTo 1 (unitNumber n) ∧ toRat (unitNumber n) < 1 := by
  obtain ⟨hfinite, hvalue⟩ := unitNumber_value hn
  have hlt : toRat (unitNumber n) < 1 := by
    rw [hvalue, div_lt_one (by positivity)]
    exact_mod_cast hn
  exact ⟨⟨hfinite, hvalue ▸ by positivity, hlt.le.trans_eq toRat_one.symm⟩, hlt⟩

theorem upTo_unitNumber {m n : UInt64} (hmn : m ≤ n) (hn : n.toNat < 2 ^ 53) :
    UpTo (unitNumber n) (unitNumber m) := by
  have hle : m.toNat ≤ n.toNat := UInt64.le_iff_toNat_le.1 hmn
  obtain ⟨hfinite, hvalue⟩ := unitNumber_value (hle.trans_lt hn)
  obtain ⟨-, hvalue'⟩ := unitNumber_value hn
  refine ⟨hfinite, hvalue ▸ by positivity, ?_⟩
  rw [hvalue, hvalue']
  have : (m.toNat : ℚ) ≤ n.toNat := by exact_mod_cast hle
  gcongr

end Random.Generator

namespace Simulation

open Appraisal.Random (Generator)
open Appraisal.Random.Generator (unitNumber unitNumber_value upTo_one_unitNumber upTo_unitNumber)

theorem yields_unit : Yields unit fun u => ∃ n : UInt64, n.toNat < 2 ^ 53 ∧ u = unitNumber n := by
  rintro g _ ⟨⟩
  refine ⟨_, ?_, rfl⟩
  have hlt := g.next.1.toNat_lt
  rw [UInt64.toNat_shiftRight]
  change g.next.1.toNat >>> 11 < 2 ^ 53
  rw [Nat.shiftRight_eq_div_pow]
  omega

/-- Every multiple of `2 ^ -53` is drawn from some state of the generator. -/
theorem exists_run_unit {n : UInt64} (hn : n.toNat < 2 ^ 53) :
    ∃ g g', unit.run g = some (unitNumber n, g') := by
  let g : Generator := ⟨⟨⟨0, 0, 0, 0⟩, ⟨0, 0, 0, 0⟩⟩, 0, [n <<< 11]⟩
  have hshift : n <<< 11 >>> 11 = n := by
    apply UInt64.toNat.inj
    rw [UInt64.toNat_shiftRight, UInt64.toNat_shiftLeft]
    change (n.toNat <<< 11 % 2 ^ 64) >>> 11 = n.toNat
    rw [Nat.shiftRight_eq_div_pow, Nat.shiftLeft_eq]
    omega
  have hvalue : g.uniform.1 = unitNumber n := congrArg unitNumber hshift
  exact ⟨g, g.uniform.2, congrArg some (Prod.ext hvalue rfl)⟩

/-- A positive root is not too small for its third power. -/
theorem within_root {c x : Float} (hc : Within 0 (1 / 2) c) (hx : Within (-64) 64 x)
    (hpos : 0 < 1 + c * x) : Within (2 ^ (-53 : Int)) (2 ^ (6 : Int)) (1 + c * x) := by
  have hcx : Within (-32) 32 (c * x) := by
    have h32 : Moderate 32 := moderate_ofNat 32 (by norm_num)
    refine (rounded_mul hc.isFinite hx.isFinite).within h32.neg h32 ?_ ?_
    · nlinarith [hc.low_le, hc.le_high, hx.low_le, hx.le_high]
    · nlinarith [hc.low_le, hc.le_high, hx.low_le, hx.le_high]
  have hlow := hcx.low_le
  have hhigh := hcx.le_high
  have hroot := rounded_add (x := 1) rfl hcx.isFinite
  rw [toRat_one] at hroot
  have h64 : Moderate 64 := moderate_ofNat 64 (by norm_num)
  have hfinite := (hroot.within h64.neg h64 (by linarith) (by linarith)).isFinite
  have hexact : 0 < 1 + toRat (c * x) := by
    by_contra! hle
    rw [lt_iff_toRat_lt rfl hfinite, toRat_zero] at hpos
    exact hpos.not_ge ((hroot.neighbour hfinite).ge_of_ge 0 moderate_zero.onGrid hle)
  refine hroot.within (moderate_two_pow (by norm_num) (by norm_num))
    (moderate_two_pow (by norm_num) (by norm_num))
    (two_pow_le_one_add (onGrid_toRat _) hexact) ?_
  norm_num
  linarith

theorem within_cube {root : Float} (hroot : Within (2 ^ (-53 : Int)) (2 ^ (6 : Int)) root) :
    Within (2 ^ (-159 : Int)) (2 ^ (18 : Int)) (root * root * root) :=
  have hsquare := hroot.mul hroot (by norm_num) (by norm_num) (by norm_num)
  hsquare.mul hroot (by norm_num) (by norm_num) (by norm_num)

/-- What is known of the two functions: the logarithm of a number from 0 to 1 is not positive and
not beyond that of the smallest double, and a cosine is from -1 to 1. -/
structure Elementary.Tame (functions : Elementary) : Prop where
  log_le : ∀ x : Float, 0 < x → x ≤ 1 → functions.log x ≤ 0
  le_log : ∀ x : Float, 0 < x → x ≤ 1 → -1024 ≤ functions.log x
  le_cos : ∀ x : Float, x.isFinite = true → -1 ≤ functions.cos x
  cos_le : ∀ x : Float, x.isFinite = true → functions.cos x ≤ 1

/-- What is left of 1 is a positive number. -/
theorem within_one_sub {n : UInt64} (hn : n.toNat < 2 ^ 53) :
    Within (2 ^ (-53 : Int)) 1 (1 - unitNumber n) := by
  obtain ⟨hfinite, hvalue⟩ := unitNumber_value hn
  have hle : (n.toNat : ℚ) + 1 ≤ 2 ^ 53 := by exact_mod_cast hn
  refine (rounded_sub (x := 1) rfl hfinite).within
    (moderate_two_pow (by norm_num) (by norm_num)) moderate_one ?_ ?_
  · rw [toRat_one, hvalue]
    norm_num at hle ⊢
    linarith
  · rw [toRat_one, hvalue]
    exact sub_le_self _ (by positivity)

theorem Elementary.Tame.within_log {functions : Elementary} (h : functions.Tame) {x : Float}
    (hx : x.isFinite = true) (hpos : 0 < toRat x) (hle : toRat x ≤ 1) :
    Within (-1024) 0 (functions.log x) := by
  have hpos' : 0 < x := by rwa [lt_iff_toRat_lt rfl hx, toRat_zero]
  have hle' : x ≤ 1 := by rwa [le_iff_toRat_le hx rfl, toRat_one]
  have hwithin := within_of_le_of_le rfl rfl (h.le_log x hpos' hle') (h.log_le x hpos' hle')
  rwa [toRat_neg, toRat_ofNat 1024 (by norm_num), toRat_zero] at hwithin

theorem Elementary.Tame.within_cos {functions : Elementary} (h : functions.Tame) {x : Float}
    (hx : x.isFinite = true) : Within (-1) 1 (functions.cos x) := by
  have hwithin := within_of_le_of_le rfl rfl (h.le_cos x hx) (h.cos_le x hx)
  rwa [toRat_neg, toRat_one] at hwithin

section

variable {functions : Elementary} (hf : functions.Tame)

include hf

theorem yields_standardNormal : Yields (standardNormal functions) (Within (-64) 64) := by
  refine yields_unit.bind ?_
  rintro _ ⟨m, hm, rfl⟩
  refine yields_unit.bind ?_
  rintro _ ⟨n, hn, rfl⟩
  have h64 : Moderate 64 := moderate_ofNat 64 (by norm_num)
  have hu := within_one_sub hm
  have hlog := hf.within_log hu.isFinite (hu.low_le.trans_lt' (by positivity)) hu.le_high
  have hdouble : Within (0 ^ 2) (64 ^ 2) (-2 * functions.log (1 - unitNumber m)) := by
    have htwo : toRat (-2) = -2 := by rw [toRat_neg, toRat_ofNat 2 (by norm_num)]
    have hlow := hlog.low_le
    have hhigh := hlog.le_high
    refine (rounded_mul rfl hlog.isFinite).within ?_ ?_ ?_ ?_
    · simpa using moderate_zero
    · norm_num
      exact moderate_ofNat 4096 (by norm_num)
    · rw [htwo]
      linarith
    · rw [htwo]
      linarith
  have hroot := within_sqrt hdouble moderate_zero h64 le_rfl (by norm_num)
  have hpi : UpTo (2 * 3.141592653589793) (2 * 3.141592653589793) :=
    .of_le rfl rfl (by decide +kernel) (by decide +kernel)
  have hangle := hpi.mul_share (upTo_one_unitNumber hn).1
  have hcos := hf.within_cos hangle.isFinite
  refine yields_pure ((rounded_mul hroot.isFinite hcos.isFinite).within h64.neg h64 ?_ ?_)
  · nlinarith [hroot.low_le, hroot.le_high, hcos.low_le]
  · nlinarith [hroot.low_le, hroot.le_high, hcos.le_high]

theorem yields_gammaFrom {d c : Float} (hd : Within (2 ^ (-1 : Int)) (2 ^ (3 : Int)) d)
    (hc : Within 0 (1 / 2) c) :
    Yields (gammaFrom functions d c) (Within (2 ^ (-160 : Int)) (2 ^ (21 : Int))) := by
  refine yields_gammaFrom_of_candidates (yields_standardNormal hf) fun x hx hpos => ?_
  have hcube := within_cube (within_root hc hx hpos)
  exact hd.mul hcube (by norm_num) (by norm_num) (by norm_num)

/-- The scale is found between 1/2 and 8, and so are the roots that it is computed from. -/
theorem yields_gammaAboveOne {shape : Float} (h : Within 1 (2 ^ (3 : Int)) shape) :
    Yields (gammaAboveOne functions shape) (Within (2 ^ (-160 : Int)) (2 ^ (21 : Int))) := by
  have hd : Within (2 ^ (-1 : Int)) (2 ^ (3 : Int)) (shape - 1 / 3) := by
    have hthird : UpTo 0.5 (1 / 3) := .of_le rfl rfl (by decide +kernel) (by decide +kernel)
    have hhalf : toRat 0.5 = 2 ^ (-1 : Int) := toRat_half.trans (by norm_num)
    have hnonneg := hthird.nonneg
    have hle := hthird.le
    refine (rounded_sub h.isFinite hthird.isFinite).within
      (moderate_two_pow (by norm_num) (by norm_num))
      (moderate_two_pow (by norm_num) (by norm_num)) ?_ ?_
    · rw [hhalf] at hle
      have hone := h.low_le
      norm_num at hle ⊢
      linarith
    · linarith [h.le_high]
  have hnine : Within (2 ^ (3 : Int)) (2 ^ (4 : Int)) 9 := by
    refine ⟨rfl, ?_, ?_⟩ <;>
    · rw [toRat_ofNat 9 (by norm_num)]
      norm_num
  have hproduct : Within (2 ^ 2) (16 ^ 2) (9 * (shape - 1 / 3)) := by
    have := hnine.mul hd (by norm_num) (by norm_num) (by norm_num)
    norm_num at this ⊢
    exact ⟨this.isFinite, this.low_le, this.le_high.trans (by norm_num)⟩
  have hroot : Within 2 16 (9 * (shape - 1 / 3)).sqrt :=
    within_sqrt hproduct (moderate_ofNat 2 (by norm_num)) (moderate_ofNat 16 (by norm_num))
      (by norm_num) (by norm_num)
  have hpos : 0 < toRat (9 * (shape - 1 / 3)).sqrt := two_pos.trans_le hroot.low_le
  have hc : Within 0 (1 / 2) (1 / (9 * (shape - 1 / 3)).sqrt) := by
    have hdiv := rounded_div (x := 1) rfl hroot.isFinite hpos.ne'
    rw [toRat_one] at hdiv
    refine hdiv.within moderate_zero ?_ (by positivity) ?_
    · simpa using moderate_two_pow (e := -1) (by norm_num) (by norm_num)
    · exact one_div_le_one_div_of_le two_pos hroot.low_le
  exact yields_gammaFrom hf hd hc

/-- A gamma number is positive and of moderate size. -/
theorem yields_gamma {shape : Float} (h : Within 1 (2 ^ (3 : Int)) shape) :
    Yields (gamma functions shape) (Within (2 ^ (-160 : Int)) (2 ^ (21 : Int))) := by
  have hone : ¬ shape < 1 := by
    rw [lt_iff_toRat_lt h.isFinite rfl, toRat_one, not_lt]
    exact h.low_le
  rw [gamma_of_not_lt hone]
  exact yields_gammaAboveOne hf h

theorem yields_gammaFrom_infinity : Yields (gammaFrom functions (1 / 0) 0) (· = 1 / 0) := by
  have hzero : Within 0 (1 / 2) 0 := ⟨rfl, toRat_zero.ge, toRat_zero.trans_le (by norm_num)⟩
  refine yields_gammaFrom_of_candidates (yields_standardNormal hf) fun x hx hpos => ?_
  have hcube := within_cube (within_root hzero hx hpos)
  exact infinity_mul hcube.isFinite (hcube.low_le.trans_lt' (by positivity))

theorem yields_gamma_infinity : Yields (gamma functions (1 / 0)) (· = 1 / 0) := by
  have hone : ¬ (1 / 0 : Float) < 1 := by decide +kernel
  have hd : (1 / 0 - 1 / 3 : Float) = 1 / 0 := by decide +kernel
  have hc : 1 / (9 * (1 / 0 : Float)).sqrt = 0 := by decide +kernel
  rw [gamma_of_not_lt hone, gammaAboveOne, hd, hc]
  exact yields_gammaFrom_infinity hf

end

section

variable (functions : Elementary) (shape : Float)

theorem yields_gammaAboveOne_isFinite :
    Yields (gammaAboveOne functions shape) fun a => a.isFinite = true → shape.isFinite = true :=
  yields_gammaFrom_of_candidates (yields_true _) fun _ _ _ ha =>
    (isFinite_of_sub (isFinite_of_mul ha).1).1

/-- No finite number has a shape that is not finite. -/
theorem yields_gamma_isFinite :
    Yields (gamma functions shape) fun a => a.isFinite = true → shape.isFinite = true := by
  refine gamma.partial_correctness functions
    (fun shape _ result => result.1.isFinite = true → shape.isFinite = true)
    (fun larger ih shape g result hrun => ?_) shape
  split_ifs at hrun
  · obtain ⟨⟨u, g₁⟩, -, hrun⟩ := Option.bind_eq_some_iff.1 hrun
    obtain ⟨⟨a, g₂⟩, hlarger, hrun⟩ := Option.bind_eq_some_iff.1 hrun
    cases hrun
    exact fun h => (isFinite_of_add (ih _ _ _ hlarger (isFinite_of_mul h).1)).1
  · exact yields_gammaAboveOne_isFinite functions shape g result hrun

/-- A shape that is not a number has no candidates, so the search for them does not end. -/
theorem yields_gamma_of_isNaN (h : shape.isNaN = true) :
    Yields (gamma functions shape) fun _ => False := by
  rw [gamma_of_not_lt (not_lt_of_isNaN h 1)]
  refine yields_gammaFrom_of_candidates (yields_true _) fun x _ hpos => ?_
  have hscale : (1 / (9 * (shape - 1 / 3)).sqrt).isNaN = true :=
    isNaN_div (.inr (isNaN_sqrt (isNaN_mul (.inr (isNaN_sub (.inl h))))))
  exact not_gt_of_isNaN (isNaN_add (.inr (isNaN_mul (.inl hscale)))) _ hpos

end

end Simulation

end Appraisal
