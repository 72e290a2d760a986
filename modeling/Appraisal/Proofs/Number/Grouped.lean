import Appraisal.Number.Grouped
import Appraisal.Proofs.Decimal.Layout
import Appraisal.Proofs.Number.Bounds
import Mathlib

/-!
# Amounts in groups of three digits

Every finite amount is rounded to the nearest whole number exactly, a half going away from zero,
also where doubles are further apart than one. What is shown is that number up to the largest one
of 64 bits in size, and the largest one beyond; the sign and the groups are right in every case.
-/

namespace Appraisal

/-- The rational number without the part behind the point. -/
def truncated (q : ℚ) : ℤ :=
  if q < 0 then -⌊-q⌋ else ⌊q⌋

/-- The nearest whole number, a half going away from zero. -/
def nearestWhole (q : ℚ) : ℤ :=
  if q < 0 then -round (-q) else round q

/-- The whole number of at most 64 bits in size that is nearest to a whole number. -/
def saturated (n : ℤ) : ℤ :=
  max (-(2 ^ 64 - 1)) (min n (2 ^ 64 - 1))

/-- A way of rounding that is mirrored at zero. -/
theorem mirrored_neg {f : ℚ → ℤ} (hzero : f 0 = 0) (q : ℚ) :
    (if -q < 0 then -f (- -q) else f (-q)) = -(if q < 0 then -f (-q) else f q) := by
  obtain h | rfl | h := lt_trichotomy q 0
  · rw [if_neg (by linarith), if_pos h, neg_neg]
  · simp [hzero]
  · rw [if_pos (by linarith), if_neg h.not_gt, neg_neg]

theorem truncated_neg (q : ℚ) : truncated (-q) = -truncated q :=
  mirrored_neg Int.floor_zero q

theorem nearestWhole_neg (q : ℚ) : nearestWhole (-q) = -nearestWhole q :=
  mirrored_neg round_zero q

theorem truncated_intCast (n : ℤ) : truncated n = n := by
  rw [truncated, ← Int.cast_neg, Int.floor_intCast, Int.floor_intCast, neg_neg, ite_self]

/-- What is cut off has the sign of the number and is smaller than one and than the number. -/
theorem sub_truncated_of_nonneg {q : ℚ} (h : 0 ≤ q) :
    0 ≤ q - truncated q ∧ q - truncated q < 1 ∧ q - truncated q ≤ q := by
  rw [truncated, if_neg h.not_gt]
  have hfloor : (0 : ℚ) ≤ ⌊q⌋ := by exact_mod_cast Int.floor_nonneg.2 h
  exact ⟨sub_nonneg.2 (Int.floor_le q), sub_lt_iff_lt_add'.2 (Int.lt_floor_add_one q),
    sub_le_self _ hfloor⟩

theorem nearestWhole_of_nonneg {q : ℚ} (h : 0 ≤ q) :
    nearestWhole q = if q - truncated q < 1 / 2 then truncated q else truncated q + 1 := by
  rw [nearestWhole, truncated, if_neg h.not_gt, if_neg h.not_gt, round_eq]
  have hle := Int.floor_le q
  have hlt := Int.lt_floor_add_one q
  split_ifs with hhalf <;> rw [Int.floor_eq_iff] <;> push_cast <;> constructor <;> linarith

theorem abs_sub_truncated_neg (q : ℚ) : |-q - truncated (-q)| = |q - truncated q| := by
  rw [truncated_neg, Int.cast_neg, neg_sub_neg, abs_sub_comm]

/-- The nearest whole number is found from what is cut off. -/
theorem nearestWhole_eq (q : ℚ) :
    nearestWhole q = if |q - truncated q| < 1 / 2 then truncated q
      else if q < 0 then truncated q - 1 else truncated q + 1 := by
  obtain h | h := le_or_gt 0 q
  · rw [nearestWhole_of_nonneg h, abs_of_nonneg (sub_truncated_of_nonneg h).1, if_neg h.not_gt]
  · have hpos : 0 ≤ -q := by linarith
    have hneg := nearestWhole_of_nonneg hpos
    rw [← abs_of_nonneg (sub_truncated_of_nonneg hpos).1, abs_sub_truncated_neg, nearestWhole_neg,
      truncated_neg] at hneg
    rw [if_pos h]
    split_ifs at hneg ⊢ <;> omega

/-- What is cut off a double is a double. -/
theorem OnGrid.sub_truncated {q : ℚ} (hq : OnGrid q) : OnGrid (q - truncated q) := by
  wlog h : 0 ≤ q generalizing q
  · have hneg := (this hq.neg (by linarith)).neg
    rwa [truncated_neg, Int.cast_neg, neg_sub, neg_sub_neg] at hneg
  obtain ⟨hlow, -, hle⟩ := sub_truncated_of_nonneg h
  obtain ⟨m, e, hm, he, rfl⟩ := hq
  obtain ⟨k, rfl | rfl⟩ := e.eq_nat_or_neg
  · have hint : (m : ℚ) * 2 ^ (k : ℤ) = ((m * 2 ^ k : ℤ) : ℚ) := by push_cast; rfl
    rw [hint, truncated_intCast, sub_self]
    exact ⟨0, 0, by norm_num, by norm_num, by norm_num⟩
  · have hpow : (0 : ℚ) < 2 ^ (-(k : ℤ)) := by positivity
    obtain ⟨c, hcut⟩ : ∃ c : ℤ, (m : ℚ) * 2 ^ (-(k : ℤ)) - truncated (m * 2 ^ (-(k : ℤ))) =
        c * 2 ^ (-(k : ℤ)) := by
      refine ⟨m - truncated (m * 2 ^ (-(k : ℤ))) * 2 ^ k, ?_⟩
      push_cast
      rw [sub_mul, mul_assoc, ← zpow_natCast, ← zpow_add₀ (by norm_num), add_neg_cancel, zpow_zero,
        mul_one]
    rw [hcut] at hlow hle ⊢
    have hnonneg : 0 ≤ c := by exact_mod_cast nonneg_of_mul_nonneg_left hlow hpow
    have hsize : c ≤ m := by exact_mod_cast le_of_mul_le_mul_right hle hpow
    refine ⟨c, _, ?_, he, rfl⟩
    rw [abs_of_nonneg hnonneg]
    exact hsize.trans_lt ((le_abs_self m).trans_lt hm)

theorem abs_sub_truncated_le (q : ℚ) : |q - truncated q| ≤ |q| := by
  wlog h : 0 ≤ q generalizing q
  · rw [← abs_sub_truncated_neg, ← abs_neg q]
    exact this (-q) (by linarith)
  obtain ⟨hlow, -, hle⟩ := sub_truncated_of_nonneg h
  rwa [abs_of_nonneg hlow, abs_of_nonneg h]

theorem abs_truncated_le (q : ℚ) : |(truncated q : ℚ)| ≤ |q| := by
  wlog h : 0 ≤ q generalizing q
  · rw [← abs_neg (truncated q : ℚ), ← abs_neg q, ← Int.cast_neg, ← truncated_neg]
    exact this (-q) (by linarith)
  obtain ⟨hlow, hlt, hle⟩ := sub_truncated_of_nonneg h
  rw [abs_of_nonneg h, abs_of_nonneg] <;> linarith

/-- A large double is whole. -/
theorem OnGrid.truncated_eq {q : ℚ} (hq : OnGrid q) (hlarge : 2 ^ 52 ≤ |q|) : truncated q = q := by
  obtain ⟨n, rfl⟩ := hq.exists_eq (e := 0) (by exact_mod_cast hlarge)
  rw [zpow_zero, mul_one, truncated_intCast]

namespace Number

section

variable {x : Float} (hx : x.isFinite = true)

include hx

theorem toRat_wholePart :
    (wholePart x).isFinite = true ∧ toRat (wholePart x) = truncated (toRat x) := by
  obtain hlarge | hsmall := le_or_gt (2 ^ 52) |toRat x|
  · rw [wholePart, if_neg (by rw [abs_lt_iff hx]; exact hlarge.not_gt)]
    exact ⟨hx, ((onGrid_toRat x).truncated_eq hlarge).symm⟩
  obtain hnonneg | hneg := le_or_gt 0 (toRat x)
  · rw [truncated, if_neg hnonneg.not_gt, ← natCast_floor_eq_intCast_floor hnonneg]
    exact wholePart_of_lt hx hnonneg (lt_of_abs_lt hsmall)
  · rw [truncated, if_pos hneg, Int.cast_neg, ← natCast_floor_eq_intCast_floor (by linarith)]
    exact wholePart_of_neg hx hneg (neg_lt_of_abs_lt hsmall)

theorem abs_sub_wholePart_lt_half :
    (x - wholePart x).abs < 0.5 ↔ |toRat x - truncated (toRat x)| < 1 / 2 := by
  obtain ⟨hfinite, hvalue⟩ := toRat_wholePart hx
  have hsub := rounded_sub hx hfinite
  rw [hvalue] at hsub
  obtain ⟨hcut, hcutValue⟩ :=
    hsub.exact (onGrid_toRat x).sub_truncated (abs_sub_truncated_le (toRat x))
  rw [lt_iff_toRat_lt ((isFinite_abs _).trans hcut) rfl, toRat_abs, hcutValue, toRat_half]

/-- Rounding is exact for every finite number. -/
theorem toRat_roundHalfAway :
    (roundHalfAway x).isFinite = true ∧ toRat (roundHalfAway x) = nearestWhole (toRat x) := by
  obtain ⟨hfinite, hvalue⟩ := toRat_wholePart hx
  have hnegative : x < 0 ↔ toRat x < 0 := by rw [lt_iff_toRat_lt hx rfl, toRat_zero]
  have hpositive : 0 < x ↔ 0 < toRat x := by rw [lt_iff_toRat_lt rfl hx, toRat_zero]
  simp only [roundHalfAway, abs_sub_wholePart_lt_half hx, hnegative, hpositive,
    nearestWhole_eq (toRat x)]
  by_cases hhalf : |toRat x - truncated (toRat x)| < 1 / 2
  · rw [if_pos hhalf, if_pos hhalf]
    exact ⟨hfinite, hvalue⟩
  rw [if_neg hhalf, if_neg hhalf]
  -- A number with a part behind the point is small, so that the next whole number is exact.
  have hsmall : |toRat x| < 2 ^ 52 := by
    by_contra! hlarge
    rw [(onGrid_toRat x).truncated_eq hlarge, sub_self] at hhalf
    norm_num at hhalf
  have hwhole : |truncated (toRat x)| < 2 ^ 52 := by
    exact_mod_cast (abs_truncated_le (toRat x)).trans_lt hsmall
  rw [abs_lt] at hwhole
  obtain hneg | hzero | hpos := lt_trichotomy (toRat x) 0
  · rw [if_pos hneg, if_pos hneg]
    refine Rounded.exact_integer ?_ (abs_lt.2 (by omega))
    have hsub := rounded_sub hfinite (y := 1) rfl
    rwa [hvalue, toRat_one, ← Int.cast_one, ← Int.cast_sub] at hsub
  · rw [hzero] at hhalf
    norm_num [truncated] at hhalf
  · rw [if_neg hpos.not_gt, if_pos hpos, if_neg hpos.not_gt]
    refine Rounded.exact_integer ?_ (abs_lt.2 (by omega))
    have hadd := rounded_add hfinite (y := 1) rfl
    rwa [hvalue, toRat_one, ← Int.cast_one, ← Int.cast_add] at hadd

end

open Decimal (isDigit isDigit_of_mem_toDigits)

/-- A minus sign exactly for a negative number, and behind it digits with commas between groups of
three. The first group may be shorter. -/
structure InGroups (n : ℤ) (text : List Char) : Prop where
  sign : text.head? = some '-' ↔ n < 0
  groups : ∃ first more, (text.drop (if n < 0 then 1 else 0)).splitOn ',' = first :: more ∧
    1 ≤ first.length ∧ first.length ≤ 3 ∧ (∀ group ∈ more, group.length = 3) ∧
    ∀ group ∈ first :: more, ∀ c ∈ group, isDigit c = true

def withoutCommas (text : String) : String :=
  String.ofList (text.toList.filter (· ≠ ','))

theorem intercalate_cons_head (c : Char) (first : List Char) (more : List (List Char)) :
    [','].intercalate ((c :: first) :: more) = c :: [','].intercalate (first :: more) := by
  cases more with
  | nil => simp
  | cons group more => simp only [List.intercalate_cons_cons, List.cons_append]

/-- Behind the first group all groups are full. -/
theorem exists_groups {cs : List Char} (hne : cs ≠ []) :
    ∃ first more, groupDigits cs = [','].intercalate (first :: more) ∧
      (first :: more).flatten = cs ∧ first.length = (cs.length - 1) % 3 + 1 ∧
      ∀ group ∈ more, group.length = 3 := by
  induction cs with
  | nil => exact absurd rfl hne
  | cons c cs ih =>
    by_cases hcs : cs = []
    · subst hcs
      exact ⟨[c], [], rfl, rfl, rfl, List.forall_mem_nil _⟩
    obtain ⟨first, more, hshown, hflat, hfirst, hmore⟩ := ih hcs
    have hpos : 0 < cs.length := List.length_pos_iff.2 hcs
    rw [groupDigits, hshown]
    split_ifs with hcomma
    · -- The groups behind are full, and the digit is the first one of a group of its own.
      refine ⟨[c], first :: more, by simp [List.intercalate_cons_cons], ?_, ?_, ?_⟩
      · rw [List.flatten_cons, hflat]
        rfl
      · simp only [List.length_cons, List.length_nil]
        omega
      · exact List.forall_mem_cons.2 ⟨by omega, hmore⟩
    · refine ⟨c :: first, more, (intercalate_cons_head c first more).symm, ?_, ?_, hmore⟩
      · rw [← hflat]
        rfl
      · have hmod : cs.length % 3 ≠ 0 := fun hzero => hcomma ⟨hzero, hcs⟩
        simp only [List.length_cons]
        omega

theorem filter_groupDigits (cs : List Char) :
    (groupDigits cs).filter (· ≠ ',') = cs.filter (· ≠ ',') := by
  induction cs with
  | nil => rfl
  | cons c cs ih =>
    rw [groupDigits]
    split_ifs
    · rw [List.filter_cons, List.filter_cons_of_neg (by decide), ih, List.filter_cons]
    · rw [List.filter_cons, ih, List.filter_cons]

theorem inGroups_groupDigits {n : ℤ} {cs : List Char} (hne : cs ≠ [])
    (hdigits : ∀ c ∈ cs, isDigit c = true) :
    InGroups n ((if n < 0 then ['-'] else []) ++ groupDigits cs) := by
  obtain ⟨first, more, hshown, hflat, hfirst, hmore⟩ := exists_groups hne
  have hgroups : ∀ group ∈ first :: more, ∀ c ∈ group, isDigit c = true := fun group hgroup c hc =>
    hdigits c (hflat ▸ List.mem_flatten_of_mem hgroup hc)
  have hsplit : (groupDigits cs).splitOn ',' = first :: more := by
    rw [hshown, List.splitOn_intercalate _ _ (List.cons_ne_nil _ _)]
    intro group hgroup hcomma
    cases hgroups group hgroup ',' hcomma
  constructor
  · split_ifs with hn
    · simp [hn]
    · have hstart : (groupDigits cs).head? ≠ some '-' := by
        obtain ⟨c, rest, rfl⟩ : ∃ c rest, first = c :: rest :=
          List.exists_cons_of_length_pos (by omega)
        rw [hshown, intercalate_cons_head, List.head?_cons]
        rintro ⟨⟩
        cases hgroups _ List.mem_cons_self '-' List.mem_cons_self
      simpa [hn] using hstart
  · refine ⟨first, more, ?_, by omega, by omega, hmore, hgroups⟩
    split_ifs
    · exact hsplit
    · exact hsplit

theorem toList_toString (n : ℤ) :
    (toString n).toList = (if n < 0 then ['-'] else []) ++ Nat.toDigits 10 n.natAbs := by
  cases n with
  | ofNat m => exact String.toList_ofList
  | negSucc m =>
    rw [if_pos (Int.negSucc_lt_zero m)]
    change ("-" ++ Nat.repr m.succ).toList = _
    rw [String.toList_append, Nat.repr]
    exact congrArg (['-'] ++ ·) String.toList_ofList

theorem toString_injective : Function.Injective (toString : ℤ → String) := fun m n h => by
  have hread : m.repr.toInt? = n.repr.toInt? := congrArg String.toInt? h
  rwa [Int.toInt?_repr, Int.toInt?_repr, Option.some_inj] at hread

theorem saturated_neg_iff (n : ℤ) : saturated n < 0 ↔ n < 0 := by
  rw [saturated]
  omega

theorem natAbs_saturated (n : ℤ) : (saturated n).natAbs = min n.natAbs (2 ^ 64 - 1) := by
  rw [saturated]
  omega

theorem saturated_eq_iff (n : ℤ) : saturated n = n ↔ |n| < 2 ^ 64 := by
  rw [saturated, abs_lt]
  omega

theorem toList_grouped {x : Float} (hx : x.isFinite = true) :
    (grouped x).toList = (if nearestWhole (toRat x) < 0 then ['-'] else []) ++
      groupDigits (Nat.toDigits 10 (saturated (nearestWhole (toRat x))).natAbs) := by
  obtain ⟨hfinite, hvalue⟩ := toRat_roundHalfAway hx
  have hsize : toRat (roundHalfAway x).abs = (nearestWhole (toRat x)).natAbs := by
    rw [toRat_abs, hvalue, Nat.cast_natAbs, Int.cast_abs]
  have hnatural :
      toNatural (roundHalfAway x).abs = (saturated (nearestWhole (toRat x))).natAbs := by
    rw [toNatural, toNat_toUInt64_of_nonneg ((isFinite_abs _).trans hfinite)
      (by rw [hsize]; positivity), hsize, Nat.floor_natCast, natAbs_saturated]
  have hnegative : roundHalfAway x < 0 ↔ nearestWhole (toRat x) < 0 := by
    rw [lt_iff_toRat_lt hfinite rfl, hvalue, toRat_zero, Int.cast_lt_zero]
  simp only [grouped, if_pos hx, hnatural, hnegative, String.toList_ofList]
  split_ifs <;> rfl

/-- Every finite amount is shown with its sign and in groups of three digits. Without the commas it
is the numeral of the nearest whole number of 64 bits in size. So it is the numeral of the nearest
whole number exactly if that has no more than 64 bits. -/
theorem withoutCommas_grouped_eq_iff {x : Float} (hx : x.isFinite = true) :
    InGroups (nearestWhole (toRat x)) (grouped x).toList ∧
    withoutCommas (grouped x) = toString (saturated (nearestWhole (toRat x))) ∧
    (withoutCommas (grouped x) = toString (nearestWhole (toRat x)) ↔
      |nearestWhole (toRat x)| < 2 ^ 64) := by
  generalize hn : nearestWhole (toRat x) = n
  have hshown := toList_grouped hx
  rw [hn] at hshown
  have hdigits : ∀ c ∈ Nat.toDigits 10 (saturated n).natAbs, isDigit c = true :=
    fun c hc => isDigit_of_mem_toDigits hc
  have hplain : withoutCommas (grouped x) = toString (saturated n) := by
    apply String.toList_injective
    rw [withoutCommas, String.toList_ofList, hshown, toList_toString, List.filter_append,
      filter_groupDigits]
    congr 1
    · simp only [saturated_neg_iff]
      split_ifs <;> rfl
    · refine List.filter_eq_self.2 fun c hc => decide_eq_true ?_
      rintro rfl
      cases hdigits ',' hc
  refine ⟨?_, hplain, ?_⟩
  · rw [hshown]
    exact inGroups_groupDigits Nat.toDigits_ne_nil hdigits
  · rw [hplain, toString_injective.eq_iff, saturated_eq_iff]

/-- A half is rounded away from zero, below zero too. -/
theorem withoutCommas_grouped_of_half :
    (-1234567.5 : Float).isFinite = true ∧
      withoutCommas (grouped (-1234567.5)) = toString (-1234568 : ℤ) ∧
      InGroups (-1234568) (grouped (-1234567.5)).toList := by
  have hvalue : toRat (-1234567.5) = -1234567.5 := by
    rw [toRat_of_unpack (u := .finite .negative (2469135 * 2 ^ 31) (-32) (by norm_num)) rfl]
    norm_num [unpackedValue, Float.Model.UnpackedFloat.Sign.apply]
  have hnearest : nearestWhole (toRat (-1234567.5)) = -1234568 := by
    rw [hvalue]
    norm_num [nearestWhole, round_eq]
  obtain ⟨hgroups, -, hiff⟩ := withoutCommas_grouped_eq_iff (x := -1234567.5) rfl
  rw [hnearest] at hgroups hiff
  exact ⟨rfl, hiff.2 (by norm_num), hgroups⟩

/-- Not every amount is shown as its nearest whole number: a hundred quintillions are not. -/
theorem not_withoutCommas_grouped_of_large :
    (1e20 : Float).isFinite = true ∧ nearestWhole (toRat 1e20) = 10 ^ 20 ∧
      grouped 1e20 = "18,446,744,073,709,551,615" ∧
      ¬ ∀ x : Float, x.isFinite = true →
        withoutCommas (grouped x) = toString (nearestWhole (toRat x)) := by
  have hvalue : toRat 1e20 = 10 ^ 20 := by
    rw [toRat_of_unpack (u := .finite .positive (5 ^ 20 * 2 ^ 6) 14 (by norm_num)) rfl]
    norm_num [unpackedValue, Float.Model.UnpackedFloat.Sign.apply]
  have hnearest : nearestWhole (toRat 1e20) = 10 ^ 20 := by
    rw [hvalue]
    norm_num [nearestWhole, round_eq]
  have hshown : grouped 1e20 = "18,446,744,073,709,551,615" := by decide +kernel
  refine ⟨rfl, hnearest, hshown, fun hall => ?_⟩
  have hwrong := hall 1e20 rfl
  rw [hnearest, hshown] at hwrong
  exact absurd hwrong (by decide)

end Number

end Appraisal
