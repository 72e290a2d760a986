import Appraisal.Decimal.Layout
import Appraisal.Decimal.Reader
import Appraisal.Proofs.Decimal.Shortest

/-!
# Number texts read back

The text of a double spells the decimal that was chosen for it, in full and in scientific form. So
different doubles have different texts, the two zeros included.
-/

namespace Appraisal.Decimal

theorem isDigit_of_mem_toDigits {n : Nat} {c : Char} (h : c ∈ Nat.toDigits 10 n) :
    isDigit c = true := by
  simpa [Char.isDigit, isDigit, Char.le_def] using
    Nat.isDigit_of_mem_toDigits (by decide) (by decide) h

theorem isDigit_of_mem_zeros {n : Nat} {c : Char} (h : c ∈ zeros n) : isDigit c = true := by
  rw [List.eq_of_mem_replicate h]
  rfl

theorem digitsValue_toDigits (n : Nat) : digitsValue (Nat.toDigits 10 n) = n :=
  Nat.ofDigitChars_ten_toDigits

theorem digitsValue_zeros_append (n : Nat) (cs : List Char) :
    digitsValue (zeros n ++ cs) = digitsValue cs := by
  change Nat.ofDigitChars 10 (zeros n ++ cs) 0 = _
  rw [Nat.ofDigitChars_append, zeros, Nat.ofDigitChars_replicate_zero, Nat.mul_zero]
  rfl

theorem digitsValue_append_zeros (cs : List Char) (n : Nat) :
    digitsValue (cs ++ zeros n) = digitsValue cs * 10 ^ n := by
  change Nat.ofDigitChars 10 (cs ++ zeros n) 0 = _
  rw [Nat.ofDigitChars_append, zeros, Nat.ofDigitChars_replicate_zero, Nat.mul_comm]
  rfl

theorem readPlain?_digits {cs : List Char} (hcs : ∀ c ∈ cs, isDigit c = true) (hne : cs ≠ []) :
    readPlain? cs = some (digitsValue cs, 0) := by
  simp [readPlain?, List.takeWhile_eq_self_iff.2 hcs, List.dropWhile_eq_nil_iff.2 hcs, hne]

theorem readPlain?_point {whole fraction : List Char} (hwhole : ∀ c ∈ whole, isDigit c = true)
    (hfraction : ∀ c ∈ fraction, isDigit c = true) (hne : fraction ≠ []) :
    readPlain? (whole ++ '.' :: fraction) =
      some (digitsValue (whole ++ fraction), -(fraction.length : Int)) := by
  have hpoint : isDigit '.' = false := rfl
  have htake : (whole ++ '.' :: fraction).takeWhile isDigit = whole := by
    rw [List.takeWhile_append_of_pos hwhole, List.takeWhile_cons_of_neg (by simp [hpoint]),
      List.append_nil]
  have hdrop : (whole ++ '.' :: fraction).dropWhile isDigit = '.' :: fraction := by
    rw [List.dropWhile_append_of_pos hwhole, List.dropWhile_cons_of_neg (by simp [hpoint])]
  have hall : fraction.all isDigit = true := List.all_eq_true.2 hfraction
  simp [readPlain?, htake, hdrop, hall, hne]

section WithPoint

variable {digits : List Char} (hdigits : ∀ c ∈ digits, isDigit c = true) (places : Nat)

include hdigits

theorem isDigit_of_mem_padded {n : Nat} : ∀ c ∈ zeros n ++ digits, isDigit c = true :=
  List.forall_mem_append.2 ⟨fun _ => isDigit_of_mem_zeros, hdigits⟩

theorem readPlain?_withPoint :
    readPlain? (withPoint digits places) = some (digitsValue digits, -(places : Int)) := by
  unfold withPoint
  extract_lets padded whole
  have hpadded : ∀ c ∈ padded, isDigit c = true := isDigit_of_mem_padded hdigits
  have hlength : places + 1 ≤ padded.length := by
    simp only [padded, zeros, List.length_append, List.length_replicate]
    omega
  have hvalue : digitsValue padded = digitsValue digits := digitsValue_zeros_append _ _
  split
  · rename_i hplaces
    rw [readPlain?_digits hpadded (List.ne_nil_of_length_pos (by omega)), hvalue, hplaces]
    rfl
  · have hfraction : (padded.drop whole).length = places := by
      rw [List.length_drop]
      omega
    rw [readPlain?_point (fun c hc => hpadded c (List.mem_of_mem_take hc))
      (fun c hc => hpadded c (List.mem_of_mem_drop hc))
      (List.ne_nil_of_length_pos (by omega)), List.take_append_drop, hvalue, hfraction]

theorem mem_withPoint {c : Char} (hc : c ∈ withPoint digits places) :
    isDigit c = true ∨ c = '.' := by
  unfold withPoint at hc
  extract_lets padded whole at hc
  have hpadded : ∀ c ∈ padded, isDigit c = true := isDigit_of_mem_padded hdigits
  split at hc
  · exact .inl (hpadded c hc)
  · rcases List.mem_append.1 hc with hc | hc
    · exact .inl (hpadded c (List.mem_of_mem_take hc))
    · rcases List.mem_cons.1 hc with rfl | hc
      · exact .inr rfl
      · exact .inl (hpadded c (List.mem_of_mem_drop hc))

end WithPoint

/-- The decimal that a text without a sign spells. -/
def decimal? (cs : List Char) : Option Scaled := do
  let (digits, scale) ← readPlain? (cs.takeWhile (!isExponentMark ·))
  match cs.dropWhile (!isExponentMark ·) with
  | [] => return ⟨digits, scale⟩
  | _ :: power => return ⟨digits, scale + (← readExponent? power)⟩

theorem not_isExponentMark {c : Char} (hc : isDigit c = true ∨ c = '.') :
    (!isExponentMark c) = true := by
  rw [Bool.not_eq_true', isExponentMark, Bool.or_eq_false_iff, decide_eq_false_iff_not,
    decide_eq_false_iff_not]
  constructor <;> rintro rfl <;> revert hc <;> decide

section Plain

variable {cs : List Char} {n : Nat} {k e : Int}
  (hcs : ∀ c ∈ cs, isDigit c = true ∨ c = '.') (hplain : readPlain? cs = some (n, k))

include hcs hplain

theorem decimal?_plain : decimal? cs = some ⟨n, k⟩ := by
  have hmarks : ∀ c ∈ cs, (!isExponentMark c) = true := fun c hc => not_isExponentMark (hcs c hc)
  simp [decimal?, List.takeWhile_eq_self_iff.2 hmarks, List.dropWhile_eq_nil_iff.2 hmarks, hplain]

theorem decimal?_power {power : List Char} (hpower : readExponent? power = some e) :
    decimal? (cs ++ 'e' :: power) = some ⟨n, k + e⟩ := by
  have hmarks : ∀ c ∈ cs, (!isExponentMark c) = true := fun c hc => not_isExponentMark (hcs c hc)
  have hmark : isExponentMark 'e' = true := rfl
  simp [decimal?, List.takeWhile_append_of_pos hmarks, List.dropWhile_append_of_pos hmarks, hmark,
    hplain, hpower]

end Plain

theorem readExponent?_exponentText (e : Int) : readExponent? (exponentText e) = some e := by
  have hdigits (n : Nat) : (Nat.toDigits 10 n).all isDigit = true :=
    List.all_eq_true.2 fun _ => isDigit_of_mem_toDigits
  have hne (n : Nat) : Nat.toDigits 10 n ≠ [] := Nat.toDigits_ne_nil
  unfold exponentText
  split
  · simp [readExponent?, hdigits, hne, digitsValue_toDigits]
    omega
  · simp [readExponent?, hdigits, hne, digitsValue_toDigits]
    omega

theorem isDigit_of_mem_whole {s : Scaled} {n : Nat} :
    ∀ c ∈ Nat.toDigits 10 s.digits ++ zeros n, isDigit c = true :=
  List.forall_mem_append.2 ⟨fun _ => isDigit_of_mem_toDigits, fun _ => isDigit_of_mem_zeros⟩

theorem mem_positionalText {pointZero : Bool} {s : Scaled} {c : Char}
    (hc : c ∈ positionalText pointZero s) : isDigit c = true ∨ c = '.' := by
  unfold positionalText at hc
  extract_lets digits at hc
  split at hc
  · rcases List.mem_append.1 hc with hc | hc
    · exact .inl (isDigit_of_mem_whole c hc)
    · cases pointZero with
      | false => cases hc
      | true =>
        rcases List.mem_cons.1 hc with rfl | hc
        · exact .inr rfl
        · exact .inl (isDigit_of_mem_zeros (n := 1) hc)
  · exact mem_withPoint (fun _ => isDigit_of_mem_toDigits) _ hc

theorem readPlain?_positionalText (pointZero : Bool) (s : Scaled) :
    ∃ n k, readPlain? (positionalText pointZero s) = some (n, k) ∧
      (Scaled.mk n k).value = s.value := by
  unfold positionalText
  extract_lets digits
  have hdigits : ∀ c ∈ digits, isDigit c = true := fun _ => isDigit_of_mem_toDigits
  have hvalue : digitsValue digits = s.digits := digitsValue_toDigits _
  split
  · rename_i hexponent
    obtain ⟨n, hn⟩ := Int.eq_ofNat_of_zero_le hexponent
    have hpower : s.value = s.digits * 10 ^ n := by rw [Scaled.value, hn, zpow_natCast]
    rw [hn, Int.toNat_natCast, hpower]
    cases pointZero with
    | false =>
      refine ⟨s.digits * 10 ^ n, 0, ?_, by simp [Scaled.value]⟩
      rw [if_neg (by decide), List.append_nil,
        readPlain?_digits isDigit_of_mem_whole (by simp), digitsValue_append_zeros, hvalue]
    | true =>
      refine ⟨s.digits * 10 ^ (n + 1), -1, ?_, ?_⟩
      · have hzeros : zeros n ++ ['0'] = zeros (n + 1) := List.replicate_succ'.symm
        have hzero : ∀ c ∈ ['0'], isDigit c = true := fun _ => isDigit_of_mem_zeros (n := 1)
        rw [if_pos rfl, readPlain?_point isDigit_of_mem_whole hzero (by decide),
          List.append_assoc, hzeros, digitsValue_append_zeros, hvalue]
        rfl
      · rw [Scaled.value]
        push_cast
        rw [pow_succ]
        ring
  · rename_i hexponent
    refine ⟨s.digits, s.exponent, ?_, rfl⟩
    rw [readPlain?_withPoint hdigits, hvalue]
    congr
    omega

theorem decimal?_positionalText (pointZero : Bool) (s : Scaled) :
    ∃ t, decimal? (positionalText pointZero s) = some t ∧ t.value = s.value := by
  obtain ⟨n, k, hplain, hvalue⟩ := readPlain?_positionalText pointZero s
  exact ⟨⟨n, k⟩, decimal?_plain (fun _ => mem_positionalText) hplain, hvalue⟩

theorem decimal?_scientificText (s : Scaled) : decimal? (scientificText s) = some s := by
  have hdigits : ∀ c ∈ Nat.toDigits 10 s.digits, isDigit c = true :=
    fun _ => isDigit_of_mem_toDigits
  have hwidth : 0 < s.width := List.length_pos_of_ne_nil Nat.toDigits_ne_nil
  have hplain := readPlain?_withPoint hdigits (s.width - 1)
  have hpower := readExponent?_exponentText s.leading
  have htext := decimal?_power (fun _ => mem_withPoint hdigits _) hplain hpower
  rw [digitsValue_toDigits, Scaled.leading, Nat.cast_sub hwidth] at htext
  refine htext.trans (congrArg (fun e => some (Scaled.mk s.digits e)) ?_)
  push_cast
  ring

/-- The decimal that the text of a magnitude shows. -/
def shown (tie : Tie) (d : Dyadic) : Scaled :=
  if d.mantissa = 0 then ⟨0, 0⟩ else shortest tie d

theorem rounds_shown {d : Dyadic} (h : d.IsCanonical) (tie : Tie) :
    d.Rounds (shown tie d).value := by
  unfold shown
  split
  · rename_i hzero
    have hpow : (0 : ℚ) < 2 ^ d.exponent := by positivity
    have hgap : (0 : ℚ) ≤ if d.narrowBelow then 1 else 2 := by split <;> norm_num
    have hvalue : (Scaled.mk 0 0).value = 0 := by simp [Scaled.value]
    rw [hvalue]
    refine ⟨?_, ?_, fun hodd => absurd hzero (by omega)⟩
    · rw [Dyadic.below, hzero]
      push_cast
      nlinarith
    · rw [Dyadic.above]
      positivity
  · exact rounds_shortest h (by omega) tie

/-- The text of a magnitude spells the decimal that it shows. -/
theorem decimal?_magnitudeText (style : Style) (x : Float) :
    ∃ s, decimal? (magnitudeText style x) = some s ∧
      s.value = (shown style.tie (Dyadic.ofFloat x)).value := by
  unfold magnitudeText
  extract_lets d s
  split
  · exact decimal?_positionalText _ _
  · exact ⟨s, decimal?_scientificText s, rfl⟩

theorem mem_exponentText {e : Int} {c : Char} (hc : c ∈ exponentText e) :
    isDigit c = true ∨ c = '+' ∨ c = '-' := by
  unfold exponentText at hc
  split at hc
  · rcases List.mem_cons.1 hc with rfl | hc
    · exact .inr (.inl rfl)
    · exact .inl (isDigit_of_mem_toDigits hc)
  · rcases List.mem_cons.1 hc with rfl | hc
    · exact .inr (.inr rfl)
    · exact .inl (isDigit_of_mem_toDigits hc)

/-- The characters of the text of a magnitude. -/
theorem mem_magnitudeText {style : Style} {x : Float} {c : Char}
    (hc : c ∈ magnitudeText style x) : isDigit c = true ∨ c ∈ ['.', 'e', '+', '-'] := by
  have hplain (h : isDigit c = true ∨ c = '.') : isDigit c = true ∨ c ∈ ['.', 'e', '+', '-'] :=
    h.imp_right fun h => by simp [h]
  unfold magnitudeText at hc
  extract_lets d s at hc
  split at hc
  · exact hplain (mem_positionalText hc)
  · rcases List.mem_append.1 hc with hc | hc
    · exact hplain (mem_withPoint (fun _ => isDigit_of_mem_toDigits) _ hc)
    · rcases List.mem_cons.1 hc with rfl | hc
      · exact .inr (by decide)
      · exact (mem_exponentText hc).imp_right fun h => by simp [h]

theorem ofBits_inj {b b' : Nat} (h : Dyadic.ofBits b = Dyadic.ofBits b') :
    b % 2 ^ 63 = b' % 2 ^ 63 := by
  simp only [Dyadic.ofBits, Nat.pow_eq] at h
  split at h <;> split at h <;> simp only [Dyadic.mk.injEq] at h <;> omega

theorem magnitudeText_inj {style : Style} {x y : Float}
    (h : magnitudeText style x = magnitudeText style y) : Dyadic.ofFloat x = Dyadic.ofFloat y := by
  obtain ⟨s, hs, hx⟩ := decimal?_magnitudeText style x
  obtain ⟨t, ht, hy⟩ := decimal?_magnitudeText style y
  obtain rfl : s = t := by rwa [h, ht, Option.some.injEq, eq_comm] at hs
  have hrounds (z : Float) := rounds_shown (Dyadic.isCanonical_ofBits z.toBits.toNat) style.tie
  refine (Dyadic.isCanonical_ofBits _).eq_of_rounds (Dyadic.isCanonical_ofBits _) (hrounds x) ?_
  have hvalue : (shown style.tie (Dyadic.ofFloat x)).value =
      (shown style.tie (Dyadic.ofFloat y)).value := hx.symm.trans hy
  exact hvalue ▸ hrounds y

/-- A text without a sign does not start with one. -/
theorem magnitudeText_ne_minus (style : Style) (x : Float) (cs : List Char) :
    magnitudeText style x ≠ '-' :: cs := by
  intro h
  obtain ⟨s, hs, -⟩ := decimal?_magnitudeText style x
  rw [h] at hs
  cases hs

/-- No two doubles have the same text. -/
theorem render_injective (style : Style) : Function.Injective style.render := by
  intro x y h
  have htext : (if isNegative x then '-' :: magnitudeText style x else magnitudeText style x) =
      if isNegative y then '-' :: magnitudeText style y else magnitudeText style y :=
    String.ofList_injective h
  obtain ⟨hsign, hmagnitude⟩ : isNegative x = isNegative y ∧
      magnitudeText style x = magnitudeText style y := by
    cases hx : isNegative x <;> cases hy : isNegative y <;>
      simp only [hx, hy, if_true, Bool.false_eq_true, if_false] at htext
    · exact ⟨rfl, htext⟩
    · exact absurd htext (magnitudeText_ne_minus style x _)
    · exact absurd htext.symm (magnitudeText_ne_minus style y _)
    · exact ⟨rfl, List.tail_eq_of_cons_eq htext⟩
  have hbits := ofBits_inj (magnitudeText_inj hmagnitude)
  have hx := x.toBits.toNat_lt
  have hy := y.toBits.toNat_lt
  simp only [isNegative, decide_eq_decide, Nat.pow_eq] at hsign
  have heq : x.toBits = y.toBits := UInt64.toNat_inj.1 (by omega)
  obtain ⟨⟨bits, valid⟩⟩ := x
  obtain ⟨⟨bits', valid'⟩⟩ := y
  obtain rfl : bits = bits' := heq
  rfl

end Appraisal.Decimal
