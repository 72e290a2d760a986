import Appraisal.Instant
import Mathlib.Tactic.IntervalCases

/-!
# Timestamps read back

A number of days gives a date of the calendar, whose day is that number again, and a timestamp tells
the instant that it was written for.
-/

namespace Appraisal

namespace Instant

/-- A day of the cycle of 400 years that starts in March: centuries, groups of four years and years
before it, and the days before it in its own year. Only leap years have a day more. -/
structure CycleDay (n : Int) where
  century : Int
  four : Int
  one : Int
  day : Int
  hcentury : 0 ≤ century ∧ century ≤ 3
  hfour : 0 ≤ four ∧ four ≤ 24
  hone : 0 ≤ one ∧ one ≤ 3
  hday : 0 ≤ day ∧ (day ≤ 364 ∨ day = 365 ∧ one = 3 ∧ (four = 24 → century = 3))
  eq : n = 36524 * century + 1461 * four + 365 * one + day

/-- The year of the cycle, counted from March. -/
def CycleDay.year {n : Int} (c : CycleDay n) : Int :=
  100 * c.century + 4 * c.four + c.one

theorem exists_cycleDay {n : Int} (h0 : 0 ≤ n) (h1 : n < 146097) : Nonempty (CycleDay n) := by
  obtain ⟨g, hg⟩ : ∃ g, 0 ≤ g ∧ g ≤ 3 ∧ 36524 * g ≤ n ∧ (n < 36524 * g + 36524 ∨ g = 3) :=
    ⟨if n = 146096 then 3 else n / 36524, by split <;> omega⟩
  obtain ⟨f, hf⟩ : ∃ f, 0 ≤ f ∧ 36524 * g + 1461 * f ≤ n ∧ n < 36524 * g + 1461 * f + 1461 :=
    ⟨(n - 36524 * g) / 1461, by omega⟩
  obtain ⟨k, hk⟩ : ∃ k, 0 ≤ k ∧ k ≤ 3 ∧ 36524 * g + 1461 * f + 365 * k ≤ n ∧
      (n < 36524 * g + 1461 * f + 365 * k + 365 ∨ k = 3) :=
    ⟨if n - 36524 * g - 1461 * f = 1460 then 3 else (n - 36524 * g - 1461 * f) / 365,
      by split <;> omega⟩
  exact ⟨⟨g, f, k, n - 36524 * g - 1461 * f - 365 * k,
    by omega, by omega, by omega, by omega, by omega⟩⟩

theorem nonempty_cycleDay (days : Int) : Nonempty (CycleDay ((days + 719468) % 146097)) :=
  exists_cycleDay (Int.emod_nonneg _ (by decide)) (Int.emod_lt_of_pos _ (by decide))

theorem CycleDay.year_bounds {n : Int} (c : CycleDay n) : 0 ≤ c.year ∧ c.year < 400 := by
  have hcentury := c.hcentury
  have hfour := c.hfour
  have hone := c.hone
  unfold year
  omega

theorem CycleDay.day_le {n : Int} (c : CycleDay n) : c.day ≤ 365 := by
  have hday := c.hday
  omega

theorem CycleDay.yearOfEra {n : Int} (c : CycleDay n) :
    (n - n / 1460 + n / 36524 - n / 146096) / 365 = c.year := by
  obtain ⟨g, f, k, d, hg, hf, hk, hd, rfl⟩ := c
  simp only [year]
  have hlast : (36524 * g + 1461 * f + 365 * k + d) / 36524 -
      (36524 * g + 1461 * f + 365 * k + d) / 146096 = g := by
    by_cases h : 36524 * g + 1461 * f + 365 * k + d = 146096
    · omega
    · have hcentury : (36524 * g + 1461 * f + 365 * k + d) / 36524 = g := by omega
      have hcycle : (36524 * g + 1461 * f + 365 * k + d) / 146096 = 0 := by omega
      omega
  have hfours : (36524 * g + 1461 * f + 365 * k + d) / 1460 =
      25 * g + f + (24 * g + f + 365 * k + d) / 1460 := by omega
  omega

theorem CycleDay.dayOfYear {n : Int} (c : CycleDay n) :
    n - (365 * c.year + c.year / 4 - c.year / 100) = c.day := by
  obtain ⟨g, f, k, d, hg, hf, hk, hd, rfl⟩ := c
  simp only [year]
  omega

theorem daysFromDate_of_cycle {era y : Int} {m day : Nat} (hy : 0 ≤ y) (hy' : y < 400)
    (hm : m < 12) :
    daysFromDate (y + era * 400 + if m < 10 then 0 else 1) (if m < 10 then m + 3 else m - 9) day =
      era * 146097 + (365 * y + y / 4 - y / 100) + ((153 * (m : Int) + 2) / 5 + day - 1) -
        719468 := by
  have hera : (y + era * 400) / 400 = era := by omega
  have hyear : (y + era * 400) % 400 = y := by omega
  unfold daysFromDate
  by_cases h : m < 10
  · have hmonth : ((((m + 3 : Nat) : Int) + 9) % 12) = m := by omega
    simp only [h, if_true, if_neg (show ¬ m + 3 ≤ 2 by omega), Int.add_zero, hera, hyear, hmonth]
    omega
  · have hmonth : ((((m - 9 : Nat) : Int) + 9) % 12) = m := by omega
    simp only [h, if_false, if_pos (show m - 9 ≤ 2 by omega), Int.add_sub_cancel, hera, hyear,
      hmonth]
    omega

/-- The month of a day of the year, both counted from March, and the day in it. -/
theorem exists_monthDay {d : Int} (h0 : 0 ≤ d) (h1 : d ≤ 365) :
    ∃ m day : Nat, m < 12 ∧ (5 * d + 2) / 153 = m ∧
      d - (153 * (m : Int) + 2) / 5 + 1 = day ∧ 1 ≤ day ∧
      (153 * (m : Int) + 2) / 5 + day ≤ (153 * (m + 1 : Int) + 2) / 5 := by
  obtain ⟨m, hm⟩ := Int.eq_ofNat_of_zero_le (show 0 ≤ (5 * d + 2) / 153 by omega)
  have hfirst : (153 * (m : Int) + 2) / 5 ≤ d := by omega
  have hlast : d < (153 * (m + 1 : Int) + 2) / 5 := by omega
  obtain ⟨day, hday⟩ := Int.eq_ofNat_of_zero_le
    (show 0 ≤ d - (153 * (m : Int) + 2) / 5 + 1 by omega)
  exact ⟨m, day, by omega, hm, hday, by omega, by omega⟩

theorem dateFromDays_eq {days : Int} (c : CycleDay ((days + 719468) % 146097)) {m day : Nat}
    (hm' : m < 12) (hm : (5 * c.day + 2) / 153 = m)
    (hday : c.day - (153 * (m : Int) + 2) / 5 + 1 = day) :
    dateFromDays days =
      (c.year + (days + 719468) / 146097 * 400 + if m < 10 then 0 else 1,
        if m < 10 then m + 3 else m - 9, day) := by
  simp only [dateFromDays, c.yearOfEra, c.dayOfYear, hm, hday, Int.toNat_natCast]
  by_cases h : m < 10
  · have h' : (m : Int) < 10 := by omega
    simp only [h, h', if_true, if_neg (show ¬ (m : Int) + 3 ≤ 2 by omega)]
    congr 2
  · have h' : ¬ (m : Int) < 10 := by omega
    simp only [h, h', if_false, if_pos (show (m : Int) - 9 ≤ 2 by omega)]
    congr 2
    omega

theorem isLeapYear_iff {year : Int} :
    isLeapYear year = true ↔ year % 4 = 0 ∧ (year % 100 ≠ 0 ∨ year % 400 = 0) := by
  simp [isLeapYear]

theorem isLeapYear_of_day {n : Int} (c : CycleDay n) (era : Int) (h : c.day = 365) :
    isLeapYear (c.year + era * 400 + 1) = true := by
  have hfour := c.hfour
  have hday := c.hday
  rw [isLeapYear_iff, CycleDay.year]
  omega

/-- The date of a day is a date of the calendar, and its day is the day. -/
theorem daysFromDate_dateFromDays (days : Int) {year : Int} {month day : Nat}
    (h : dateFromDays days = (year, month, day)) :
    daysFromDate year month day = days ∧ 1 ≤ month ∧ month ≤ 12 ∧ 1 ≤ day ∧
      day ≤ daysInMonth year month := by
  obtain ⟨c⟩ := nonempty_cycleDay days
  have hle := c.day_le
  obtain ⟨m, day', hm, hmonth, hdayOfYear, hday, hend⟩ := exists_monthDay c.hday.1 hle
  rw [dateFromDays_eq c hm hmonth hdayOfYear] at h
  cases h
  refine ⟨?_, by split_ifs <;> omega, by split_ifs <;> omega, hday, ?_⟩
  · have hn := c.dayOfYear
    rw [daysFromDate_of_cycle c.year_bounds.1 c.year_bounds.2 hm]
    omega
  · by_cases hfeb : m = 11
    · subst hfeb
      simp only [daysInMonth, show ¬ 11 < 10 by decide, if_false, Nat.reduceSub, if_true]
      split_ifs with hleap
      · omega
      · have hne : c.day ≠ 365 := fun h365 => hleap (isLeapYear_of_day c _ h365)
        omega
    · interval_cases m <;> first | exact absurd rfl hfeb | (simp [daysInMonth]; omega)

theorem isDigit_eq (c : Char) : isDigit c = c.isDigit := by
  simp [isDigit, Char.isDigit, Char.le_def]

theorem length_padded {width n : Nat} (hwidth : 0 < width) (h : n < 10 ^ width) :
    (padded width n).toList.length = width := by
  have hlength := (Nat.length_toDigits_le_iff (by decide) hwidth).2 h
  simp only [padded, String.toList_ofList, List.length_append, List.length_replicate]
  omega

theorem all_isDigit_padded (width n : Nat) : (padded width n).toList.all isDigit = true := by
  simp only [padded, String.toList_ofList, List.all_append, Bool.and_eq_true, List.all_eq_true]
  constructor
  · intro c hc
    rw [List.eq_of_mem_replicate hc]
    rfl
  · intro c hc
    rw [isDigit_eq]
    exact Nat.isDigit_of_mem_toDigits (by decide) (by decide) hc

theorem foldl_replicate_zero (n : Nat) (cs : List Char) :
    digitsValue (List.replicate n '0' ++ cs) = digitsValue cs := by
  induction n with
  | zero => rfl
  | succ n ih => exact ih

theorem digitsValue_padded (width n : Nat) : digitsValue (padded width n).toList = n := by
  rw [padded, String.toList_ofList, foldl_replicate_zero]
  exact Nat.ofDigitChars_ten_toDigits

theorem exactDigits?_padded {width n : Nat} (hwidth : 0 < width) (h : n < 10 ^ width)
    (rest : List Char) : exactDigits? width ((padded width n).toList ++ rest) = some (n, rest) := by
  have hlength := length_padded hwidth h
  simp [exactDigits?, List.take_left' hlength, List.drop_left' hlength, hlength,
    all_isDigit_padded, digitsValue_padded]

theorem fraction?_padded {width n : Nat} (hwidth : 0 < width) (hwidth' : width ≤ 9)
    (h : n < 10 ^ width) (rest : List Char) :
    fraction? (("." ++ padded width n).toList ++ '+' :: rest) =
      some (n * 10 ^ (9 - width), '+' :: rest) := by
  have hlength := length_padded hwidth h
  have hdigits : ((padded width n).toList ++ '+' :: rest).takeWhile isDigit =
      (padded width n).toList := by
    rw [List.takeWhile_append_of_pos (List.all_eq_true.1 (all_isDigit_padded width n))]
    exact List.append_nil _
  have hkept : (padded width n).toList.take 9 = (padded width n).toList :=
    List.take_of_length_le (hlength.trans_le hwidth')
  have hne : (padded width n).toList ≠ [] := by
    intro hnil
    simp [hnil, hwidth.ne] at hlength
  have hdot : ("." ++ padded width n).toList ++ '+' :: rest =
      '.' :: ((padded width n).toList ++ '+' :: rest) := by
    rw [String.toList_append]
    rfl
  rw [hdot, fraction?, hdigits]
  simp only [hkept, List.isEmpty_iff, hne, if_false, digitsValue_padded, hlength,
    List.drop_left' hlength]
  rfl

theorem fraction?_fractionText {nanos : Nat} (h : nanos < 1000000000) (rest : List Char) :
    fraction? ((fractionText nanos).toList ++ '+' :: rest) = some (nanos, '+' :: rest) := by
  unfold fractionText
  split_ifs with hzero hmilli hmicro
  · rw [hzero]
    rfl
  · rw [fraction?_padded (by decide) (by decide) (by omega)]
    congr 2
    omega
  · rw [fraction?_padded (by decide) (by decide) (by omega)]
    congr 2
    omega
  · rw [fraction?_padded (by decide) (by decide) h, Nat.sub_self, Nat.pow_zero, Nat.mul_one]

/-- What a clock tells in a year of four digits. A leap second is not told apart. -/
structure IsCivil (t : Instant) : Prop where
  lower : daysFromDate 0 1 1 * 86400 ≤ t.seconds
  upper : t.seconds < daysFromDate 10000 1 1 * 86400
  nanos : t.nanos < 1000000000

theorem year_dateFromDays {days year : Int} {month day : Nat}
    (h : dateFromDays days = (year, month, day)) (hlower : daysFromDate 0 1 1 ≤ days)
    (hupper : days < daysFromDate 10000 1 1) : 0 ≤ year ∧ year ≤ 9999 := by
  have hlower' : -719528 ≤ days := hlower
  have hupper' : days < 2932897 := hupper
  obtain ⟨c⟩ := nonempty_cycleDay days
  have hcentury := c.hcentury
  have hfour := c.hfour
  have hone := c.hone
  have hday := c.hday
  have hn := c.eq
  obtain ⟨m, day', hm, hmonth, hdayOfYear, -, -⟩ := exists_monthDay c.hday.1 c.day_le
  rw [dateFromDays_eq c hm hmonth hdayOfYear] at h
  cases h
  -- The years of four digits start in the last winter of a cycle and end in one.
  have hfirst : (days + 719468) / 146097 < 0 → (days + 719468) / 146097 = -1 ∧ c.century = 3 ∧
      c.four = 24 ∧ c.one = 3 ∧ 306 ≤ c.day := by omega
  unfold CycleDay.year
  split_ifs <;> omega

theorem behind?_cons (mark : Char) (rest : List Char) : behind? mark (mark :: rest) = some rest :=
  if_pos rfl

theorem bind_of_eq_some {α β : Type} {x : Option α} {a : α} (h : x = some a) (f : α → Option β) :
    x >>= f = f a := by
  rw [h]
  rfl

/-- Numbers of fixed width are read one after the other, whatever they are. -/
theorem ofTimestamp?_padded {year month day hour minute second nanos : Nat} {s : String}
    {cs₁ cs₂ cs₃ cs₄ cs₅ : List Char}
    (hyear : year < 10 ^ 4) (hmonth : month < 10 ^ 2) (hday : day < 10 ^ 2) (hhour : hour < 10 ^ 2)
    (hminute : minute < 10 ^ 2) (hsecond : second < 10 ^ 2) (hnanos : nanos < 1000000000)
    (hs : s.toList = (padded 4 year).toList ++ '-' :: cs₁)
    (h₁ : cs₁ = (padded 2 month).toList ++ '-' :: cs₂)
    (h₂ : cs₂ = (padded 2 day).toList ++ 'T' :: cs₃)
    (h₃ : cs₃ = (padded 2 hour).toList ++ ':' :: cs₄)
    (h₄ : cs₄ = (padded 2 minute).toList ++ ':' :: cs₅)
    (h₅ : cs₅ = (padded 2 second).toList ++
      ((fractionText nanos).toList ++ ['+', '0', '0', ':', '0', '0'])) :
    ofTimestamp? s = ofCivil? year month day hour minute second nanos 0 := by
  have hzone := fraction?_fractionText hnanos ['0', '0', ':', '0', '0']
  rw [ofTimestamp?, hs]
  refine (bind_of_eq_some (exactDigits?_padded (by decide) hyear _) _).trans ?_
  refine (bind_of_eq_some (behind?_cons '-' _) _).trans ?_
  refine (bind_of_eq_some (h₁ ▸ exactDigits?_padded (by decide) hmonth _) _).trans ?_
  refine (bind_of_eq_some (behind?_cons '-' _) _).trans ?_
  refine (bind_of_eq_some (h₂ ▸ exactDigits?_padded (by decide) hday _) _).trans ?_
  refine (bind_of_eq_some (show behindDate? ('T' :: cs₃) = some cs₃ from rfl) _).trans ?_
  refine (bind_of_eq_some (h₃ ▸ exactDigits?_padded (by decide) hhour _) _).trans ?_
  refine (bind_of_eq_some (behind?_cons ':' _) _).trans ?_
  refine (bind_of_eq_some (h₄ ▸ exactDigits?_padded (by decide) hminute _) _).trans ?_
  refine (bind_of_eq_some (behind?_cons ':' _) _).trans ?_
  refine (bind_of_eq_some (h₅ ▸ exactDigits?_padded (by decide) hsecond _) _).trans ?_
  refine (bind_of_eq_some hzone _).trans ?_
  exact bind_of_eq_some (show exactOffset? ['+', '0', '0', ':', '0', '0'] = some 0 from rfl) _

/-- A timestamp tells the instant that it was written for. -/
theorem ofTimestamp?_timestamp {t : Instant} (h : t.IsCivil) :
    ofTimestamp? t.timestamp = some t := by
  rcases hdate : dateFromDays (t.seconds / 86400) with ⟨year, month, day⟩
  obtain ⟨hdays, hmonth, hmonth', hday, hday'⟩ := daysFromDate_dateFromDays _ hdate
  have hlower : -719528 * 86400 ≤ t.seconds := h.lower
  have hupper : t.seconds < 2932897 * 86400 := h.upper
  obtain ⟨hyear, hyear'⟩ := year_dateFromDays hdate
    (show -719528 ≤ t.seconds / 86400 by omega) (show t.seconds / 86400 < 2932897 by omega)
  have hdayBound : daysInMonth year month ≤ 31 := by
    unfold daysInMonth
    split_ifs <;> decide
  have hyearText : yearText year = padded 4 year.toNat := if_pos ⟨hyear, hyear'⟩
  obtain ⟨ofDay, hofDay⟩ :=
    Int.eq_ofNat_of_zero_le (Int.emod_nonneg t.seconds (by decide : (86400 : Int) ≠ 0))
  have hofDay' : ofDay < 86400 := by omega
  have hcivil : (year.toNat : Int) = year := Int.toNat_of_nonneg hyear
  rw [timestamp, civilText, hdate, hofDay]
  simp only [hyearText, Nat.div_eq_of_lt h.nanos, Nat.mod_eq_of_lt h.nanos, Nat.add_zero,
    Int.toNat_natCast]
  rw [ofTimestamp?_padded (show year.toNat < 10 ^ 4 by omega) (show month < 10 ^ 2 by omega)
    (show day < 10 ^ 2 by omega) (show ofDay / 3600 < 10 ^ 2 by omega)
    (show ofDay / 60 % 60 < 10 ^ 2 by omega) (show ofDay % 60 < 10 ^ 2 by omega) h.nanos
    (by simp) rfl rfl rfl rfl rfl]
  have hsecond : ofDay % 60 ≠ 60 := (Nat.mod_lt _ (by decide)).ne
  have hseconds : daysFromDate year month day * 86400 + (((ofDay / 3600 : Nat) : Int) * 3600 +
      ((ofDay / 60 % 60 : Nat) : Int) * 60 + ((ofDay % 60 - 0 : Nat) : Int)) - 0 * 60 =
        t.seconds := by
    rw [hdays]
    omega
  have hbounds : earliest ≤ t.seconds ∧ t.seconds < bound :=
    ⟨(show earliest ≤ -719528 * 86400 by decide).trans hlower,
      hupper.trans_le (show 2932897 * 86400 ≤ bound by decide)⟩
  have hisYear : isYear year = true := by
    simp only [isYear, Bool.and_eq_true, decide_eq_true_eq]
    omega
  rw [ofCivil?, hcivil,
    if_pos ⟨hisYear, hmonth, hmonth', hday, hday', by omega, by omega, by omega⟩]
  simp only [if_neg hsecond, hseconds, if_pos hbounds]
  rfl

end Instant

end Appraisal
