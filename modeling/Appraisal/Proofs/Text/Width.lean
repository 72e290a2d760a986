import Appraisal.Text.Width
import Mathlib

/-!
# Columns of exact width

A text that fits is filled up with spaces, and any other one is cut off. What is left of it need not
fill its columns: a wide character may stand across the place of the cut. So a cut text is never too
wide, and with room for the mark it is at most one column too narrow.
-/

namespace Appraisal.Text

variable {c : Char} {cs : List Char} {s : String} {budget limit : Nat}

/-- The columns of the characters, added up. -/
def sumColumns (cs : List Char) : Nat :=
  (cs.map cutColumns).sum

@[simp] theorem sumColumns_nil : sumColumns [] = 0 := rfl

@[simp] theorem sumColumns_cons (c : Char) (cs : List Char) :
    sumColumns (c :: cs) = cutColumns c + sumColumns cs :=
  List.sum_cons

@[simp] theorem sumColumns_append (cs ds : List Char) :
    sumColumns (cs ++ ds) = sumColumns cs + sumColumns ds := by
  simp [sumColumns]

/-- The width of the text is that of its characters, each of which has at most two columns. -/
structure Additive (s : String) : Prop where
  width_eq : width s = sumColumns s.toList
  le_two : ∀ c ∈ s.toList, cutColumns c ≤ 2

theorem columns_eq (c : Char) : columns c = if isControl c then 1 else cutColumns c := by
  unfold columns cutColumns columns?
  cases isControl c with
  | true => rfl
  | false =>
    simp only [Bool.false_eq_true, if_false]
    split_ifs <;> rfl

theorem cutColumns_of_isControl (h : isControl c = true) : cutColumns c = 0 := by
  rw [cutColumns, columns?, if_pos h]
  rfl

theorem sumColumns_le_charsWidth (cs : List Char) : sumColumns cs ≤ charsWidth cs := by
  fun_induction charsWidth cs with
  | case1 => exact Nat.le_refl 0
  | case2 cs ih =>
    rw [sumColumns_cons, sumColumns_cons, cutColumns_of_isControl rfl, cutColumns_of_isControl rfl]
    omega
  | case3 c cs _ ih =>
    rw [sumColumns_cons, columns_eq]
    split_ifs with hc
    · rw [cutColumns_of_isControl hc]
      omega
    · omega

/-- Control characters, and nothing else, make a text wider than its characters are. -/
theorem charsWidth_eq_iff (cs : List Char) :
    charsWidth cs = sumColumns cs ↔ ∀ c ∈ cs, isControl c = false := by
  fun_induction charsWidth cs with
  | case1 => simp
  | case2 cs _ =>
    have hle := sumColumns_le_charsWidth cs
    rw [sumColumns_cons, sumColumns_cons, cutColumns_of_isControl rfl, cutColumns_of_isControl rfl]
    refine iff_of_false (by omega) fun h => ?_
    exact absurd (h '\r' List.mem_cons_self) (by decide)
  | case3 c cs _ ih =>
    have hle := sumColumns_le_charsWidth cs
    rw [sumColumns_cons, columns_eq, List.forall_mem_cons, ← ih]
    cases hc : isControl c with
    | true =>
      rw [cutColumns_of_isControl hc, if_pos rfl]
      exact iff_of_false (by omega) fun h => nomatch h.1
    | false => simp

theorem fitting_prefix_self (budget : Nat) (cs : List Char) : fitting budget cs <+: cs := by
  fun_induction fitting budget cs with
  | case1 => exact List.prefix_refl []
  | case2 budget c cs _ ih => exact List.cons_prefix_cons.2 ⟨rfl, ih⟩
  | case3 => exact List.nil_prefix

theorem sumColumns_fitting_le (budget : Nat) (cs : List Char) :
    sumColumns (fitting budget cs) ≤ budget := by
  fun_induction fitting budget cs with
  | case1 => exact Nat.zero_le _
  | case2 budget c cs hc ih =>
    rw [sumColumns_cons]
    omega
  | case3 => exact Nat.zero_le _

/-- No beginning that fits is longer. -/
theorem prefix_fitting {beginning : List Char} (h : beginning <+: cs)
    (hle : sumColumns beginning ≤ budget) : beginning <+: fitting budget cs := by
  induction cs generalizing beginning budget with
  | nil => rwa [fitting]
  | cons c cs ih =>
    cases beginning with
    | nil => exact List.nil_prefix
    | cons d beginning =>
      obtain ⟨rfl, htail⟩ := List.cons_prefix_cons.1 h
      rw [sumColumns_cons] at hle
      rw [fitting, if_pos (by omega)]
      exact List.cons_prefix_cons.2 ⟨rfl, ih htail (by omega)⟩

theorem sumColumns_mono {ds : List Char} (h : cs <+: ds) : sumColumns cs ≤ sumColumns ds := by
  obtain ⟨rest, rfl⟩ := h
  rw [sumColumns_append]
  exact Nat.le_add_right ..

/-- The budget is used up exactly if the characters of some beginning do so. -/
theorem sumColumns_fitting_eq_iff :
    sumColumns (fitting budget cs) = budget ↔
      ∃ beginning, beginning <+: cs ∧ sumColumns beginning = budget := by
  constructor
  · exact fun h => ⟨_, fitting_prefix_self budget cs, h⟩
  · rintro ⟨beginning, hbegin, rfl⟩
    exact (sumColumns_fitting_le _ cs).antisymm (sumColumns_mono (prefix_fitting hbegin le_rfl))

/-- Where a text is cut off, at most one column is left for a wide character. -/
theorem le_sumColumns_fitting (h : ∀ c ∈ cs, cutColumns c ≤ 2) (hlt : budget < sumColumns cs) :
    budget ≤ sumColumns (fitting budget cs) + 1 := by
  induction cs generalizing budget with
  | nil => exact absurd hlt (Nat.not_lt_zero _)
  | cons c cs ih =>
    obtain ⟨hc, hcs⟩ := List.forall_mem_cons.1 h
    rw [sumColumns_cons] at hlt
    rw [fitting]
    split_ifs with hfits
    · have := @ih (budget - cutColumns c) hcs (by omega)
      rw [sumColumns_cons]
      omega
    · rw [sumColumns_nil]
      omega

theorem cutColumns_space : cutColumns ' ' = 1 := by decide +kernel

theorem cutColumns_point : cutColumns '.' = 1 := by decide +kernel

namespace Additive

variable (h : Additive s)

include h

/-- Characters of the text with other ones behind them. -/
theorem width_of_part {part more : List Char} (hpart : part ⊆ s.toList)
    (hmore : ∀ c ∈ more, isControl c = false) :
    width (String.ofList (part ++ more)) = sumColumns part + sumColumns more := by
  have hnone := (charsWidth_eq_iff _).1 h.width_eq
  rw [width, String.toList_ofList, (charsWidth_eq_iff _).2, sumColumns_append]
  exact List.forall_mem_append.2 ⟨fun c hc => hnone c (hpart hc), hmore⟩

theorem width_append_spaces (n : Nat) : width (s ++ spaces n) = width s + n := by
  have hspaces : sumColumns (List.replicate n ' ') = n := by
    rw [sumColumns, List.map_replicate, List.sum_replicate, cutColumns_space]
    exact Nat.mul_one n
  have hplain : ∀ c ∈ List.replicate n ' ', isControl c = false := fun c hc => by
    rw [List.eq_of_mem_replicate hc]
    rfl
  have hpart := h.width_of_part (List.Subset.refl s.toList) hplain
  rw [String.ofList_append, String.ofList_toList, hspaces, ← h.width_eq] at hpart
  exact hpart

theorem width_cut : width (String.ofList (fitting budget s.toList ++ ['.', '.'])) =
    sumColumns (fitting budget s.toList) + 2 := by
  have hmark : ∀ c ∈ ['.', '.'], isControl c = false := by simp [isControl]
  have hpart := h.width_of_part (fitting_prefix_self budget _).subset hmark
  rwa [sumColumns_cons, sumColumns_cons, cutColumns_point] at hpart

theorem width_char (hc : c ∈ s.toList) : width c.toString = cutColumns c := by
  have hpart := h.width_of_part (List.cons_subset.2 ⟨hc, List.nil_subset _⟩) (List.forall_mem_nil _)
  rwa [List.append_nil] at hpart

/-- The first character that fits, if there is one. -/
theorem width_truncate_of_lt (hlimit : limit < 3) :
    width (truncate s limit) =
      ((s.toList.find? (cutColumns · ≤ limit)).map cutColumns).getD 0 := by
  rw [truncate, if_pos hlimit]
  cases hfind : s.toList.find? (cutColumns · ≤ limit) with
  | none => rfl
  | some c => exact h.width_char (List.mem_of_find?_eq_some hfind)

theorem width_truncate_of_le (hlimit : 3 ≤ limit) (hlt : limit < width s) :
    width (truncate s limit) = sumColumns (fitting (limit - 2) s.toList) + 2 := by
  rw [truncate, if_neg hlimit.not_gt, if_neg hlt.not_ge]
  exact h.width_cut

end Additive

/-- The text takes exactly so many columns, or so does what is left of it when it is cut off. -/
inductive Fills (s : String) (limit : Nat) : Prop
  | fits (h : width s ≤ limit)
  /-- The mark stands right behind a beginning of the text. -/
  | marked (beginning : List Char) (hbegin : beginning <+: s.toList) (hlimit : 3 ≤ limit)
      (hsum : sumColumns beginning + 2 = limit)
  /-- Without room for the mark, every character before the first that fits is too wide. -/
  | alone (tooWide : List Char) (c : Char) (hbegin : tooWide ++ [c] <+: s.toList)
      (hlimit : limit < 3) (hwide : ∀ d ∈ tooWide, limit < cutColumns d) (hc : cutColumns c = limit)
  | empty (hlimit : limit = 0)

theorem width_padRight_of_le (h : Additive s) (hle : width s ≤ limit) :
    width (padRight s limit) = limit := by
  rw [padRight, if_neg hle.not_gt, h.width_append_spaces]
  omega

theorem find?_eq_some_iff_begins :
    cs.find? (cutColumns · ≤ limit) = some c ↔ cutColumns c ≤ limit ∧
      ∃ tooWide, tooWide ++ [c] <+: cs ∧ ∀ d ∈ tooWide, limit < cutColumns d := by
  rw [List.find?_eq_some_iff_append]
  simp only [decide_eq_true_eq, Bool.not_eq_true', decide_eq_false_iff_not, not_le]
  refine and_congr_right fun _ => exists_congr fun tooWide => ?_
  constructor
  · rintro ⟨rest, rfl, hwide⟩
    exact ⟨⟨rest, by simp⟩, hwide⟩
  · rintro ⟨⟨rest, rfl⟩, hwide⟩
    exact ⟨rest, by simp, hwide⟩

section

variable (h : Additive s) (hlt : limit < width s)

include h hlt

theorem width_padRight_of_lt_three (hlimit : limit < 3) :
    width (padRight s limit) ≤ limit ∧ (width (padRight s limit) = limit ↔ Fills s limit) := by
  rw [padRight, if_pos hlt, h.width_truncate_of_lt hlimit]
  cases hfind : s.toList.find? (cutColumns · ≤ limit) with
  | none =>
    refine ⟨Nat.zero_le _, fun heq => .empty heq.symm, fun hfills => ?_⟩
    cases hfills with
    | fits hle => exact absurd hlt hle.not_gt
    | marked _ _ hthree => exact absurd hlimit hthree.not_gt
    | alone tooWide c hbegin _ hwide hc =>
      rw [find?_eq_some_iff_begins.2 ⟨hc.le, tooWide, hbegin, hwide⟩] at hfind
      cases hfind
    | empty hzero => exact hzero.symm
  | some c =>
    obtain ⟨hle, tooWide, hbegin, hwide⟩ := find?_eq_some_iff_begins.1 hfind
    refine ⟨hle, fun heq => .alone tooWide c hbegin hlimit hwide heq, fun hfills => ?_⟩
    cases hfills with
    | fits hle => exact absurd hlt hle.not_gt
    | marked _ _ hthree => exact absurd hlimit hthree.not_gt
    | alone tooWide d hbegin _ hwide hd =>
      rw [find?_eq_some_iff_begins.2 ⟨hd.le, tooWide, hbegin, hwide⟩] at hfind
      cases hfind
      exact hd
    | empty hzero => exact (Nat.le_zero.1 (hzero ▸ hle)).trans hzero.symm

theorem width_padRight_of_three_le (hlimit : 3 ≤ limit) :
    width (padRight s limit) ≤ limit ∧ limit ≤ width (padRight s limit) + 1 ∧
      (width (padRight s limit) = limit ↔ Fills s limit) := by
  rw [padRight, if_pos hlt, h.width_truncate_of_le hlimit hlt]
  have hle := sumColumns_fitting_le (limit - 2) s.toList
  have hover : limit - 2 < sumColumns s.toList := by
    rw [← h.width_eq]
    omega
  have hnear := le_sumColumns_fitting h.le_two hover
  refine ⟨by omega, by omega, fun heq => ?_, fun hfills => ?_⟩
  · exact .marked _ (fitting_prefix_self (limit - 2) _) hlimit heq
  · cases hfills with
    | fits hle => exact absurd hlt hle.not_gt
    | marked beginning hbegin _ hsum =>
      have hfull : sumColumns (fitting (limit - 2) s.toList) = limit - 2 :=
        sumColumns_fitting_eq_iff.2 ⟨_, hbegin, by omega⟩
      omega
    | alone _ _ _ hthree => exact absurd hthree hlimit.not_gt
    | empty hzero => omega

end

/-- A padded text takes exactly its columns if it fits or if what is left of it fills them, and in
no other case. It is never wider, and with room for the mark at most one column narrower. -/
theorem width_padRight_eq_iff {s : String} (h : Additive s) (limit : Nat) :
    (width (padRight s limit) = limit ↔ Fills s limit) ∧
    width (padRight s limit) ≤ limit ∧
    (3 ≤ limit → limit ≤ width (padRight s limit) + 1) ∧
    (width s ≤ limit → padRight s limit = s ++ spaces (limit - width s)) ∧
    (limit < width s → padRight s limit = truncate s limit) := by
  obtain hle | hlt := le_or_gt (width s) limit
  · have hwidth := width_padRight_of_le h hle
    exact ⟨iff_of_true hwidth (.fits hle), hwidth.le, fun _ => by omega,
      fun _ => if_neg hle.not_gt, fun hlt => absurd hlt hle.not_gt⟩
  · refine ⟨?_, ?_, fun hlimit => (width_padRight_of_three_le h hlt hlimit).2.1,
      fun hle => absurd hlt hle.not_gt, fun _ => if_pos hlt⟩ <;>
      obtain hlimit | hlimit := lt_or_ge limit 3
    · exact (width_padRight_of_lt_three h hlt hlimit).2
    · exact (width_padRight_of_three_le h hlt hlimit).2.2
    · exact (width_padRight_of_lt_three h hlt hlimit).1
    · exact (width_padRight_of_three_le h hlt hlimit).1

/-- A letter with its accent and a wide character are left in five columns and fill them. -/
theorem width_padRight_eq_iff_of_accent :
    let s := "a\u0301\u4e16\u754cx"
    Additive s ∧ padRight s 5 = "a\u0301\u4e16.." ∧ Fills s 5 ∧ width (padRight s 5) = 5 := by
  intro s
  have hadditive : Additive s :=
    ⟨by decide +kernel, List.all_iff_forall_prop.1 (by decide +kernel)⟩
  have hfills : Fills s 5 :=
    .marked ['a', '\u0301', '\u4e16'] ⟨['\u754c', 'x'], by decide +kernel⟩ (by decide)
      (by decide +kernel)
  exact ⟨hadditive, by decide +kernel, hfills, (width_padRight_eq_iff hadditive 5).1.2 hfills⟩

/-- Of two wide characters none is left in three columns, and the mark takes only two of these. -/
theorem not_width_padRight_eq_of_wide :
    Additive "\u4e16\u754c" ∧ padRight "\u4e16\u754c" 3 = ".." ∧
      ¬ ∀ s limit, Additive s → width (padRight s limit) = limit := by
  have hadditive : Additive "\u4e16\u754c" :=
    ⟨by decide +kernel, List.all_iff_forall_prop.1 (by decide +kernel)⟩
  have hcut : padRight "\u4e16\u754c" 3 = ".." := by decide +kernel
  refine ⟨hadditive, hcut, fun hexact => ?_⟩
  have hwidth := hexact _ 3 hadditive
  rw [hcut] at hwidth
  exact absurd hwidth (by decide +kernel)

end Appraisal.Text
