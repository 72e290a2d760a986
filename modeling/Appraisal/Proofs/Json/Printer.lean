import Appraisal.Json.Printer
import Appraisal.Json.Token
import Appraisal.Proofs.Decimal.Layout

/-!
# Strings and amounts in JSON text

A string between quotes is read back by the reader, which leaves what stands behind the quotes. An
amount consists of the characters of numbers, so it ends where something else follows.
-/

namespace Appraisal.Json

open Text (Parsed)

/-- The three ways to write a character. -/
theorem escape_cases (c : Char) :
    (escape c = [c] ∧ c ≠ '"' ∧ c ≠ '\\' ∧ 0x20 ≤ c.toNat) ∨
      (∃ mark, escape c = ['\\', mark] ∧ mark ≠ 'u' ∧ escapedChar? mark = some c) ∨
      (c.toNat < 0x20 ∧
        escape c = ['\\', 'u', '0', '0', hexDigit (c.toNat / 16), hexDigit c.toNat]) := by
  fun_cases escape c with
  | case8 c hquote hslash _ _ _ _ _ hcontrol => exact .inr (.inr ⟨hcontrol, rfl⟩)
  | case9 c hquote hslash _ _ _ _ _ hplain => exact .inl ⟨rfl, hquote, hslash, by omega⟩
  | _ => exact .inr (.inl ⟨_, rfl, by decide, rfl⟩)

theorem hexUnit?_hexDigit {n : Nat} (hn : n < 0x20) :
    hexUnit? '0' '0' (hexDigit (n / 16)) (hexDigit n) = some n := by
  revert n
  decide

section StringChar

variable {c : Char} (rest : List Char)

theorem stringChar?_unicode {a b c d : Char} {n : Nat} (h : hexUnit? a b c d = some n)
    (hn : n < 0x20) :
    ∃ p, stringChar? ('\\' :: 'u' :: a :: b :: c :: d :: rest) = some p ∧
      p.value = Char.ofNat n ∧ p.rest = rest := by
  have hhigh : isHighSurrogate n = false := by simp [isHighSurrogate]; omega
  have hlow : isLowSurrogate n = false := by simp [isLowSurrogate]; omega
  generalize hcs : '\\' :: 'u' :: a :: b :: c :: d :: rest = cs
  unfold stringChar?
  split
  case h_1 | h_2 => simp_all
  case h_3 hshort =>
    injection hcs with _ hcs
    injection hcs with hmark hcs
    exact absurd hcs.symm (hshort a b c d rest hmark.symm)
  case h_4 hshort =>
    injection hcs with hslash hcs
    exact absurd hcs.symm (hshort _ _ hslash.symm)
  case h_5 => cases hcs

theorem stringChar?_mark {mark : Char} (hmark : mark ≠ 'u') (h : escapedChar? mark = some c) :
    ∃ p, stringChar? ('\\' :: mark :: rest) = some p ∧ p.value = c ∧ p.rest = rest := by
  generalize hcs : '\\' :: mark :: rest = cs
  unfold stringChar?
  split
  case h_4 hshort =>
    injection hcs with hslash hcs
    exact absurd hcs.symm (hshort _ _ hslash.symm)
  all_goals simp_all

theorem stringChar?_plain (hslash : c ≠ '\\') (hcontrol : 0x20 ≤ c.toNat) :
    ∃ p, stringChar? (c :: rest) = some p ∧ p.value = c ∧ p.rest = rest := by
  generalize hcs : c :: rest = cs
  unfold stringChar?
  split
  all_goals simp_all

/-- A character is read as it was written. -/
theorem stringChar?_escape (c : Char) :
    ∃ p, stringChar? (escape c ++ rest) = some p ∧ p.value = c ∧ p.rest = rest := by
  obtain ⟨h, -, hslash, hcontrol⟩ | ⟨mark, h, hmark, hread⟩ | ⟨hcontrol, h⟩ := escape_cases c
  · rw [h]
    exact stringChar?_plain rest hslash hcontrol
  · rw [h]
    exact stringChar?_mark rest hmark hread
  · have hread := stringChar?_unicode rest (hexUnit?_hexDigit hcontrol) hcontrol
    rw [Char.ofNat_toNat] at hread
    rw [h]
    exact hread

end StringChar

theorem head?_escape (c : Char) (rest : List Char) : (escape c ++ rest).head? ≠ some '"' := by
  obtain ⟨h, hquote, -⟩ | ⟨mark, h, -⟩ | ⟨-, h⟩ := escape_cases c
  · simpa [h] using hquote
  · simp [h]
  · simp [h]

theorem stringBody?_cons {cs behind : List Char} {c : Char} {p : Parsed Char cs}
    {q : Parsed (List Char) behind} (hquote : cs.head? ≠ some '"')
    (hp : stringChar? cs = some p) (hc : p.value = c) (hbehind : p.rest = behind)
    (hq : stringBody? behind = some q) :
    ∃ r, stringBody? cs = some r ∧ r.value = c :: q.value ∧ r.rest = q.rest := by
  subst hc hbehind
  unfold stringBody?
  split
  · exact absurd rfl hquote
  · simp [hp, hq]

/-- The reader takes a string back out of its quotes. -/
theorem stringBody?_escape (cs rest : List Char) :
    ∃ p, stringBody? (cs.flatMap escape ++ '"' :: rest) = some p ∧
      p.value = cs ∧ p.rest = rest := by
  induction cs with
  | nil =>
    refine ⟨.spanning [] '"' [] rest, ?_, rfl, rfl⟩
    change stringBody? ('"' :: rest) = _
    rw [stringBody?]
  | cons c cs ih =>
    rw [List.flatMap_cons, List.append_assoc]
    obtain ⟨p, hp, hc, hbehind⟩ := stringChar?_escape (cs.flatMap escape ++ '"' :: rest) c
    obtain ⟨q, hq, hvalue, hrest⟩ := ih
    obtain ⟨r, hr, hvalues, hbehind⟩ := stringBody?_cons (head?_escape _ _) hp hc hbehind hq
    exact ⟨r, hr, by rw [hvalues, hvalue], by rw [hbehind, hrest]⟩

/-- A quoted string ends at its closing quote, whatever follows. -/
theorem quoted_append_inj {s s' : String} {t t' : List Char}
    (h : (quoted s).toList ++ t = (quoted s').toList ++ t') : s = s' ∧ t = t' := by
  have hbody : s.toList.flatMap escape ++ '"' :: t = s'.toList.flatMap escape ++ '"' :: t' := by
    simpa [quoted] using h
  have hread := stringBody?_escape s.toList t
  rw [hbody] at hread
  obtain ⟨p, hp, hvalue, hrest⟩ := hread
  obtain ⟨p', hp', hvalue', hrest'⟩ := stringBody?_escape s'.toList t'
  obtain rfl : p = p' := Option.some.inj (hp.symm.trans hp')
  exact ⟨String.toList_inj.1 (hvalue.symm.trans hvalue'), hrest.symm.trans hrest'⟩

theorem isNumberChar_of_mem_render {style : Decimal.Style} {x : Float} {c : Char}
    (hc : c ∈ (style.render x).toList) : isNumberChar c = true := by
  have hmagnitude (h : c ∈ Decimal.magnitudeText style x) : isNumberChar c = true := by
    rcases Decimal.mem_magnitudeText h with h | h
    · simp [isNumberChar, h]
    · simp only [List.mem_cons, List.not_mem_nil, or_false] at h
      rcases h with rfl | rfl | rfl | rfl <;> rfl
  rw [Decimal.Style.render, Decimal.signed, String.toList_ofList] at hc
  split at hc
  · rcases List.mem_cons.1 hc with rfl | hc
    · rfl
    · exact hmagnitude hc
  · exact hmagnitude hc

theorem amountText_inj {x y : Float} (hx : x.isFinite = true) (h : amountText x = amountText y) :
    x = y := by
  rw [amountText, if_pos hx, amountText] at h
  split at h
  · exact Decimal.render_injective _ h
  · have hnull : 'n' ∈ (Decimal.Style.document.render x).toList := by
      rw [h]
      decide
    cases isNumberChar_of_mem_render hnull

theorem brace_notMem_amountText (x : Float) : '\x7d' ∉ (amountText x).toList := by
  unfold amountText
  split
  · intro hbrace
    cases isNumberChar_of_mem_render hbrace
  · decide

theorem append_cons_inj {α : Type} {c : α} {xs ys s t : List α} (hx : c ∉ xs) (hy : c ∉ ys)
    (h : xs ++ c :: s = ys ++ c :: t) : xs = ys ∧ s = t := by
  induction xs generalizing ys with
  | nil =>
    cases ys with
    | nil => exact ⟨rfl, List.tail_eq_of_cons_eq h⟩
    | cons y ys => exact absurd (List.head_eq_of_cons_eq h ▸ List.mem_cons_self) hy
  | cons x xs ih =>
    cases ys with
    | nil => exact absurd (List.head_eq_of_cons_eq h ▸ List.mem_cons_self) hx
    | cons y ys =>
      obtain ⟨hxs, hst⟩ := ih (fun hc => hx (List.mem_cons_of_mem x hc))
        (fun hc => hy (List.mem_cons_of_mem y hc)) (List.tail_eq_of_cons_eq h)
      exact ⟨by rw [List.head_eq_of_cons_eq h, hxs], hst⟩

/-- An amount ends at the closing brace. -/
theorem amountText_append_inj {x y : Float} (hx : x.isFinite = true) {t t' : List Char}
    (h : (amountText x).toList ++ '\x7d' :: t = (amountText y).toList ++ '\x7d' :: t') :
    x = y ∧ t = t' := by
  obtain ⟨htext, ht⟩ :=
    append_cons_inj (brace_notMem_amountText x) (brace_notMem_amountText y) h
  exact ⟨amountText_inj hx (String.toList_inj.1 htext), ht⟩

end Appraisal.Json
