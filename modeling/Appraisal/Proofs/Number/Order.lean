import Appraisal.Number.Rounding
import Mathlib

/-!
# The order of all doubles

Positions are different for different bits, so the order leaves no two doubles that could be
exchanged: a list has one sorted form, and all its permutations have the same.
-/

namespace Appraisal

namespace Number

theorem patternKey_injective : Function.Injective patternKey := by
  intro a b h
  have ha := a.toNat_lt
  have hb := b.toNat_lt
  apply UInt64.toNat.inj
  simp only [patternKey, show Nat.pow 2 63 = 2 ^ 63 from rfl] at h
  split_ifs at h <;> omega

theorem patternLe_trans (a b c : UInt64) (hab : patternLe a b) (hbc : patternLe b c) :
    patternLe a c := by
  simp only [patternLe, decide_eq_true_eq] at *
  exact hab.trans hbc

theorem patternLe_total (a b : UInt64) : patternLe a b || patternLe b a := by
  simpa only [patternLe, Bool.or_eq_true, decide_eq_true_eq] using
    le_total (patternKey a) (patternKey b)

theorem patternLe_antisymm {a b : UInt64} (hab : patternLe a b) (hba : patternLe b a) :
    a = b := by
  simp only [patternLe, decide_eq_true_eq] at *
  exact patternKey_injective (le_antisymm hab hba)

theorem totalLe_refl (a : Float) : totalLe a a := by
  simp [totalLe, patternLe]

theorem totalLe_trans (a b c : Float) (hab : totalLe a b) (hbc : totalLe b c) : totalLe a c :=
  patternLe_trans _ _ _ hab hbc

theorem totalLe_total (a b : Float) : totalLe a b || totalLe b a :=
  patternLe_total _ _

theorem totalLe_antisymm {a b : Float} (hab : totalLe a b) (hba : totalLe b a) : a = b :=
  Float.toBits_inj.1 (patternLe_antisymm hab hba)

end Number

/-- Where no two members can be exchanged, a list has one sorted form. -/
theorem mergeSort_eq_of_perm {α : Type} {le : α → α → Bool} {xs ys : List α}
    (htrans : ∀ a b c, le a b → le b c → le a c) (htotal : ∀ a b, le a b || le b a)
    (hantisymm : ∀ {a b}, le a b → le b a → a = b) (h : xs.Perm ys) :
    xs.mergeSort le = ys.mergeSort le := by
  have hperm : (xs.mergeSort le).Perm (ys.mergeSort le) :=
    (List.mergeSort_perm xs le).trans (h.trans (List.mergeSort_perm ys le).symm)
  exact hperm.eq_of_pairwise (fun a b _ _ hab hba => hantisymm hab hba)
    (List.pairwise_mergeSort htrans htotal xs) (List.pairwise_mergeSort htrans htotal ys)

end Appraisal
