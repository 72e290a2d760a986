import Appraisal.Proofs.Number.Bounds
import Appraisal.Proofs.Number.Order
import Appraisal.Simulation.Summary

/-!
# Sorted samples and their percentiles

A list of samples has one sorted form, so its summary is the same for all orders, although sums of
doubles depend on the order of their terms. A percentile is the sample at a place of the sorted
list, and places of larger percentiles are not further to the front. How the percentiles relate to
the mean and the deviation is not told here.
-/

namespace Appraisal.Simulation

open Number (totalLe patternLe)

variable {samples : List Float} {size : Nat}

theorem length_sorted (samples : List Float) : (sorted samples).length = samples.length :=
  (List.mergeSort_perm _ _).length_eq

theorem mem_sorted {x : Float} : x ∈ sorted samples ↔ x ∈ samples :=
  (List.mergeSort_perm _ _).mem_iff

theorem pairwise_sorted (samples : List Float) : (sorted samples).Pairwise (totalLe · ·) :=
  List.pairwise_mergeSort Number.totalLe_trans Number.totalLe_total samples

theorem sorted_replicate (size : Nat) (x : Float) :
    sorted (List.replicate size x) = List.replicate size x :=
  List.perm_replicate.1 (List.mergeSort_perm _ _)

/-- The order of samples changes nothing: they have one sorted form, and all that a summary says is
computed from it. The last part is about the bits of numbers, which tell also undefined numbers
apart. -/
theorem summarize_of_perm {xs ys : List Float} (h : xs.Perm ys) (failed : Nat) (seed : UInt64) :
    summarize xs failed seed = summarize ys failed seed ∧
    sorted xs = sorted ys ∧ (sorted xs).Pairwise (totalLe · ·) ∧ (sorted xs).Perm xs ∧
    ∀ bs cs : List UInt64, bs.Perm cs → bs.mergeSort patternLe = cs.mergeSort patternLe := by
  have hsorted : sorted xs = sorted ys :=
    mergeSort_eq_of_perm Number.totalLe_trans Number.totalLe_total Number.totalLe_antisymm h
  refine ⟨?_, hsorted, pairwise_sorted xs, List.mergeSort_perm _ _, fun bs cs hperm => ?_⟩
  · rw [summarize, summarize, hsorted, h.isEmpty_eq]
  · exact mergeSort_eq_of_perm Number.patternLe_trans Number.patternLe_total
      Number.patternLe_antisymm hperm

/-- The two zeros are equal numbers, and a sum may start with either one. -/
theorem summarize_of_zeros :
    [0, 1, -0.0, 1e300].Perm [1e300, -0.0, (1 : Float), 0] ∧
    summarize [0, 1, -0.0, 1e300] 2 7 = summarize [1e300, -0.0, 1, 0] 2 7 ∧
    sorted [0, 1, -0.0, 1e300] = sorted [1e300, -0.0, 1, 0] := by
  have hperm : [0, 1, -0.0, 1e300].Perm [1e300, -0.0, (1 : Float), 0] :=
    (List.reverse_perm [0, 1, -0.0, 1e300]).symm
  obtain ⟨hsummary, hsorted, -⟩ := summarize_of_perm hperm 2 7
  exact ⟨hperm, hsummary, hsorted⟩

theorem percentileIndex_lt (hsize : 1 ≤ size) (p : Float) : percentileIndex size p < size := by
  have hle : percentileIndex size p ≤ size - 1 := min_le_right _ _
  omega

/-- A larger percentile is not further to the front. The product that is rounded down keeps the
order, although it is rounded itself. -/
theorem percentileIndex_mono (hsize : size < 2 ^ 53) {p q : Float} (hp : UpTo q p)
    (hq : UpTo 1 q) : percentileIndex size p ≤ percentileIndex size q := by
  obtain ⟨hfinite, hvalue⟩ := ofNat_exact hsize
  have hn : UpTo (.ofNat size) (.ofNat size) :=
    upTo_self hfinite (by rw [hvalue]; positivity)
  have hqn : UpTo (.ofNat size) (q * .ofNat size) := by
    refine (rounded_mul hq.isFinite hfinite).upTo (mul_nonneg hq.nonneg hn.nonneg) ?_
    exact mul_le_of_le_one_left hn.nonneg (hq.le.trans_eq toRat_one)
  have hpn : UpTo (q * .ofNat size) (p * .ofNat size) := hp.mul_mono hn hqn.isFinite
  have hlt : toRat (q * .ofNat size) < 2 ^ 64 := by
    have hbound : (size : ℚ) < 2 ^ 53 := by exact_mod_cast hsize
    have hle := hqn.le
    rw [hvalue] at hle
    linarith
  rw [percentileIndex, percentileIndex, Number.toNatural_floor hqn.isFinite hqn.nonneg hlt,
    Number.toNatural_floor hpn.isFinite hpn.nonneg (hpn.le.trans_lt hlt)]
  exact min_le_min_right _ (Nat.floor_le_floor hpn.le)

/-- The first of three samples stands for two percentiles, and so does the last. -/
example : [0.10, 0.25, 0.50, 0.75, 0.90].map (percentileIndex 3) = [0, 0, 1, 2, 2] := by
  decide +kernel

theorem percentile_eq_getElem (xs : List Float) (p : Float)
    (h : percentileIndex xs.length p < xs.length) :
    percentile xs.toArray p = xs[percentileIndex xs.length p] := by
  rw [percentile, List.size_toArray]
  simp [h]

theorem percentile_replicate (hsize : 1 ≤ size) (x p : Float) :
    percentile (List.replicate size x).toArray p = x := by
  have hindex : percentileIndex (List.replicate size x).length p <
      (List.replicate size x).length := by
    rw [List.length_replicate]
    exact percentileIndex_lt hsize p
  rw [percentile_eq_getElem _ p hindex, List.getElem_replicate]

/-- Sorted samples are in order at any two places. -/
theorem totalLe_getElem_sorted {i j : Nat} (hij : i ≤ j) (hj : j < (sorted samples).length) :
    totalLe (sorted samples)[i] (sorted samples)[j] := by
  obtain hlt | rfl := hij.lt_or_eq
  · exact List.pairwise_iff_getElem.1 (pairwise_sorted samples) i j _ hj hlt
  · exact Number.totalLe_refl _

/-- The percentiles of a summary, the smallest one first. -/
def Summary.percentiles (s : Summary) : List Float :=
  [s.p10, s.p25, s.median, s.p75, s.p90]

/-- Each percentile is the sorted sample at its place, which there always is. So percentiles are
samples, and they are in order between the least and the greatest sample. -/
theorem percentiles_of_summarize (hne : samples ≠ []) (hsize : samples.length < 2 ^ 53)
    (failed : Nat) (seed : UInt64) :
    ∃ s least greatest, summarize samples failed seed = .ok s ∧
      (∀ p, percentileIndex samples.length p < samples.length) ∧
      s.percentiles.map some = [0.10, 0.25, 0.50, 0.75, 0.90].map (fun p =>
        (sorted samples)[percentileIndex samples.length p]?) ∧
      (∀ x ∈ least :: greatest :: s.percentiles, x ∈ samples) ∧
      (∀ x ∈ samples, totalLe least x ∧ totalLe x greatest) ∧
      (least :: s.percentiles ++ [greatest]).IsChain (totalLe · ·) := by
  obtain ⟨xs, hxs⟩ : ∃ xs, xs = sorted samples := ⟨_, rfl⟩
  have hlength : xs.length = samples.length := hxs ▸ length_sorted samples
  have hpos : 0 < xs.length := hlength ▸ List.length_pos_iff.2 hne
  have hindex (p : Float) : percentileIndex xs.length p < xs.length := percentileIndex_lt hpos p
  have hmem (i : Nat) (hi : i < xs.length) : xs[i] ∈ samples := by
    rw [← mem_sorted, ← hxs]
    exact List.getElem_mem hi
  have hle {i j : Nat} (hij : i ≤ j) (hj : j < xs.length) : totalLe xs[i] xs[j] := by
    subst hxs
    exact totalLe_getElem_sorted hij hj
  have hmono {p q : Float} (hp : UpTo q p) (hq : UpTo 1 q) :
      totalLe (percentile xs.toArray p) (percentile xs.toArray q) := by
    rw [percentile_eq_getElem xs p (hindex p), percentile_eq_getElem xs q (hindex q)]
    exact hle (percentileIndex_mono (hlength ▸ hsize) hp hq) (hindex q)
  have hsummary : summarize samples failed seed = .ok (ofSorted xs failed seed) := by
    rw [summarize, if_neg (by simpa using hne), hxs]
  refine ⟨ofSorted xs failed seed, xs[0], xs[xs.length - 1], hsummary, ?_, ?_, ?_, ?_, ?_⟩
  · exact fun p => hlength ▸ hindex p
  · rw [← hxs, ← hlength]
    simp [Summary.percentiles, ofSorted, percentile_eq_getElem xs _ (hindex _), hindex]
  · simp only [Summary.percentiles, ofSorted, percentile_eq_getElem xs _ (hindex _),
      List.forall_mem_cons]
    exact ⟨hmem _ _, hmem _ _, hmem _ _, hmem _ _, hmem _ _, hmem _ _, hmem _ _,
      List.forall_mem_nil _⟩
  · intro x hx
    rw [← mem_sorted, ← hxs] at hx
    obtain ⟨i, hi, rfl⟩ := List.mem_iff_getElem.1 hx
    exact ⟨hle (Nat.zero_le i) hi, hle (by omega) (by omega)⟩
  · have hfirst : totalLe xs[0] (percentile xs.toArray 0.10) := by
      rw [percentile_eq_getElem xs _ (hindex _)]
      exact hle (Nat.zero_le _) (hindex _)
    have hlast : totalLe (percentile xs.toArray 0.90) xs[xs.length - 1] := by
      have := hindex 0.90
      rw [percentile_eq_getElem xs _ (hindex _)]
      exact hle (by omega) (by omega)
    simp only [Summary.percentiles, ofSorted, List.cons_append, List.nil_append,
      List.isChain_cons_cons, List.isChain_singleton, and_true]
    refine ⟨hfirst, hmono ?_ ?_, hmono ?_ ?_, hmono ?_ ?_, hmono ?_ ?_, hlast⟩ <;>
      exact .of_le rfl rfl (by decide +kernel) (by decide +kernel)

theorem percentiles_of_two_samples :
    let samples : List Float := [3, -1]
    samples ≠ [] ∧ samples.length < 2 ^ 53 ∧
    ∃ s least greatest, summarize samples 0 7 = .ok s ∧ s.percentiles = [-1, -1, 3, 3, 3] ∧
      (∀ x ∈ samples, totalLe least x ∧ totalLe x greatest) ∧
      (least :: s.percentiles ++ [greatest]).IsChain (totalLe · ·) := by
  intro samples
  have hne : samples ≠ [] := List.cons_ne_nil _ _
  have hsize : samples.length < 2 ^ 53 := by decide
  have hplaces : [0.10, 0.25, 0.50, 0.75, 0.90].map (fun p =>
      (sorted samples)[percentileIndex samples.length p]?) =
        ([-1, -1, 3, 3, 3] : List Float).map some := by
    have hle : totalLe 3 (-1) = false := by decide +kernel
    have hsorted : sorted samples = [-1, 3] := by simp [sorted, samples, List.mergeSort, hle]
    rw [hsorted]
    decide +kernel
  obtain ⟨s, least, greatest, hsummary, -, hpercentiles, -, hbounds, hchain⟩ :=
    percentiles_of_summarize hne hsize 0 7
  refine ⟨hne, hsize, s, least, greatest, hsummary, ?_, hbounds, hchain⟩
  exact List.map_injective_iff.2 (Option.some_injective Float) (hpercentiles.trans hplaces)

end Appraisal.Simulation
