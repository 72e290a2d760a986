import Appraisal.Report.Ranking
import Appraisal.Proofs.Number.Bounds

/-!
# The ranking is canonical

Use cases with finite figures and different ids stand in exactly one order: by priority, then by
annual value, the larger ones first, then by id. The two zeros count as equal in it. The ranking is
the front part of that order, so it does not depend on how the use cases were given.
-/

namespace Appraisal

/-- Both figures that a rank depends on are finite. -/
structure UseCaseResult.Rankable (r : UseCaseResult) : Prop where
  priority : r.priority.isFinite = true
  annualValue : r.annualValue.isFinite = true

/-- An entry shows a use case with its own figures. -/
structure RankedUseCase.Shows (entry : RankedUseCase) (r : UseCaseResult) : Prop where
  id : entry.id = r.useCase.id
  name : entry.name = r.useCase.name
  priorityScore : entry.priorityScore = r.scoring.priorityScore.value
  priorityTier : entry.priorityTier = .ofScore r.scoring.priorityScore.value
  annualValue : entry.annualValue = r.benefits.totalAnnualValue.value
  monthlyTokens : entry.monthlyTokens = r.tokenCosts.monthlyTokens

namespace Ranking

/-- The first use case has the larger priority, or the same one and the larger annual value, or the
same of both and the smaller id. -/
def Precedes (a b : UseCaseResult) : Prop :=
  b.priority < a.priority ∨ (a.priority == b.priority) = true ∧
    (b.annualValue < a.annualValue ∨ (a.annualValue == b.annualValue) = true ∧ a.id < b.id)

/-- The place of a use case in the order. -/
def place (r : UseCaseResult) : ℚᵒᵈ ×ₗ ℚᵒᵈ ×ₗ String :=
  toLex (.toDual (toRat r.priority), toLex (.toDual (toRat r.annualValue), r.id))

variable {a b : UseCaseResult} {useCases others : List UseCaseResult}

theorem id_eq_of_place_eq (h : place a = place b) : a.id = b.id := by
  simp only [place, EmbeddingLike.apply_eq_iff_eq, Prod.mk.injEq] at h
  exact h.2.2

theorem precedes_iff (ha : a.Rankable) (hb : b.Rankable) : Precedes a b ↔ place a < place b := by
  simp only [Precedes, place, Prod.Lex.toLex_lt_toLex, OrderDual.toDual_lt_toDual,
    EmbeddingLike.apply_eq_iff_eq, lt_iff_toRat_lt hb.priority ha.priority,
    lt_iff_toRat_lt hb.annualValue ha.annualValue, beq_iff_toRat_eq ha.priority hb.priority,
    beq_iff_toRat_eq ha.annualValue hb.annualValue]

theorem atLeast_eq {x y : Float} (hx : x.isFinite = true) (hy : y.isFinite = true) :
    atLeast x y = decide (toRat y ≤ toRat x) := by
  rw [atLeast, Number.isNaN_of_isFinite hx, Bool.false_or, decide_eq_decide,
    le_iff_toRat_le hy hx]

theorem before_eq (ha : a.Rankable) (hb : b.Rankable) :
    before a b = decide (place a ≤ place b) := by
  rw [Bool.eq_iff_iff, decide_eq_true_iff, place, place, Prod.Lex.toLex_le_toLex,
    Prod.Lex.toLex_le_toLex]
  have hlex {q r : ℚ} {p : Prop} : q < r ∨ q ≤ r ∧ p ↔ q < r ∨ r = q ∧ p := by
    rw [le_iff_lt_or_eq, eq_comm]
    tauto
  simp only [before, above, atLeast_eq ha.priority hb.priority, atLeast_eq hb.priority ha.priority,
    atLeast_eq ha.annualValue hb.annualValue, atLeast_eq hb.annualValue ha.annualValue,
    Bool.or_eq_true, Bool.and_eq_true, Bool.not_eq_true', decide_eq_true_eq,
    decide_eq_false_iff_not, not_le, not_lt, hlex, OrderDual.toDual_lt_toDual,
    EmbeddingLike.apply_eq_iff_eq]

/-- Sorted use cases stand in the order, each before all that follow it. -/
theorem pairwise_mergeSort (hids : (useCases.map (·.id)).Nodup)
    (hfinite : ∀ r ∈ useCases, r.Rankable) : (useCases.mergeSort before).Pairwise Precedes := by
  have hperm := List.mergeSort_perm useCases before
  have hplaces : ((useCases.mergeSort before).map place).Pairwise (· ≤ ·) := by
    have hsort : (useCases.mergeSort before).map place =
        (useCases.map place).mergeSort fun p q => decide (p ≤ q) :=
      List.map_mergeSort fun a ha b hb => before_eq (hfinite a ha) (hfinite b hb)
    rw [hsort]
    exact List.pairwise_mergeSort' (· ≤ ·) _
  have hapart : ((useCases.mergeSort before).map (·.id)).Nodup :=
    (hperm.map _).nodup_iff.2 hids
  rw [List.pairwise_map] at hplaces
  refine (hplaces.and (List.pairwise_map.1 hapart)).imp_of_mem fun {a b} ha hb ⟨hle, hne⟩ => ?_
  rw [precedes_iff (hfinite a (hperm.subset ha)) (hfinite b (hperm.subset hb))]
  exact hle.lt_of_ne fun heq => hne (id_eq_of_place_eq heq)

/-- There is no other order to sort them in. -/
theorem mergeSort_before_eq_of_perm (hids : (useCases.map (·.id)).Nodup)
    (hfinite : ∀ r ∈ useCases, r.Rankable) (h : others.Perm useCases) :
    others.mergeSort before = useCases.mergeSort before := by
  have hothers := List.mergeSort_perm others before
  have huseCases := List.mergeSort_perm useCases before
  refine (hothers.trans (h.trans huseCases.symm)).eq_of_pairwise (fun a b ha hb hab hba => ?_)
    (pairwise_mergeSort ((h.map _).nodup_iff.2 hids) fun r hr => hfinite r (h.subset hr))
    (pairwise_mergeSort hids hfinite)
  have ha := hfinite a (h.subset (hothers.subset ha))
  have hb := hfinite b (huseCases.subset hb)
  rw [precedes_iff ha hb] at hab
  rw [precedes_iff hb ha] at hba
  exact absurd hba hab.asymm

theorem shows_entry (rank : Nat) (r : UseCaseResult) : (entry rank r).Shows r :=
  ⟨rfl, rfl, rfl, rfl, rfl, rfl⟩

theorem forall₂_shows (sorted : List UseCaseResult) :
    List.Forall₂ RankedUseCase.Shows (sorted.mapIdx fun i r => entry (i + 1) r) sorted := by
  rw [List.forall₂_iff_get]
  refine ⟨List.length_mapIdx, fun i hi hi' => ?_⟩
  simp only [List.get_eq_getElem, List.getElem_mapIdx]
  exact shows_entry _ _

theorem ranks_eq (sorted : List UseCaseResult) :
    (sorted.mapIdx fun i r => entry (i + 1) r).map (·.rank) = List.range' 1 sorted.length := by
  refine List.ext_getElem (by simp) fun i hi hi' => ?_
  simp [entry, Nat.add_comm]

/-- Of use cases with different ids and finite figures, a ranking lists as many as it should, the
first one as number 1, and shows each with its own figures. Those that it lists stand in the order,
and every one left out comes after them. Another arrangement of the same use cases gives the same
ranking. -/
theorem rank_canonical (hids : (useCases.map (·.id)).Nodup)
    (hfinite : ∀ r ∈ useCases, r.Rankable) (top : Nat) :
    ∃ listed left : List UseCaseResult, (listed ++ left).Perm useCases ∧
      (rank useCases top).map (·.rank) = List.range' 1 (min top useCases.length) ∧
      List.Forall₂ RankedUseCase.Shows (rank useCases top) listed ∧
      listed.Pairwise Precedes ∧ (∀ a ∈ listed, ∀ b ∈ left, Precedes a b) ∧
      ∀ others : List UseCaseResult, others.Perm useCases →
        rank others top = rank useCases top := by
  have hperm := List.mergeSort_perm useCases before
  have hsorted := pairwise_mergeSort hids hfinite
  rw [← List.take_append_drop top (useCases.mergeSort before), List.pairwise_append] at hsorted
  obtain ⟨hlisted, -, hleft⟩ := hsorted
  refine ⟨_, _, by rwa [List.take_append_drop top], ?_, forall₂_shows _, hlisted, hleft, ?_⟩
  · rw [rank, ranks_eq, List.length_take, hperm.length_eq]
  · intro others h
    rw [rank, rank, mergeSort_before_eq_of_perm hids hfinite h]

/-- A use case with given figures. -/
def scoredUseCase (id : String) (priority annualValue : Float) : UseCaseResult :=
  let value (x : Float) : CalculatedValue := ⟨x, .score, "", "", .ofPairs [], ⟨0, 0⟩, none⟩
  { useCase :=
      { id, name := id, function := "", subFunction := "", description := ""
        targetFriction := "", checkpoint := "", primitives := []
        hoursSaved := none, hourlyRate := none, adoptionRate := none
        benefits := ⟨0, 0, 0, 0⟩, effort := ⟨3, 2, 1, 6⟩, tokens := ⟨0, 0, 0⟩
        impactRanges := .none }
    benefits := ⟨value 0, value 0, value 0, value 0, value annualValue⟩
    hoursSavedValue := none
    tokenCosts := ⟨0, value 0, value 0, 0⟩
    scoring := ⟨value 0, value 0, 0, value priority⟩ }

/-- Two use cases that differ in the sign of their value only, and one with the higher priority. -/
theorem rank_canonical_of_zeros :
    let useCases := [scoredUseCase "b" 65 0, scoredUseCase "a" 65 (-0), scoredUseCase "c" 70 0]
    (useCases.map (·.id)).Nodup ∧ (∀ r ∈ useCases, r.Rankable) ∧
      (rank useCases 2).map (·.rank) = [1, 2] ∧
      rank useCases.reverse 2 = rank useCases 2 := by
  intro useCases
  have hids : (useCases.map (·.id)).Nodup := by decide
  have hfinite : ∀ r ∈ useCases, r.Rankable := by
    have hall : ∀ r ∈ useCases, r.priority.isFinite = true ∧ r.annualValue.isFinite = true := by
      decide +kernel
    exact fun r hr => ⟨(hall r hr).1, (hall r hr).2⟩
  obtain ⟨-, -, -, hranks, -, -, -, hperm⟩ := rank_canonical hids hfinite 2
  exact ⟨hids, hfinite, hranks, hperm _ (List.reverse_perm _)⟩

end Ranking

end Appraisal
