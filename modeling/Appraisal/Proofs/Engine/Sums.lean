import Appraisal.Proofs.Context
import Appraisal.Proofs.Engine.Values

/-!
# Sums of named values

A sum stays within a dimension: one term of another dimension refuses all of it, even if a term
before it is flawed. A sum that is answered is flawed by its first flawed term, and without one it
is the total of the entries that it keeps of its terms. Whether that total is finite it does not
ask.
-/

namespace Appraisal

theorem Measure.convert_eq_error_iff {x : Float} {source target : Measure} {problem : EngineError} :
    convert x source target = .error problem ↔
      source.dimension ≠ target.dimension ∧ problem = .dimensionMismatch source target := by
  rw [convert, checkCompatible]
  split_ifs with h
  · exact iff_of_false (fun hok => by cases hok) fun hproblem => hproblem.1 h
  · rw [error_bind, Except.error.injEq, and_iff_right h, eq_comm]

namespace Engine

variable {now : Instant} {v : CalculatedValue} {terms : List (String × CalculatedValue)}
  {target : Measure}

/-- Terms are refused for the first one that has another dimension. -/
theorem convertTerms_eq_error_iff {problem : EngineError} :
    convertTerms target terms = .error problem ↔
      ∃ t ∈ terms.find? (·.2.unit.dimension ≠ target.dimension),
        problem = .dimensionMismatch t.2.unit target := by
  induction terms with
  | nil => simp [convertTerms]
  | cons t terms ih =>
    rw [convertTerms]
    by_cases h : t.2.unit.dimension = target.dimension
    · have hconvert := (Measure.convert_eq_ok_iff (x := t.2.value)).2 ⟨h, rfl⟩
      rw [hconvert, ok_bind, List.find?_cons_of_neg (by simpa using h), ← ih]
      cases convertTerms target terms with
      | error problem' => rw [error_bind]
      | ok converted => exact iff_of_false (fun h => by cases h) (fun h => by cases h)
    · have hconvert := (Measure.convert_eq_error_iff (x := t.2.value)).2 ⟨h, rfl⟩
      rw [hconvert, error_bind, List.find?_cons_of_pos (by simpa using h)]
      simp [eq_comm]

theorem sumOf_eq_error_iff {problem : EngineError} :
    sumOf now terms target = .error problem ↔
      ∃ t ∈ terms.find? (·.2.unit.dimension ≠ target.dimension),
        problem = .dimensionMismatch t.2.unit target := by
  rw [← convertTerms_eq_error_iff, sumOf]
  cases h : convertTerms target terms with
  | error problem' => rw [error_bind, Except.error.injEq, Except.error.injEq]
  | ok converted =>
    rw [ok_bind]
    split <;> exact iff_of_false (fun h => by cases h) (fun h => by cases h)

/-- What a sum says of itself, whatever its value. -/
theorem record_of_sumOf (h : sumOf now terms target = .ok v) :
    v.unit = target ∧ v.inputs = .ofPairs (convertedTerms terms target) ∧
      v.flaw = (terms.find? (·.2.flaw.isSome)).map fun t => .invalidInput t.1 := by
  obtain ⟨converted, hconverted, h⟩ := bind_eq_ok_iff.1 h
  obtain ⟨-, rfl⟩ := convertTerms_eq_ok_iff.1 hconverted
  have hflawed : terms.find? (!·.2.isOk) = terms.find? (·.2.flaw.isSome) := by
    simp only [CalculatedValue.isOk, Option.not_isNone]
  rw [hflawed] at h
  cases hfind : terms.find? (·.2.flaw.isSome) <;> rw [hfind] at h <;> cases h <;>
    exact ⟨rfl, rfl, rfl⟩

/-- A sum is answered just if all terms have its dimension, and otherwise refused for the first one
that has another. The answer has the unit of the sum. It is flawed just if a term is, by the first
one that is, and then it is 0. If no term is flawed and no two have the same name, it is the total
of the terms from left to right, each as it is entered in the record, in the unit of the sum. -/
theorem sums_of_terms (e : Engine) (now : Instant) (label : String)
    (terms : List (String × CalculatedValue)) (target : Measure) :
    let verdict := (e.run (sumValues now label terms target)).1
    ((∃ v, verdict = .ok v) ↔ ∀ t ∈ terms, t.2.unit.dimension = target.dimension) ∧
      (∀ problem, verdict = .error problem ↔
        ∃ t ∈ terms.find? (·.2.unit.dimension ≠ target.dimension),
          problem = .dimensionMismatch t.2.unit target) ∧
      ∀ v, verdict = .ok v →
        v.unit = target ∧
        v.flaw = (terms.find? (·.2.flaw.isSome)).map (fun t => .invalidInput t.1) ∧
        (v.flaw ≠ none ↔ ∃ t ∈ terms, t.2.flaw ≠ none) ∧
        (v.flaw ≠ none → v.value = 0) ∧
        (v.flaw = none → (terms.map (·.1)).Nodup →
          ∃ entries : List Float,
            List.Forall₂ (fun t x => Measure.convert t.2.value t.2.unit target = .ok x ∧
              v.inputs.get? t.1 = some x) terms entries ∧
            v.value = entries.foldl (· + ·) 0) := by
  simp only [run_sumValues]
  refine ⟨⟨?_, exists_sumOf now⟩, fun _ => sumOf_eq_error_iff, fun v h => ?_⟩
  · rintro ⟨v, h⟩
    obtain ⟨converted, hconverted, -⟩ := bind_eq_ok_iff.1 h
    exact (convertTerms_eq_ok_iff.1 hconverted).1
  · obtain ⟨hunit, hinputs, hflaw⟩ := record_of_sumOf h
    obtain ⟨converted, hconverted, -⟩ := bind_eq_ok_iff.1 h
    obtain ⟨hdimensions, -⟩ := convertTerms_eq_ok_iff.1 hconverted
    refine ⟨hunit, hflaw, ?_⟩
    obtain ⟨hflawed, hv, hvalue⟩ | ⟨hterms, hv, hvalue⟩ := sumOf_cases h
    · exact ⟨iff_of_true hv hflawed, fun _ => hvalue, fun hnone => absurd hnone hv⟩
    · refine ⟨iff_of_false (not_not.2 hv) (by simpa using hterms), fun hsome => absurd hv hsome,
        fun _ hnames => ⟨(convertedTerms terms target).map (·.2), ?_, hvalue⟩⟩
      rw [convertedTerms, List.map_map, List.forall₂_map_right_iff, List.forall₂_same]
      intro t ht
      refine ⟨Measure.convert_eq_ok_iff.2 ⟨hdimensions t ht, rfl⟩, ?_⟩
      have hnodup : ((convertedTerms terms target).map (·.1)).Nodup := by
        rwa [convertedTerms, List.map_map]
      rw [hinputs]
      exact Context.get?_ofPairs_of_mem hnodup (List.mem_map_of_mem ht)

/-- A monthly and a yearly cost in a year, and the same beside a score: the flaw of the second term
does not count there, as the third one has another dimension. -/
theorem sums_of_terms_of_costs :
    let value (x : Float) (unit : Measure) : CalculatedValue :=
      ⟨x, unit, "", "", .ofPairs [], ⟨0, 0⟩, none⟩
    let costs := [("a", value 10.5 .usdPerMonth), ("b", value 4 .usdPerYear)]
    let mixed := [("a", value 10.5 .usdPerMonth), ("b", (value 4 .usdPerYear).flawed .nonFinite),
      ("c", value 60 .score)]
    let e := new ⟨0, 0⟩
    (∃ v, (e.run (sumValues ⟨1, 0⟩ "total" costs .usdPerYear)).1 = .ok v ∧ v.flaw = none ∧
      v.inputs.get? "a" = some 126 ∧ v.value = 130) ∧
      (e.run (sumValues ⟨1, 0⟩ "total" mixed .usdPerYear)).1 =
        .error (.dimensionMismatch .score .usdPerYear) := by
  intro value costs mixed e
  obtain ⟨hanswered, -, hanswer⟩ := sums_of_terms e ⟨1, 0⟩ "total" costs .usdPerYear
  obtain ⟨-, hrefused, -⟩ := sums_of_terms e ⟨1, 0⟩ "total" mixed .usdPerYear
  obtain ⟨v, hv⟩ := hanswered.2 (by decide)
  obtain ⟨-, hflaw, -, -, hsum⟩ := hanswer v hv
  have hflaw : v.flaw = none := hflaw
  obtain ⟨entries, hentries, hvalue⟩ := hsum hflaw (by decide)
  refine ⟨⟨v, hv, hflaw, ?_⟩, (hrefused _).2 ⟨("c", value 60 .score), rfl, rfl⟩⟩
  obtain ⟨x, rest, hx, hrest, rfl⟩ := List.forall₂_cons_left_iff.1 hentries
  obtain ⟨y, none, hy, hnone, rfl⟩ := List.forall₂_cons_left_iff.1 hrest
  obtain rfl := List.forall₂_nil_left_iff.1 hnone
  obtain ⟨-, rfl⟩ := Measure.convert_eq_ok_iff.1 hx.1
  obtain ⟨-, rfl⟩ := Measure.convert_eq_ok_iff.1 hy.1
  have hmonthly : Measure.rescale 10.5 .usdPerMonth .usdPerYear = 126 := by decide +kernel
  have htotal : 0 + Measure.rescale 10.5 .usdPerMonth .usdPerYear
      + Measure.rescale 4 .usdPerYear .usdPerYear = 130 := by decide +kernel
  exact ⟨hmonthly ▸ hx.2, hvalue.trans htotal⟩

end Engine

end Appraisal
