import Appraisal.Report.Basic

/-!
# Ranking

Use cases are ranked by priority, then by annual value, then by id. Numbers compare as in a total
order in which the two zeros are equal and the undefined number is largest.
-/

namespace Appraisal

namespace Ranking

/-- Whether `a` is at least as large as `b`. -/
def atLeast (a b : Float) : Bool :=
  a.isNaN || b ≤ a

/-- Whether `a` is larger than `b`. -/
def above (a b : Float) : Bool :=
  !atLeast b a

/-- Whether `a` may stand before `b`. -/
def before (a b : UseCaseResult) : Bool :=
  above a.priority b.priority || (atLeast a.priority b.priority &&
    (above a.annualValue b.annualValue || (atLeast a.annualValue b.annualValue &&
      !decide (b.id < a.id))))

def entry (rank : Nat) (r : UseCaseResult) : RankedUseCase :=
  { rank
    id := r.useCase.id
    name := r.useCase.name
    priorityScore := r.priority
    priorityTier := r.scoring.tier
    annualValue := r.annualValue
    monthlyTokens := r.tokenCosts.monthlyTokens }

end Ranking

/-- The first `top` use cases with their ranks. -/
def rank (useCases : List UseCaseResult) (top : Nat) : List RankedUseCase :=
  ((useCases.mergeSort Ranking.before).take top).mapIdx fun i r => Ranking.entry (i + 1) r

end Appraisal
