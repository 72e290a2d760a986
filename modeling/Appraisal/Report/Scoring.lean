import Appraisal.Number.Rounding
import Appraisal.Research.Basic

/-!
# Scoring

The scores of a use case that no formula gives: its effort, its time to value and the tier and phase
that follow from its priority.
-/

namespace Appraisal

/-- Effort from 0 to 100. Ready data is little effort, so readiness counts in reverse. -/
def Effort.score (e : Effort) : Float :=
  let readiness := 6 - Float.ofNat e.dataReadiness
  let mean := (readiness + Float.ofNat e.integrationComplexity
    + Float.ofNat e.changeManagement) / 3
  mean * 20

/-- Time to value counts in whole months that have begun. -/
def wholeMonths (months : Float) : Float :=
  Number.ceiling months

/-- The factor for a level of data maturity. -/
def maturityFactor (level : Nat) : Float :=
  match level with
  | 0 | 1 => 0.50
  | 2 => 0.65
  | 3 => 0.75
  | 4 => 0.85
  | _ => 0.95

inductive PriorityTier where
  | critical
  | high
  | medium
  | low
  deriving DecidableEq, Repr

/-- The quarter in which a use case should be implemented. -/
inductive Phase where
  | q1
  | q2
  | q3
  | q4
  deriving DecidableEq, Repr

namespace PriorityTier

def ofScore (score : Float) : PriorityTier :=
  if 80 ≤ score then critical
  else if 60 ≤ score then high
  else if 40 ≤ score then medium
  else low

def phase : PriorityTier → Phase
  | critical => .q1
  | high => .q2
  | medium => .q3
  | low => .q4

def name : PriorityTier → String
  | critical => "Critical"
  | high => "High"
  | medium => "Medium"
  | low => "Low"

end PriorityTier

def Phase.name : Phase → String
  | q1 => "Q1"
  | q2 => "Q2"
  | q3 => "Q3"
  | q4 => "Q4"

end Appraisal
