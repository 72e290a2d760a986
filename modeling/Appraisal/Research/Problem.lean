import Appraisal.Decimal.Layout

/-!
# Problems of a payload

A problem is a fault at the path of a field. Checking goes on after a problem, so that all of them
are reported in the order of the checks.
-/

namespace Appraisal

inductive Fault where
  | blank
  | required
  | notFinite
  | negative (value : Float)
  | notOnScale (value : Float)
  | notShare (value : Float)
  | unusableBounds
  | outsideRange (low estimate high : Float)
  | unknownSeverity (text : String)
  | duplicateId (id : String)
  | noUseCases

def Fault.message : Fault → String
  | blank => "must not be empty"
  | required => "is required"
  | notFinite => "must be a finite number"
  | negative value => "must not be negative, got " ++ Decimal.message value
  | notOnScale value => "must be a whole number from 1 to 5, got " ++ Decimal.message value
  | notShare value => "must be between 0 and 1, got " ++ Decimal.message value
  | unusableBounds => "bounds must be finite and non-negative"
  | outsideRange low estimate high =>
    "expected low <= " ++ Decimal.message estimate ++ " <= high, got [" ++ Decimal.message low ++
      ", " ++ Decimal.message high ++ "]"
  | unknownSeverity text => s!"expected Critical, High or Medium, got '{text}'"
  | duplicateId id => s!"duplicate id '{id}'"
  | noUseCases => "at least one use case is required"

structure Problem where
  path : String
  fault : Fault

def Problem.message (p : Problem) : String :=
  p.path ++ ": " ++ p.fault.message

/-- A value and the problems found on the way to it. -/
structure Checked (α : Type) where
  value : α
  problems : List Problem

namespace Checked

def pure {α : Type} (a : α) : Checked α := ⟨a, []⟩

def bind {α β : Type} (x : Checked α) (f : α → Checked β) : Checked β :=
  let y := f x.value
  ⟨y.value, x.problems ++ y.problems⟩

instance : Monad Checked where
  pure := Checked.pure
  bind := Checked.bind

/-- A substitute for a value at fault. -/
def fail {α : Type} (path : String) (fault : Fault) (substitute : α) : Checked α :=
  ⟨substitute, [⟨path, fault⟩]⟩

@[simp] theorem value_pure {α : Type} (a : α) : (Pure.pure a : Checked α).value = a := rfl

@[simp] theorem problems_pure {α : Type} (a : α) : (Pure.pure a : Checked α).problems = [] := rfl

@[simp] theorem value_bind {α β : Type} (x : Checked α) (f : α → Checked β) :
    (x >>= f).value = (f x.value).value := rfl

@[simp] theorem problems_bind {α β : Type} (x : Checked α) (f : α → Checked β) :
    (x >>= f).problems = x.problems ++ (f x.value).problems := rfl

end Checked

end Appraisal
