import Appraisal.Expression.Evaluation
import Appraisal.Instant

/-!
# Custom formulas

A custom formula is an expression that computes one field of a report. Its versions are counted for
each key: the field together with the report and the use case that it is meant for.
-/

namespace Appraisal

/-- What a custom formula is meant for. Without a scope it is meant for all reports or use cases. -/
structure FormulaKey where
  reportId : Option String
  useCaseId : Option String
  fieldKey : String
  deriving DecidableEq, Repr

namespace FormulaKey

/-- An empty scope is none. -/
def scope (id : Option String) : Option String :=
  id.filter (· ≠ "")

def normalized (k : FormulaKey) : FormulaKey :=
  { k with reportId := scope k.reportId, useCaseId := scope k.useCaseId }

/-- Whether two keys count the same versions. -/
def sameGroup (a b : FormulaKey) : Bool :=
  a.reportId.getD "" = b.reportId.getD "" && a.useCaseId.getD "" = b.useCaseId.getD "" &&
    a.fieldKey = b.fieldKey

theorem scope_eq (id : Option String) :
    scope id = if id.getD "" = "" then none else some (id.getD "") := by
  cases id with
  | none => rfl
  | some s => by_cases h : s = "" <;> simp [scope, h]

theorem getD_scope (id : Option String) : (scope id).getD "" = id.getD "" := by
  rw [scope_eq]
  split
  next h => exact h.symm
  next => rfl

theorem scope_eq_scope_iff {a b : Option String} : scope a = scope b ↔ a.getD "" = b.getD "" := by
  constructor
  · intro h
    rw [← getD_scope a, h, getD_scope]
  · intro h
    rw [scope_eq, scope_eq, h]

@[simp] theorem scope_scope (id : Option String) : scope (scope id) = scope id :=
  scope_eq_scope_iff.2 (getD_scope id)

@[simp] theorem normalized_normalized (k : FormulaKey) :
    k.normalized.normalized = k.normalized := by
  simp [normalized]

theorem sameGroup_iff {a b : FormulaKey} : a.sameGroup b = true ↔ a.normalized = b.normalized := by
  simp [sameGroup, normalized, scope_eq_scope_iff, and_assoc]

theorem sameGroup_comm {a b : FormulaKey} : a.sameGroup b = b.sameGroup a := by
  rw [Bool.eq_iff_iff, sameGroup_iff, sameGroup_iff, eq_comm]

theorem sameGroup_congr_left {a b c : FormulaKey} (h : a.sameGroup b = true) :
    a.sameGroup c = b.sameGroup c := by
  rw [Bool.eq_iff_iff, sameGroup_iff, sameGroup_iff, sameGroup_iff.1 h]

theorem sameGroup_congr_right {a b c : FormulaKey} (h : b.sameGroup c = true) :
    a.sameGroup b = a.sameGroup c := by
  rw [sameGroup_comm, sameGroup_congr_left h, sameGroup_comm]

theorem sameGroup_normalized (k : FormulaKey) : k.normalized.sameGroup k = true :=
  sameGroup_iff.2 (normalized_normalized k)

end FormulaKey

/-- What a version has in common with the row that it is stored in. -/
structure FormulaVersion where
  id : String
  key : FormulaKey
  label : String
  expression : String
  isActive : Bool
  version : Nat
  notes : Option String
  createdBy : Option String

structure CustomFormula extends FormulaVersion where
  inputFields : List String
  constants : List Expression.Constant
  createdAt : Instant

/-- What is given to save a version. -/
structure FormulaDraft where
  key : FormulaKey
  label : String
  expression : String
  inputFields : List String
  constants : List Expression.Constant
  notes : Option String
  createdBy : Option String

namespace FormulaDraft

/-- The names that the expression may use. -/
def availableNames (d : FormulaDraft) : List String :=
  d.inputFields ++ d.constants.map (·.key)

/-- The draft as a saved version. -/
def saved (d : FormulaDraft) (id : String) (version : Nat) (isActive : Bool) (now : Instant) :
    CustomFormula :=
  { id
    key := d.key.normalized
    label := d.label
    expression := d.expression
    inputFields := d.inputFields
    constants := d.constants
    isActive, version
    notes := d.notes
    createdBy := d.createdBy
    createdAt := now }

end FormulaDraft

end Appraisal
