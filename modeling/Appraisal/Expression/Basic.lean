/-!
# Expressions

The arithmetic of custom formulas: numbers, named variables, the four operators and calls of eight
functions. There is no node for anything else, so an expression can only ever compute a number.
-/

namespace Appraisal

namespace Expression

inductive Operator where
  | add
  | sub
  | mul
  | div
  deriving DecidableEq, Repr

inductive Function where
  | max
  | min
  | abs
  | round
  | floor
  | ceil
  | sqrt
  | pow
  deriving DecidableEq, Repr

namespace Function

def all : List Function := [max, min, abs, round, floor, ceil, sqrt, pow]

def name : Function → String
  | max => "max"
  | min => "min"
  | abs => "abs"
  | round => "round"
  | floor => "floor"
  | ceil => "ceil"
  | sqrt => "sqrt"
  | pow => "pow"

/-- Names are matched with regard to case. -/
def ofName? (name : String) : Option Function :=
  all.find? (·.name = name)

/-- Whether a function can be called with so many arguments. -/
def admits : Function → Nat → Bool
  | max, n | min, n => n ≠ 0
  | pow, n => n = 2
  | _, n => n = 1

theorem ofName?_name (f : Function) : ofName? f.name = some f := by
  cases f <;> decide

end Function

end Expression

inductive Expression where
  | number (value : Float)
  | var (name : String)
  | binary (op : Expression.Operator) (left right : Expression)
  | call (function : Expression.Function) (arguments : List Expression)

namespace Expression

/-- Bounds that are applied before an expression is read. -/
structure Limits where
  maxLength : Nat
  maxDepth : Nat
  deriving DecidableEq, Repr

def Limits.standard : Limits := ⟨2000, 32⟩

mutual

/-- The names of the variables, from left to right, with repetitions. -/
def variableNames : Expression → List String
  | number _ => []
  | var name => [name]
  | binary _ left right => left.variableNames ++ right.variableNames
  | call _ arguments => variableNamesOfAll arguments

def variableNamesOfAll : List Expression → List String
  | [] => []
  | e :: es => e.variableNames ++ variableNamesOfAll es

end

end Expression

end Appraisal
