/-!
# JSON values

Whole numbers and reals are told apart, as counts and amounts are. A real that is not finite has no
spelling and becomes `null`.
-/

namespace Appraisal

inductive Json where
  | null
  | bool (value : Bool)
  | integer (value : Int)
  | real (value : Float)
  | string (value : String)
  | array (items : List Json)
  | object (fields : List (String × Json))
  deriving Inhabited

namespace Json

/-- An amount; `null` if it is not finite. -/
def amount (x : Float) : Json :=
  if x.isFinite then real x else null

def count (n : Nat) : Json :=
  integer n

def strings (xs : List String) : Json :=
  array (xs.map string)

def optional {α : Type} (encode : α → Json) : Option α → Json
  | some x => encode x
  | none => null

/-- A field that is left out if there is no value. -/
def field? {α : Type} (name : String) (encode : α → Json) : Option α → List (String × Json)
  | some x => [(name, encode x)]
  | none => []

/-- The last value that an object gives to a key. -/
def get? (key : String) : Json → Option Json
  | object fields => (fields.reverse.lookup key)
  | _ => none

/-- The fields of an object, with later ones in place of earlier ones of the same key. -/
def setField (key : String) (value : Json) (fields : List (String × Json)) :
    List (String × Json) :=
  fields.filter (·.1 ≠ key) ++ [(key, value)]

/-- The fields without those that a later one of the same key overrides. -/
def lastOfEach (fields : List (String × Json)) : List (String × Json) :=
  fields.foldl (fun kept (key, value) => setField key value kept) []

end Json

end Appraisal
