import Appraisal.Json.Basic

/-!
# Reading values out of JSON

A decoder answers `none` if the value has another shape. Objects may hold further fields. A field
that may be missing may also be `null` only if its decoder says so.
-/

namespace Appraisal.Json

def object? : Json → Option Json
  | object fields => some (object fields)
  | _ => none

def arrayItems? : Json → Option (List Json)
  | array items => some items
  | _ => none

def string? : Json → Option String
  | string s => some s
  | _ => none

def bool? : Json → Option Bool
  | bool b => some b
  | _ => none

/-- The name of one of several cases: a text, or the key of an object that says nothing else. -/
def caseName? : Json → Option String
  | string s => some s
  | object fields =>
    match lastOfEach fields with
    | [(name, null)] => some name
    | _ => none
  | _ => none

/-- An amount; whole numbers are amounts as well. -/
def amount? : Json → Option Float
  | integer n => some (Float.ofInt n)
  | real x => some x
  | _ => none

/-- A count that fits into `bits` bits. -/
def count? (bits : Nat) : Json → Option Nat
  | integer n => if 0 ≤ n ∧ n < Nat.pow 2 bits then some n.toNat else none
  | _ => none

def list? {α : Type} (decode : Json → Option α) (j : Json) : Option (List α) := do
  (← arrayItems? j).mapM decode

def stringList? : Json → Option (List String) :=
  list? string?

/-- The pairs of a two-element array. -/
def pair? {α β : Type} (first : Json → Option α) (second : Json → Option β) :
    Json → Option (α × β)
  | array [a, b] => do return (← first a, ← second b)
  | _ => none

/-- The members of an object with every value decoded, the last one of each key. -/
def entries? {α : Type} (decode : Json → Option α) : Json → Option (List (String × α))
  | object fields => (lastOfEach fields).mapM fun (key, value) => do return (key, ← decode value)
  | _ => none

/-- `null` as no value. -/
def nullable {α : Type} (decode : Json → Option α) : Json → Option (Option α)
  | null => some none
  | j => (decode j).map some

/-- A field that must be there. -/
def required {α : Type} (key : String) (decode : Json → Option α) (j : Json) : Option α := do
  decode (← j.get? key)

/-- A field that may be missing or `null`. -/
def optionalField {α : Type} (key : String) (decode : Json → Option α) (j : Json) :
    Option (Option α) :=
  match j.get? key with
  | none => some none
  | some value => nullable decode value

/-- A field that may be missing, but not `null`. -/
def fieldOr {α : Type} (default : α) (key : String) (decode : Json → Option α) (j : Json) :
    Option α :=
  match j.get? key with
  | none => some default
  | some value => decode value

end Appraisal.Json
