import Appraisal.Json.Token
import Appraisal.Text.Parsed

/-!
# Reading JSON

Arrays and objects may be nested up to a fixed depth. A key that an object repeats is kept in every
place; `Json.get?` takes the last one.
-/

namespace Appraisal.Json

open Text (Parsed)

/-- How many arrays and objects may be open at once. -/
def maxNesting : Nat := 127

mutual

/-- A value at the front, inside at most `room` more brackets. -/
def value? (room : Nat) (ts : List Token) : Option (Parsed Json ts) :=
  match ts with
  | .scalar j :: rest => some (.spanning j (.scalar j) [] rest)
  | .string s :: rest => some (.spanning (string s) (.string s) [] rest)
  | .openArray :: .closeArray :: rest =>
    if room = 0 then none else some (.spanning (array []) .openArray [.closeArray] rest)
  | .openArray :: rest =>
    if room = 0 then none
    else (items? (room - 1) rest).map fun p => (p.map array).behind .openArray
  | .openObject :: .closeObject :: rest =>
    if room = 0 then none else some (.spanning (object []) .openObject [.closeObject] rest)
  | .openObject :: rest =>
    if room = 0 then none
    else (members? (room - 1) rest).map fun p => (p.map object).behind .openObject
  | _ => none
termination_by (ts.length, 0)

/-- The items of an array that has one, up to its closing bracket. -/
def items? (room : Nat) (ts : List Token) : Option (Parsed (List Json) ts) := do
  let first ← value? room ts
  match h : first.rest with
  | .closeArray :: rest =>
    return ⟨[first.value], rest, by have := first.shorter; rw [h] at this; simp at this; omega⟩
  | .comma :: rest =>
    have shorter : rest.length < ts.length := by
      have := first.shorter; rw [h] at this; simp at this; omega
    let others ← items? room rest
    return (others.map (first.value :: ·)).widen (Nat.le_of_lt shorter)
  | _ => none
termination_by (ts.length, 1)

/-- The members of an object that has one, up to its closing bracket. -/
def members? (room : Nat) (ts : List Token) : Option (Parsed (List (String × Json)) ts) :=
  match ts with
  | .string key :: .colon :: body => do
    let first ← value? room body
    match h : first.rest with
    | .closeObject :: rest =>
      return ⟨[(key, first.value)], rest, by
        have := first.shorter; rw [h] at this; simp at this ⊢; omega⟩
    | .comma :: rest =>
      have shorter : rest.length < (Token.string key :: .colon :: body).length := by
        have := first.shorter; rw [h] at this; simp at this ⊢; omega
      let others ← members? room rest
      return (others.map ((key, first.value) :: ·)).widen (Nat.le_of_lt shorter)
    | _ => none
  | _ => none
termination_by (ts.length, 1)

end

/-- The value that a whole text stands for. -/
def parse? (s : String) : Option Json := do
  let ts ← tokens? s.toList
  let p ← value? maxNesting ts
  if p.rest.isEmpty then return p.value else none

end Appraisal.Json
