import Appraisal.Toml.Scalar

/-!
# Lines of TOML

A line is a section header, an assignment, or empty but for a comment. Each key is bare or between
quotes, and a path of keys has points between them.
-/

namespace Appraisal.Toml

open Text (Parsed Continued)

inductive Line where
  | blank
  | header (path : List String)
  | assignment (path : List String) (value : Json)

/-- The lines of a text. A line feed ends a line, with or without a carriage return before it. -/
def lines : List Char → List (List Char)
  | [] => [[]]
  | '\r' :: '\n' :: cs => [] :: lines cs
  | '\n' :: cs => [] :: lines cs
  | c :: cs =>
    match lines cs with
    | l :: ls => (c :: l) :: ls
    | [] => [[c]]

def isGap (c : Char) : Bool :=
  c = ' ' || c = '\t'

def isBareKeyChar (c : Char) : Bool :=
  c.isAlphanum || c = '_' || c = '-'

def isWordChar (c : Char) : Bool :=
  isBareKeyChar c || c = '+' || c = '.'

/-- A value without the gap behind it. -/
def skipGap {α : Type} {cs : List Char} (p : Parsed α cs) : Parsed α cs :=
  { value := p.value
    rest := p.rest.dropWhile isGap
    shorter := Nat.lt_of_le_of_lt (Text.length_dropWhile_le isGap p.rest) p.shorter }

/-- The characters that pass a test, at least one. -/
def run? (test : Char → Bool) (cs : List Char) : Option (Parsed (List Char) cs) :=
  match cs with
  | [] => none
  | c :: rest =>
    if test c then
      some ⟨c :: rest.takeWhile test, rest.dropWhile test, by
        have := Text.length_dropWhile_le test rest; simp; omega⟩
    else none

def key? (cs : List Char) : Option (Parsed String cs) :=
  match text? cs with
  | some p => some (skipGap p)
  | none => (run? isBareKeyChar cs).map fun p => skipGap (p.map String.ofList)

/-- A path of keys and the gap behind it. -/
def path? (cs : List Char) : Option (Parsed (List String) cs) := do
  let first ← key? cs
  match h : first.rest with
  | '.' :: rest =>
    have shorter : (rest.dropWhile isGap).length < cs.length := by
      have := first.shorter
      have := Text.length_dropWhile_le isGap rest
      rw [h] at *; simp at *; omega
    let others ← path? (rest.dropWhile isGap)
    return (others.map (first.value :: ·)).widen (Nat.le_of_lt shorter)
  | _ => return first.map ([·])
termination_by cs.length

def value? (cs : List Char) : Option (Parsed Json cs) :=
  match text? cs with
  | some p => some (p.map Json.string)
  | none => do
    let p ← run? isWordChar cs
    let j ← word? p.value
    return p.map fun _ => j

/-- Whether nothing is left but a gap and a comment. -/
def isEnd (cs : List Char) : Bool :=
  match cs.dropWhile isGap with
  | [] => true
  | c :: comment => c = '#' && comment.all isPrintable

/-- `[path]` behind its opening bracket. -/
def header? (cs : List Char) : Option Line := do
  let p ← path? (cs.dropWhile isGap)
  match p.rest with
  | ']' :: rest => if isEnd rest then some (.header p.value) else none
  | _ => none

def assignment? (cs : List Char) : Option Line := do
  let p ← path? cs
  match p.rest with
  | '=' :: rest =>
    let v ← value? (rest.dropWhile isGap)
    if isEnd v.rest then some (.assignment p.value v.value) else none
  | _ => none

def line? (cs : List Char) : Option Line :=
  if isEnd cs then some .blank
  else match cs.dropWhile isGap with
  | '[' :: rest => header? rest
  | rest => assignment? rest

end Appraisal.Toml
