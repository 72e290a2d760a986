import Appraisal.Toml.Line

/-!
# TOML documents

The sections and values of a text, read line by line into one object. A section has one header, a
value is assigned once, and a section made by a header is not extended through a path of keys. Such
a path may only lead through a section that exists for the sake of a header below it.
-/

namespace Appraisal.Toml

structure Document where
  /-- The sections that have a header. -/
  headed : List (List String)
  /-- The sections made by a path of keys. -/
  dotted : List (List String)
  values : List (List String × Json)
  /-- The section that assignments go to. -/
  current : List String

namespace Document

def empty : Document := ⟨[], [], [], []⟩

/-- The non-empty beginnings of a path that are shorter than it. -/
def parents (path : List String) : List (List String) :=
  (List.range (path.length - 1)).map fun i => path.take (i + 1)

def hasValue (d : Document) (path : List String) : Bool :=
  d.values.any (·.1 = path)

/-- Whether a section exists for the sake of a header below it. -/
def isImplied (d : Document) (path : List String) : Bool :=
  d.headed.any fun h => (parents h).contains path

def isTaken (d : Document) (path : List String) : Bool :=
  d.hasValue path || d.headed.contains path || d.dotted.contains path

def openSection? (d : Document) (path : List String) : Option Document :=
  if d.isTaken path || (parents path).any d.hasValue then none
  else some { d with headed := d.headed ++ [path], current := path }

/-- Whether there is nothing at a path. -/
def isFree (d : Document) (path : List String) : Bool :=
  !(d.isTaken path || d.isImplied path)

/-- Whether a path of keys may lead through a section. -/
def isPassable (d : Document) (path : List String) : Bool :=
  !(d.hasValue path || d.headed.contains path)

/-- Whether a path of keys may put a value into a section. -/
def isExtensible (d : Document) (path : List String) : Bool :=
  d.dotted.contains path || d.isFree path

def assign? (d : Document) (path : List String) (value : Json) : Option Document :=
  let between := (parents path).map (d.current ++ ·)
  let path := d.current ++ path
  if d.isFree path && between.all d.isPassable && between.getLast?.all d.isExtensible then
    some { d with
      dotted := d.dotted ++ between.filter d.isFree
      values := d.values ++ [(path, value)] }
  else none

def add? (d : Document) (cs : List Char) : Option Document := do
  match ← line? cs with
  | .blank => some d
  | .header path => d.openSection? path
  | .assignment path value => d.assign? path value

/-- The value with a change at a path. Sections on the way to it, and at it, are made. -/
def updateAt (change : Json → Json) : List String → Json → Json
  | [], j => change j
  | key :: path, j =>
    let fields := match j with
      | .object fields => fields
      | _ => []
    .object (Json.setField key (updateAt change path ((j.get? key).getD (.object []))) fields)

def toJson (d : Document) : Json :=
  let sections := d.headed.foldl (fun j path => updateAt id path j) (.object [])
  d.values.foldl (fun j (path, value) => updateAt (fun _ => value) path j) sections

end Document

/-- The object that a text describes. A byte order mark in front is skipped. -/
def parse? (text : String) : Option Json := do
  let cs := match text.toList with
    | '\ufeff' :: cs => cs
    | cs => cs
  return (← (lines cs).foldlM Document.add? .empty).toJson

end Appraisal.Toml
