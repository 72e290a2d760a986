import Appraisal.Text.Split

/-!
# Paths

The text of a path is a list of names with slashes between them. Empty parts and single points stay
where they are, except that a single point at the front stands for the folder of the run.
-/

namespace Appraisal.Path

def parts (path : String) : List String :=
  (Text.splitAtMark '/' path.toList).map String.ofList

def ofParts (parts : List String) : String :=
  String.intercalate "/" parts

def isAbsolute (path : String) : Bool :=
  path.toList.head? = some '/'

/-- Whether a part leaves one where one is. -/
def isStay (part : String) : Bool :=
  part = "" || part = "."

/-- Parts, the last one first, without the last ones that lead nowhere. The first part of all is
kept in any case. -/
def dropStays : List String → List String
  | [] => []
  | [first] => [first]
  | part :: outer => if isStay part then dropStays outer else part :: outer

/-- The path of the folder around a file or folder; empty for the folder of the run. -/
def parent? (path : String) : Option String :=
  match dropStays (parts path).reverse with
  | [] => none
  | [first] => if first = "" then none else some ""
  | _ :: outer =>
    let folder := ofParts (dropStays outer).reverse
    some (if folder = "" then "/" else folder)

/-- A path and up to `n` of the folders around it, innermost first, without the folder of the
run. -/
def upward : Nat → String → List String
  | 0, _ => []
  | n + 1, path =>
    if path = "" then []
    else path :: match parent? path with
      | some folder => upward n folder
      | none => []

/-- A path and all folders around it. There are no more of them than the path has parts. -/
def ancestors (path : String) : List String :=
  upward (parts path).length path

end Appraisal.Path
