import Appraisal.Command.Host
import Appraisal.Command.Path

/-!
# Files in memory

A host whose files, folders and stores are held in a list, so that what a run does to them can be
computed. A place is told by the names on the way to it from the root.
-/

namespace Appraisal

abbrev Place := List String

/-- What may stand at a place. -/
inductive FileItem where
  | folder
  | text (contents : String)
  | store (contents : FormulaStore)

structure FileTree where
  /-- The newest item of a place comes first. -/
  items : List (Place × FileItem)
  /-- The folder of the run. -/
  home : Place

namespace FileTree

def itemAt (t : FileTree) (place : Place) : Option FileItem :=
  if place = [] then some .folder else t.items.lookup place

def put (t : FileTree) (place : Place) (item : FileItem) : FileTree :=
  { t with items := (place, item) :: t.items }

/-- Where a path starts from. -/
def start (t : FileTree) (path : String) : Place :=
  if Path.isAbsolute path then [] else t.home

/-- Names have at most 255 bytes. -/
def maxNameSize : Nat := 255

/-- Paths have at most 4095 bytes. -/
def maxPathSize : Nat := 4095

/-- The place that a part of a path leads to from a folder. -/
def step (t : FileTree) (place : Place) (part : String) : Except AccessError Place :=
  match t.itemAt place with
  | none => .error .missing
  | some .folder =>
    if Path.isStay part then .ok place
    else if part = ".." then .ok place.dropLast
    else if maxNameSize < part.utf8ByteSize then .error .nameTooLong
    else .ok (place ++ [part])
  | some _ => .error .notFolder

/-- The place that parts of a path lead to, from where the path starts. -/
def walk (t : FileTree) (path : String) (parts : List String) : Except AccessError Place :=
  if maxPathSize < path.utf8ByteSize then .error .nameTooLong
  else parts.foldlM t.step (t.start path)

def resolve (t : FileTree) (path : String) : Except AccessError Place :=
  t.walk path (Path.parts path)

/-- The place that a path names whether its folders exist or not. -/
def placeOf (t : FileTree) (path : String) : Place :=
  (Path.parts path).foldl (fun place part =>
    if Path.isStay part then place
    else if part = ".." then place.dropLast
    else place ++ [part]) (t.start path)

def textOf (t : FileTree) (path : String) : Except AccessError String := do
  match t.itemAt (← t.resolve path) with
  | none => .error .missing
  | some .folder => .error .isFolder
  | some (.text contents) => .ok contents
  | some (.store _) => .error .notText

/-- The parts of a path without slashes at its end. -/
def folderParts (path : String) : List String :=
  ((Path.parts path).reverse.dropWhile (· = "")).reverse

def makeFolder (t : FileTree) (path : String) : Except AccessError FileTree := do
  let parts := folderParts path
  let around ← t.walk path parts.dropLast
  let place ← t.step around (parts.getLast?.getD "")
  if place.length ≤ around.length ∨ (t.itemAt place).isSome then .error .alreadyExists
  else .ok (t.put place .folder)

/-- The tree with all folders on the way to a place. -/
def withFolders (t : FileTree) (place : Place) : FileTree :=
  (List.range place.length).foldl (fun t n => t.put (place.take (n + 1)) .folder) t

/-- The tree with a text at a path, and the folders around it. -/
def withText (t : FileTree) (path contents : String) : FileTree :=
  let place := t.placeOf path
  (t.withFolders place.dropLast).put place (.text contents)

def empty (home : Place) : FileTree :=
  withFolders ⟨[], home⟩ home

/-- The bytes that the names on the way to a place take, each with a slash before it. -/
def placeSize (place : Place) : Nat :=
  place.foldl (fun size name => size + (name.utf8ByteSize + 1)) 0

/-- Places of stores have at most 504 bytes. -/
def maxStoreSize : Nat := 504

/-- Whether a path is short enough for a store. -/
def admitsStore (t : FileTree) (path : String) : Bool :=
  (Path.parts path).all (·.utf8ByteSize ≤ maxNameSize) && placeSize (t.placeOf path) ≤ maxStoreSize

/-- The store at a path. A new one takes the place of a text without contents and, with full access,
of nothing. -/
def openStore (t : FileTree) (path : String) (access : StoreAccess) :
    Except OpenError FormulaStore :=
  let place := t.placeOf path
  if !t.admitsStore path then .error .inaccessible
  else match t.itemAt place.dropLast, t.itemAt place with
  | some .folder, some (.store contents) => .ok contents
  | some .folder, some (.text contents) =>
    if !FormulaStore.isVacant contents then .error .notStore
    else if access = .readOnly then .error .notWritable
    else .ok (.empty .standard)
  | some .folder, none =>
    if access = .full then .ok (.empty .standard) else .error .inaccessible
  | _, _ => .error .inaccessible

def saveStore (t : FileTree) (path : String) (store : FormulaStore) : FileTree :=
  t.put (t.placeOf path) (.store store)

/-- The host over files in memory, with a given input at a given moment. -/
def host (input : String) (moment : Moment) : Host (StateM FileTree) :=
  { textOf := fun path => return (← get).textOf path
    readInput := return input
    makeFolder := fun path => do
      match (← get).makeFolder path with
      | .ok t => set t; return .ok ()
      | .error e => return .error e
    openStore := fun path access => return (← get).openStore path access
    saveStore := fun path store => modify (·.saveStore path store)
    moment := return moment
    settingsFolder := ".config"
    dataFolder := ".data" }

end FileTree

end Appraisal
