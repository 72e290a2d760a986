import Appraisal.CustomFormula.Location
import Appraisal.CustomFormula.Store
import Appraisal.Workbench.Basic

/-!
# Hosts

What a run may do to the outside. A run is the same function over real files and over files in
memory.
-/

namespace Appraisal

/-- Why a file or folder cannot be used. -/
inductive AccessError where
  | missing
  | alreadyExists
  | notFolder
  | isFolder
  | nameTooLong
  | zeroCharacter
  | notText
  | other (reason : String)
  deriving DecidableEq, Repr

def AccessError.message : AccessError → String
  | missing => "No such file or directory (os error 2)"
  | alreadyExists => "File exists (os error 17)"
  | notFolder => "Not a directory (os error 20)"
  | isFolder => "Is a directory (os error 21)"
  | nameTooLong => "File name too long (os error 36)"
  | zeroCharacter => "file name contained an unexpected NUL byte"
  | notText => "stream did not contain valid UTF-8"
  | other reason => reason

/-- Why a stored file cannot be opened. -/
inductive OpenError where
  | inaccessible
  | notStore
  | notWritable
  deriving DecidableEq, Repr

def OpenError.message (name : String) : OpenError → String
  | inaccessible => "unable to open database file: " ++ name
  | notStore => "file is not a database"
  | notWritable => FormulaStore.notWritable

structure Host (m : Type → Type) where
  textOf : String → m (Except AccessError String)
  readInput : m String
  /-- Makes one folder in a folder that exists. -/
  makeFolder : String → m (Except AccessError Unit)
  /-- The custom formulas kept in a file, which is made where the access admits that. -/
  openStore : String → StoreAccess → m (Except OpenError FormulaStore)
  saveStore : String → FormulaStore → m Unit
  moment : m Moment
  /-- The folders for settings and for data, unless a path is given. -/
  settingsFolder : String
  dataFolder : String

namespace Host

def standardSettingsPath {m : Type → Type} (h : Host m) : String :=
  h.settingsFolder ++ "/calcgraph/settings.toml"

def databasePath {m : Type → Type} (h : Host m) (s : Settings) : String :=
  s.databasePath.getD (h.dataFolder ++ "/calcgraph/formulas.db")

variable {m : Type → Type} [Monad m] (h : Host m)

/-- Whether there is a folder at a path. -/
def isFolder (path : String) : m Bool := do
  return (← h.textOf path) matches .error .isFolder

/-- Makes a folder unless it is there. -/
def ensureFolder (path : String) : m (Except AccessError Unit) := do
  if path.toList.contains '\x00' then return .error .zeroCharacter
  match ← h.makeFolder path with
  | .ok () => return .ok ()
  | .error e => return if ← h.isFolder path then .ok () else .error e

/-- Makes the first one of nested folders, given innermost first, and those around it that are
missing. -/
def makeFolders : List String → m (Except AccessError Unit)
  | [] => return .ok ()
  | path :: outer => do
    match ← h.ensureFolder path with
    | .error .missing =>
      match ← makeFolders outer with
      | .ok () => h.ensureFolder path
      | .error e => return .error e
    | result => return result

end Host

end Appraisal
