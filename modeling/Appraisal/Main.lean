import Appraisal.Command.Run
import Appraisal.Random.Uuid
import Std.Time.DateTime.Timestamp

/-!
# The program

Runs a command over the real files, clock and environment. Custom formulas are kept in a file as one
document.
-/

namespace Appraisal.Program

/-- Why an access has failed. -/
def accessError : IO.Error → AccessError
  | .noFileOrDirectory _ _ _ => .missing
  | .alreadyExists _ _ _ => .alreadyExists
  | .inappropriateType _ _ "is a directory" => .isFolder
  | .inappropriateType _ _ _ => .notFolder
  | .invalidArgument _ _ "name too long" => .nameTooLong
  | .userError _ => .notText
  | e => .other (toString e)

/-- The result of an access to files, or why it has failed. -/
def attempt {α : Type} (access : IO α) : IO (Except AccessError α) := do
  try return .ok (← access)
  catch e => return .error (accessError e)

partial def readAll (stream : IO.FS.Stream) (text : String) : IO String := do
  let line ← stream.getLine
  if line.isEmpty then return text else readAll stream (text ++ line)

/-- The store in a file. A file without contents is one without formulas, and with full access it is
made if it is missing. -/
def openStore (path : String) (access : StoreAccess) : IO (Except OpenError FormulaStore) := do
  match ← attempt (IO.FS.readFile path) with
  | .ok text =>
    if FormulaStore.isVacant text then
      return if access = .readOnly then .error .notWritable else .ok (.empty .standard)
    match (Json.parse? text).bind (FormulaStore.ofJson? .standard) with
    | some store => return .ok store
    | none => return .error .notStore
  | .error .notText => return .error .notStore
  | .error .missing =>
    if access != .full then return .error .inaccessible
    match ← attempt (IO.FS.writeFile path "") with
    | .ok () => return .ok (.empty .standard)
    | .error _ => return .error .inaccessible
  | .error _ => return .error .inaccessible

def saveStore (path : String) (store : FormulaStore) : IO Unit :=
  IO.FS.writeFile path store.toJson.compact

def moment : IO Moment := do
  let time := (← Std.Time.Timestamp.now).toNanosecondsSinceUnixEpoch.toInt
  let bytes ← IO.getRandomBytes 16
  return { now := ⟨time / 1000000000, (time % 1000000000).toNat⟩
           freshId := Random.uuid bytes.toList }

/-- A folder that the environment names, or one in the home folder. -/
def folder (name inHome : String) : IO String := do
  match ← IO.getEnv name, ← IO.getEnv "HOME" with
  | some path, _ => return path
  | none, some home => return home ++ "/" ++ inHome
  | none, none => return "."

def host : IO (Host IO) := do
  return { textOf := fun path => attempt (IO.FS.readFile path)
           makeFolder := fun path => attempt (IO.FS.createDir path)
           openStore, saveStore, moment
           readInput := do readAll (← IO.getStdin) ""
           settingsFolder := ← folder "XDG_CONFIG_HOME" ".config"
           dataFolder := ← folder "XDG_DATA_HOME" ".local/share" }

end Appraisal.Program

def main (arguments : List String) : IO UInt32 := do
  let environment : Appraisal.Environment :=
    { settingsPath := ← IO.getEnv "CALCGRAPH_CONFIG"
      databasePath := ← IO.getEnv "CALCGRAPH_DB" }
  let outcome ← Appraisal.Run.run (← Appraisal.Program.host) environment arguments
  IO.print outcome.output
  IO.eprint outcome.errors
  return outcome.exitCode.number.toUInt32
