import Appraisal.Workbench.Response

/-!
# Exit codes

How a run of the program ended, as a number that scripts rely on.
-/

namespace Appraisal

inductive ExitCode where
  | success
  /-- Arguments that were not understood, or input that could not be read. -/
  | usage
  | refused (kind : ErrorKind)
  /-- A settings file that could not be used. -/
  | settings
  deriving DecidableEq, Repr

/-- The number for each kind of refusal, from 3 to 6. -/
def ErrorKind.exitNumber : ErrorKind → Nat
  | validation => 3
  | notFound => 4
  | conflict => 5
  | internal => 6

def ExitCode.number : ExitCode → Nat
  | success => 0
  | usage => 2
  | refused kind => kind.exitNumber
  | settings => 10

/-- What a run has written, and how it ended. -/
structure Outcome where
  exitCode : ExitCode
  output : String
  errors : String
  deriving DecidableEq, Repr

/-- Why a run did not do what it was asked for. -/
structure Failure where
  exitCode : ExitCode
  message : String
  hint : Option String
  deriving DecidableEq, Repr

namespace Failure

def text (f : Failure) : String :=
  "error: " ++ f.message ++ "\n" ++
    match f.hint with
    | some hint => "hint:  " ++ hint ++ "\n"
    | none => ""

def outcome (f : Failure) : Outcome :=
  ⟨f.exitCode, "", f.text⟩

/-- A refused request, with its details. -/
def ofRefusal (r : Refusal) : Failure :=
  ⟨.refused r.kind, r.display, none⟩

end Failure

end Appraisal
