import Appraisal.Engine.Error
import Appraisal.Instant

/-!
# The audit log

Every evaluation and every change of an assumption is recorded with a sequence number and a time.
Entries are never edited or removed, and a restored log continues where it left off. The clock may
be set back: an entry never carries an earlier time than the one before it. The numbers may run out:
then a build that checks its arithmetic stops, and one that does not goes on with 0.
-/

namespace Appraisal

namespace Audit

inductive Action where
  | start
  | evaluateFormula
  | aggregate
  | updateAssumption
  | resetAssumption
  | resetAllAssumptions
  | importAssumptions
  | restoreCheckpoint
  | monteCarlo
  deriving DecidableEq, Repr

namespace Action

def all : List Action :=
  [start, evaluateFormula, aggregate, updateAssumption, resetAssumption,
   resetAllAssumptions, importAssumptions, restoreCheckpoint, monteCarlo]

def label : Action → String
  | start => "initialize"
  | evaluateFormula => "evaluate_formula"
  | aggregate => "aggregate"
  | updateAssumption => "update_assumption"
  | resetAssumption => "reset_assumption"
  | resetAllAssumptions => "reset_all_assumptions"
  | importAssumptions => "import_assumptions"
  | restoreCheckpoint => "restore_checkpoint"
  | monteCarlo => "monte_carlo"

def ofJson? (j : Json) : Option Action := do
  let label ← j.caseName?
  all.find? (·.label = label)

end Action

structure Entry where
  sequence : UInt64
  timestamp : Instant
  action : Action
  details : Json

namespace Entry

def toJson (e : Entry) : Json :=
  .object [("sequence", .count e.sequence.toNat), ("timestamp", .string e.timestamp.render),
    ("action", .string e.action.label), ("details", e.details)]

def timestamp? (j : Json) : Option Instant := do
  Instant.parse? (← j.string?)

def ofJson? (j : Json) : Option Entry := do
  let j ← j.object?
  return { sequence := (← j.required "sequence" (Json.count? 64)).toUInt64
           timestamp := ← j.required "timestamp" timestamp?
           action := ← j.required "action" Action.ofJson?
           details := ← j.get? "details" }

end Entry

/-- The entries, oldest first. -/
structure Log where
  entries : List Entry

namespace Log

def empty : Log := ⟨[]⟩

def size (l : Log) : Nat :=
  l.entries.length

/-- Where the order of two neighbouring entries is broken. -/
def disorder? (a b : Entry) : Option String :=
  if b.sequence ≤ a.sequence then
    some s!"audit sequence {b.sequence.toNat} follows {a.sequence.toNat}"
  else if !a.timestamp.le b.timestamp then
    some s!"audit entry {b.sequence.toNat} is older than its predecessor"
  else none

def firstDisorder? : List Entry → Option String
  | a :: b :: rest => (disorder? a b).orElse fun _ => firstDisorder? (b :: rest)
  | _ => none

/-- The log of exported entries. Sequence numbers have to increase, and times must not decrease. -/
def restore (entries : List Entry) : Except EngineError Log :=
  match firstDisorder? entries with
  | some reason => .error (.invalidCheckpoint reason)
  | none => .ok ⟨entries⟩

/-- The entry that follows the last one. Its number is computed without a check, as in a build for
release: after the greatest number comes 0. -/
def next (l : Log) (now : Instant) (action : Action) (details : Json) : Entry :=
  match l.entries.getLast? with
  | some last => ⟨last.sequence + 1, now.later last.timestamp, action, details⟩
  | none => ⟨0, now, action, details⟩

def record (l : Log) (now : Instant) (action : Action) (details : Json) : Log :=
  ⟨l.entries ++ [l.next now action details]⟩

/-- Whether the last entry has the greatest number. -/
def isFull (l : Log) : Bool :=
  l.entries.getLast?.any (·.sequence + 1 == 0)

/-- `record` in a build that checks its arithmetic, and stops where the number overflows. -/
def record? (l : Log) (now : Instant) (action : Action) (details : Json) : Option Log :=
  if l.isFull then none else some (l.record now action details)

/-- Whether a number has overflowed since the log was started or restored: no entry but the first
one has the number 0 otherwise. -/
def hasOverflowed (l : Log) : Bool :=
  l.entries.tail.any (·.sequence == 0)

def count (l : Log) (action : Action) : Nat :=
  (l.entries.filter (·.action = action)).length

def toJson (l : Log) : Json :=
  .array (l.entries.map Entry.toJson)

end Log

end Audit

end Appraisal
