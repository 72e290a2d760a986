import Appraisal.CustomFormula.Document
import Appraisal.Engine.Error
import Appraisal.Expression.Validation
import Appraisal.Json.Printer

/-!
# The store of custom formulas

A table of versions in the order in which they were saved. Of each key one version is active: the
first one, until another one is activated. Statements run in transactions, and unique indexes keep
ids, the versions of a key and its active version apart. A row holds its lists as documents and its
time as text, so what is read back is what these still say.
-/

namespace Appraisal

/-- A row that cannot be read back. -/
structure CorruptRow where
  id : String
  reason : String
  deriving DecidableEq, Repr

/-- Why the store refuses. -/
inductive StoreError where
  | invalidExpression (messages : List String)
  | notFound (id : String)
  | unknownVersion (id : String)
  | corrupt (row : CorruptRow)
  /-- The database cannot be used, or not in this way. -/
  | unusable (reason : String)
  deriving DecidableEq, Repr

namespace StoreError

def kind : StoreError → ErrorKind
  | invalidExpression _ => .validation
  | notFound _ => .notFound
  | unknownVersion _ => .conflict
  | corrupt _ | unusable _ => .internal

def message : StoreError → String
  | invalidExpression messages => "invalid expression: " ++ String.intercalate "; " messages
  | notFound id => "custom formula not found: " ++ id
  | unknownVersion id => "cannot activate unknown custom formula version " ++ id
  | corrupt row => s!"corrupt custom formula row {row.id}: {row.reason}"
  | unusable reason => "database error: " ++ reason

end StoreError

structure StoredFormula extends FormulaVersion where
  inputFields : Json
  constants : Json
  createdAt : String

def CustomFormula.stored (f : CustomFormula) : StoredFormula :=
  { toFormulaVersion := f.toFormulaVersion
    inputFields := .strings f.inputFields
    constants := Expression.constantsToJson f.constants
    createdAt := f.createdAt.timestamp }

namespace StoredFormula

/-- The bytes of written constants up to the end of the first value that is missing. -/
def faultColumn (constants : Json) : Nat :=
  let items := (Json.arrayItems? constants).getD []
  let sound := items.takeWhile fun item =>
    (Expression.Constant.ofJson? Json.amount? item).isSome
  -- The fault ends in front of the bracket that closes its constant.
  ("[" ++ Json.separated "," (Json.compactItems (items.take (sound.length + 1)))).utf8ByteSize - 1

/-- The value of a column, or what is wrong with it. -/
def column {α : Type} (r : StoredFormula) (problem : String) : Option α → Except StoreError α
  | some a => .ok a
  | none => .error (.corrupt ⟨r.id, problem⟩)

def read (r : StoredFormula) : Except StoreError CustomFormula := do
  let inputFields ← r.column "input fields are not a list of texts" (Json.stringList? r.inputFields)
  let constants ← r.column
    s!"invalid type: null, expected f64 at line 1 column {faultColumn r.constants}"
    (Expression.constantsOfJson? r.constants)
  let createdAt ← r.column "input contains invalid characters" (Instant.ofTimestamp? r.createdAt)
  return { toFormulaVersion := r.toFormulaVersion, inputFields, constants, createdAt }

def setActive (isActive : Bool) (r : StoredFormula) : StoredFormula :=
  { r with isActive }

def toJson (r : StoredFormula) : Json :=
  .object (r.toFormulaVersion.fields r.inputFields r.constants (.string r.createdAt))

def ofJson? (j : Json) : Option StoredFormula := do
  return { toFormulaVersion := ← FormulaVersion.ofJson? j
           inputFields := ← j.get? "inputFields"
           constants := ← j.get? "constants"
           createdAt := ← j.required "createdAt" Json.string? }

end StoredFormula

structure FormulaStore where
  rows : List StoredFormula
  limits : Expression.Limits
  /-- Whether versions may be saved and activated. -/
  isWritable : Bool

namespace FormulaStore

def empty (limits : Expression.Limits) : FormulaStore := ⟨[], limits, true⟩

/-- The versions of a key, oldest first. -/
def group (s : FormulaStore) (key : FormulaKey) : List StoredFormula :=
  s.rows.filter (·.key.sameGroup key)

def row? (s : FormulaStore) (id : String) : Option StoredFormula :=
  s.rows.find? (·.id = id)

def get (s : FormulaStore) (id : String) : Except StoreError CustomFormula :=
  match s.row? id with
  | some r => r.read
  | none => .error (.notFound id)

/-- Every version of a key, newest first. -/
def versions (s : FormulaStore) (key : FormulaKey) : Except StoreError (List CustomFormula) :=
  ((s.group key).mergeSort fun a b => b.version ≤ a.version).mapM StoredFormula.read

def active (s : FormulaStore) (key : FormulaKey) : Except StoreError (Option CustomFormula) :=
  ((s.group key).find? (·.isActive)).mapM StoredFormula.read

/-- An operation on the store. What it has changed stays changed if it is refused later on. -/
abbrev Op (α : Type) := ExceptT StoreError (StateM FormulaStore) α

/-- The answer of an operation and the store after it. -/
def run {α : Type} (s : FormulaStore) (op : Op α) : Except StoreError α × FormulaStore :=
  StateT.run (ExceptT.run op) s

def notWritable : String :=
  "attempt to write a readonly database"

/-- The rows of a unique index: none of them has the same key as a later one. -/
def isUnique (sameKey : StoredFormula → StoredFormula → Bool) (rows : List StoredFormula) : Bool :=
  decide (rows.Pairwise fun a b => sameKey a b = false)

/-- The first index that the rows break. -/
def brokenIndex? (rows : List StoredFormula) : Option String :=
  if !isUnique (fun a b => a.id = b.id) rows then some "custom_formulas.id"
  else if !isUnique (fun a b => a.key.sameGroup b.key && a.version = b.version) rows then
    some "index 'custom_formulas_version'"
  else if !isUnique (fun a b => a.key.sameGroup b.key) (rows.filter (·.isActive)) then
    some "index 'custom_formulas_one_active'"
  else none

/-- The store with changed rows, unless it may not be written or an index would break. -/
def changed (s : FormulaStore) (change : List StoredFormula → List StoredFormula) :
    Except StoreError FormulaStore :=
  if !s.isWritable then .error (.unusable notWritable)
  else match brokenIndex? (change s.rows) with
  | some index => .error (.unusable ("UNIQUE constraint failed: " ++ index))
  | none => .ok { s with rows := change s.rows }

namespace Op

variable {α : Type}

/-- Reads from the store. -/
def ask (read : FormulaStore → Except StoreError α) : Op α := do
  ExceptT.mk (return read (← getThe FormulaStore))

/-- A statement that changes the rows, or nothing if it is refused. -/
def write (change : List StoredFormula → List StoredFormula) : Op Unit := do
  set (← ask (·.changed change))

/-- All of an operation or, if it is refused, none of it. -/
def transaction (op : Op α) : Op α := do
  let store ← getThe FormulaStore
  tryCatch op fun e => do
    set store
    throw e

end Op

/-- Refuses a draft whose expression is not valid over its input fields and constants. -/
def check (s : FormulaStore) (draft : FormulaDraft) : Except StoreError Unit :=
  let validation := Expression.validate s.limits draft.expression draft.availableNames
  if validation.isValid then .ok () else .error (.invalidExpression validation.messages)

/-- The draft as the next version of its key. The first version of a key is active. Versions are
counted in 32 bits. -/
def nextVersion (s : FormulaStore) (id : String) (now : Instant) (draft : FormulaDraft) :
    CustomFormula :=
  let latest := ((s.group draft.key).map (·.version)).max?
  draft.saved id ((latest.getD 0 + 1) % Nat.pow 2 32) latest.isNone now

/-- Saves a draft under a fresh id. -/
def create (id : String) (now : Instant) (draft : FormulaDraft) : Op CustomFormula := do
  Op.ask (·.check draft)
  Op.transaction do
    let formula ← Op.ask fun s => .ok (s.nextVersion id now draft)
    Op.write (· ++ [formula.stored])
    return formula

/-- The rows with no version of a key active. -/
def deactivated (key : FormulaKey) (rows : List StoredFormula) : List StoredFormula :=
  rows.map fun r => if r.key.sameGroup key then r.setActive false else r

/-- The rows with the version `id` active. -/
def activated (id : String) (rows : List StoredFormula) : List StoredFormula :=
  rows.map fun r => if r.id = id then r.setActive true else r

/-- Makes `id` the only active version of its key. The version is read back when this is done. -/
def activate (id : String) : Op CustomFormula := do
  Op.transaction do
    let row ← Op.ask fun s =>
      match s.row? id with
      | some row => .ok row
      | none => .error (.unknownVersion id)
    Op.write (deactivated row.key)
    Op.write (activated id)
  Op.ask (·.get id)

/-- Whether the text of a file counts as no contents at all, so that a new store may take its place.
A single byte does. -/
def isVacant (text : String) : Bool :=
  text.utf8ByteSize ≤ 1

def toJson (s : FormulaStore) : Json :=
  .array (s.rows.map StoredFormula.toJson)

def ofJson? (limits : Expression.Limits) (j : Json) : Option FormulaStore := do
  return { rows := ← Json.list? StoredFormula.ofJson? j, limits, isWritable := true }

end FormulaStore

end Appraisal
