import Appraisal.Engine.Error

/-!
# Responses

Every request is answered by a response: data, or the refusal of the request. A refusal is of one
kind, has one message and lists all problems that led to it.
-/

namespace Appraisal

namespace ErrorKind

def all : List ErrorKind := [validation, notFound, conflict, internal]

def code : ErrorKind → String
  | validation => "validation_error"
  | notFound => "not_found"
  | conflict => "conflict"
  | internal => "internal"

def ofJson? (j : Json) : Option ErrorKind := do
  let code ← j.caseName?
  all.find? (·.code = code)

end ErrorKind

structure Refusal where
  kind : ErrorKind
  message : String
  details : List String
  deriving DecidableEq, Repr

namespace Refusal

/-- The message under its code, and a line for each detail. -/
def display (r : Refusal) : String :=
  r.kind.code ++ ": " ++ r.message ++ String.join (r.details.map ("\n  - " ++ ·))

def toJson (r : Refusal) : Json :=
  .object [("code", .string r.kind.code), ("message", .string r.message),
    ("details", .strings r.details)]

def ofJson? (j : Json) : Option Refusal := do
  let j ← j.object?
  return { kind := ← j.required "code" ErrorKind.ofJson?
           message := ← j.required "message" Json.string?
           details := ← j.fieldOr [] "details" Json.stringList? }

/-- What is told of a response that has nothing to tell. -/
def emptyResponse : Refusal :=
  ⟨.internal, "response carried neither data nor error", []⟩

end Refusal

structure Response (α : Type) where
  success : Bool
  data : Option α
  error : Option Refusal

namespace Response

variable {α β : Type}

def ok (data : α) : Response α := ⟨true, some data, none⟩

def refused (error : Refusal) : Response α := ⟨false, none, some error⟩

def ofExcept : Except Refusal α → Response α
  | .ok data => ok data
  | .error error => refused error

/-- The data of a successful response. An error wins over data beside it. -/
def result (r : Response α) : Except Refusal α :=
  match r.data, r.error with
  | some data, none => if r.success then .ok data else .error .emptyResponse
  | _, some error => .error error
  | none, none => .error .emptyResponse

def map (f : α → β) (r : Response α) : Response β :=
  ⟨r.success, r.data.map f, r.error⟩

def toJson (r : Response Json) : Json :=
  .object ([("success", .bool r.success)] ++ Json.field? "data" id r.data ++
    Json.field? "error" Refusal.toJson r.error)

def ofJson? (j : Json) : Option (Response Json) := do
  let j ← j.object?
  return { success := ← j.required "success" Json.bool?
           data := ← j.optionalField "data" some
           error := ← j.optionalField "error" Refusal.ofJson? }

@[simp] theorem result_ok (a : α) : (ok a).result = .ok a := rfl

@[simp] theorem result_refused (e : Refusal) : (refused e : Response α).result = .error e := rfl

end Response

end Appraisal
