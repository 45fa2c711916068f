import NoteRelay.Json.Decode

/-!
# Statuses

What a client is told about a failure: a transport code with its number, a text, and details of
stable codes.
-/

namespace NoteRelay

inductive Code where
  | ok
  | cancelled
  | unknown
  | invalidArgument
  | notFound
  | permissionDenied
  | internal
  | unavailable
  | unauthenticated
  deriving DecidableEq, Repr

namespace Code

def number : Code → Int32
  | ok => 0
  | cancelled => 1
  | unknown => 2
  | invalidArgument => 3
  | notFound => 5
  | permissionDenied => 7
  | internal => 13
  | unavailable => 14
  | unauthenticated => 16

def ofNumber? (n : Int32) : Option Code :=
  [ok, cancelled, unknown, invalidArgument, notFound, permissionDenied, internal, unavailable,
    unauthenticated].find? fun c => c.number == n

def name : Code → String
  | ok => "Ok"
  | cancelled => "Cancelled"
  | unknown => "Unknown"
  | invalidArgument => "InvalidArgument"
  | notFound => "NotFound"
  | permissionDenied => "PermissionDenied"
  | internal => "Internal"
  | unavailable => "Unavailable"
  | unauthenticated => "Unauthenticated"

/-- The HTTP status under which a request is refused. -/
def httpStatus : Code → Nat
  | ok => 200
  | invalidArgument => 400
  | notFound => 404
  | permissionDenied => 403
  | unauthenticated => 401
  | unavailable => 503
  | cancelled => 503
  | internal => 500
  | unknown => 500

def toJson (c : Code) : Json := .ofInt32 c.number
def ofJson? (j : Json) : Option Code := j.int32?.bind ofNumber?

theorem ofNumber?_number (c : Code) : ofNumber? c.number = some c := by
  cases c <;> rfl

end Code

inductive DetailCode where
  | unknown
  | internal
  | invalidText
  | invalidCorrelationId
  | business
  | entityNotFound
  | permissionDenied
  deriving DecidableEq, Repr

namespace DetailCode

/-- The name on the wire. -/
def wireName : DetailCode → String
  | unknown => "UNKNOWN"
  | internal => "INTERNAL"
  | invalidText => "INVALID_TEXT"
  | invalidCorrelationId => "INVALID_CORRELATION_ID"
  | business => "BUSINESS"
  | entityNotFound => "ENTITY_NOT_FOUND"
  | permissionDenied => "PERMISSION_DENIED"

def ofWireName? : String → Option DetailCode
  | "UNKNOWN" => some unknown
  | "INTERNAL" => some internal
  | "INVALID_TEXT" => some invalidText
  | "INVALID_CORRELATION_ID" => some invalidCorrelationId
  | "BUSINESS" => some business
  | "ENTITY_NOT_FOUND" => some entityNotFound
  | "PERMISSION_DENIED" => some permissionDenied
  | _ => none

def name : DetailCode → String
  | unknown => "Unknown"
  | internal => "Internal"
  | invalidText => "InvalidText"
  | invalidCorrelationId => "InvalidCorrelationId"
  | business => "Business"
  | entityNotFound => "EntityNotFound"
  | permissionDenied => "PermissionDenied"

def toJson (c : DetailCode) : Json := .string c.wireName
def ofJson? (j : Json) : Option DetailCode := j.bareChoice?.bind ofWireName?

theorem ofWireName?_wireName (c : DetailCode) : ofWireName? c.wireName = some c := by
  cases c <;> rfl

end DetailCode

structure Detail where
  code : DetailCode
  reason : String
  deriving DecidableEq, Repr

namespace Detail

def toJson (d : Detail) : Json :=
  .object [("code", d.code.toJson), ("reason", .string d.reason)]

def ofJson? (j : Json) : Option Detail :=
  match j.slots? ["code", "reason"] with
  | some [code, reason] => do
    let code ← fieldValue? DetailCode.ofJson? code
    let reason ← fieldValue? Json.text? reason
    return ⟨code, reason⟩
  | _ => none

def display (d : Detail) : String :=
  d.code.name ++ "/" ++ d.reason

end Detail

structure Status where
  code : Code
  message : String
  details : List Detail
  deriving DecidableEq, Repr

namespace Status

def toJson (s : Status) : Json :=
  .object [("code", s.code.toJson), ("message", .string s.message),
    ("details", .array (s.details.map Detail.toJson))]

def detailsOfJson? : Json → Option (List Detail)
  | .array items => items.mapM Detail.ofJson?
  | _ => none

def ofJson? (j : Json) : Option Status :=
  match j.slots? ["code", "message", "details"] with
  | some [code, message, details] => do
    let code ← fieldValue? Code.ofJson? code
    let message ← fieldValue? Json.text? message
    let details ← fieldValue? detailsOfJson? details
    return ⟨code, message, details⟩
  | _ => none

def display (s : Status) : String :=
  s.code.name ++ ": " ++ s.message

end Status

end NoteRelay
