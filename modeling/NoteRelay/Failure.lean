/-!
# Failures

What can go wrong in a session or a request, as causes. The domain rejects a request that breaks one
of its rules. A call to a queue fails when the store behind it is out of reach, or when what it holds
cannot be read. A `Failure` has a `kind`, the key under which it is looked up when it is disclosed, a
`message`, its whole text, and a `reason`, the text of its detail.
-/

namespace NoteRelay

-- ---------------------------------------------------------------------------
-- Rejections and faults
-- ---------------------------------------------------------------------------

inductive Rejection where
  | emptyText
  | noteNotFound
  | userNotFound
  | permissionDenied
  | invalidArgument (field reason : String)
  deriving DecidableEq, Repr

def Rejection.message : Rejection → String
  | emptyText => "empty text"
  | noteNotFound => "note not found"
  | userNotFound => "user not found"
  | permissionDenied => "permission denied"
  | invalidArgument field reason => field ++ ": " ++ reason

inductive QueueFault where
  | unavailable (text : String)
  | codec (text : String)
  deriving DecidableEq, Repr

def QueueFault.message : QueueFault → String
  | unavailable text => "queue unavailable: " ++ text
  | codec text => "queue codec error: " ++ text

-- ---------------------------------------------------------------------------
-- Failures
-- ---------------------------------------------------------------------------

/-- One field that breaks a rule. -/
structure Violation where
  field : String
  reason : String
  deriving DecidableEq, Repr

def Violation.message (v : Violation) : String :=
  v.field ++ ": " ++ v.reason

inductive Failure where
  | validation (violations : List Violation)
  | business (text cause : String)
  | notFound (text : String)
  | permissionDenied (text : String)
  | unauthenticated (text : String)
  | cancelled
  | transport (text : String)
  | queue (fault : QueueFault)
  | internal (text : String)
  | unexpected (text : String)
  deriving DecidableEq, Repr

namespace Failure

inductive Kind where
  | validation
  | business
  | notFound
  | permissionDenied
  | unauthenticated
  | cancelled
  | transport
  | internal
  | unknown
  deriving DecidableEq, Repr

/-- A fault of the store is a fault of the service, not of the input: its kind is `internal`. -/
def kind : Failure → Kind
  | validation _ => .validation
  | business _ _ => .business
  | notFound _ => .notFound
  | permissionDenied _ => .permissionDenied
  | unauthenticated _ => .unauthenticated
  | cancelled => .cancelled
  | transport _ => .transport
  | queue _ => .internal
  | internal _ => .internal
  | unexpected _ => .unknown

def message : Failure → String
  | validation violations => "; ".intercalate (violations.map Violation.message)
  | business text _ => text
  | notFound text => text
  | permissionDenied text => text
  | unauthenticated text => text
  | cancelled => "request cancelled"
  | transport text => "transport error: " ++ text
  | queue fault => "queue error: " ++ fault.message
  | internal text => "internal error: " ++ text
  | unexpected text => "unexpected error: " ++ text

def reason : Failure → String
  | business _ cause => cause
  | failure => failure.message

/-- A recoverable failure is told to the client in the stream, which stays open. -/
def isRecoverable (f : Failure) : Bool :=
  match f.kind with
  | .validation => true
  | .business => true
  | _ => false

/-- The failure of a single field. -/
def ofField (field reason : String) : Failure :=
  validation [⟨field, reason⟩]

def ofRejection : Rejection → Failure
  | .emptyText => ofField "text" Rejection.emptyText.message
  | .invalidArgument field reason => ofField field reason
  | .noteNotFound => notFound Rejection.noteNotFound.message
  | .userNotFound => notFound Rejection.userNotFound.message
  | .permissionDenied => permissionDenied Rejection.permissionDenied.message

end Failure

end NoteRelay
