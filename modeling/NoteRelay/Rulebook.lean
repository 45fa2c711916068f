import NoteRelay.Failure
import NoteRelay.Status

/-!
# What is told of failures

A rulebook says what a client is told of a failure: for each kind a transport code, a detail code and
how much of the text is disclosed, and for each field name the detail code of its violations. Nothing
else decides that.
-/

namespace NoteRelay

/-- What a client reads in place of a failure's own text. -/
inductive Disclosure where
  | real
  | fixed (text : String)
  | masked
  deriving DecidableEq, Repr

structure Rule where
  code : Code
  detail : DetailCode
  disclosure : Disclosure
  deriving DecidableEq, Repr

structure Rulebook where
  rule : Failure.Kind → Rule
  fieldCode : String → DetailCode

/-- What a client reads where nothing is disclosed. -/
def Disclosure.mask : String :=
  "internal error"

/-- The message and the reason that a client reads. -/
def Disclosure.texts (d : Disclosure) (failure : Failure) : String × String :=
  match d with
  | .real => (failure.message, failure.reason)
  | .fixed text => (text, text)
  | .masked => (mask, mask)

namespace Rulebook

def standardRule : Failure.Kind → Rule
  | .validation => ⟨.invalidArgument, .unknown, .real⟩
  | .business => ⟨.unknown, .business, .real⟩
  | .notFound => ⟨.notFound, .entityNotFound, .real⟩
  | .permissionDenied => ⟨.permissionDenied, .permissionDenied, .real⟩
  | .unauthenticated => ⟨.unauthenticated, .permissionDenied, .real⟩
  | .cancelled => ⟨.cancelled, .internal, .fixed "request cancelled"⟩
  | .transport => ⟨.unavailable, .internal, .fixed "stream unavailable"⟩
  | .internal => ⟨.internal, .internal, .masked⟩
  | .unknown => ⟨.unknown, .unknown, .masked⟩

def standardFieldCode : String → DetailCode
  | "text" => .invalidText
  | "correlation_id" => .invalidCorrelationId
  | _ => .unknown

def standard : Rulebook :=
  ⟨standardRule, standardFieldCode⟩

def withRule (b : Rulebook) (kind : Failure.Kind) (rule : Rule) : Rulebook :=
  { b with rule := fun k => if k = kind then rule else b.rule k }

def withFieldCode (b : Rulebook) (field : String) (code : DetailCode) : Rulebook :=
  { b with fieldCode := fun f => if f = field then code else b.fieldCode f }

/-- The details of a failure whose single reason may be disclosed as `reason`: one for each
violation, and one for a failure that has none. -/
def details (b : Rulebook) (detail : DetailCode) (reason : String) : Failure → List Detail
  | .validation violations => violations.map fun v => ⟨b.fieldCode v.field, v.reason⟩
  | _ => [⟨detail, reason⟩]

def statusOf (b : Rulebook) (failure : Failure) : Status :=
  let rule := b.rule failure.kind
  let (message, reason) := rule.disclosure.texts failure
  ⟨rule.code, message, b.details rule.detail reason failure⟩

end Rulebook

end NoteRelay
