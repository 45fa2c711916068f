import NoteRelay.Chat.Frame
import NoteRelay.Violations

/-!
# Accepting a request

A request becomes a message in two steps. Its lengths are checked first, all of them, and every
field that breaks its rule is reported; only then the message is made, under a fresh correlation
identity where none is given, and blank text is refused.
-/

namespace NoteRelay.Chat

def correlationIdRule : BrokenRule :=
  ⟨"length", some "correlation id must be at most 64 characters"⟩

def textRule : BrokenRule :=
  ⟨"length", some "text must be between 3 and 1024 characters"⟩

namespace Payload

/-- Lengths are counted in characters. -/
def brokenHeader (p : Payload) : List (String × Violations) :=
  if p.correlationId.length ≤ 64 then []
  else [("header", .record [("correlation_id", .rules [correlationIdRule])])]

def brokenText (p : Payload) : List (String × Violations) :=
  if 3 ≤ p.text.length ∧ p.text.length ≤ 1024 then [] else [("text", .rules [textRule])]

def violations (p : Payload) : List (String × Violations) :=
  p.brokenHeader ++ p.brokenText

/-- The message that a payload stands for; `fresh` is the identity it gets when it names none. -/
def toMessage (p : Payload) (fresh : CorrelationId) : Except Rejection ChatMessage := do
  let correlationId ← if p.correlationId.isEmpty then .ok fresh
    else CorrelationId.parse p.correlationId
  ChatMessage.ofParts correlationId p.text

end Payload

namespace Request

def violations (r : Request) : List (String × Violations) :=
  match r.message.violations with
  | [] => []
  | fields => [("message", .record fields)]

def accept (r : Request) (fresh : CorrelationId) : Except Failure ChatMessage :=
  match r.violations with
  | [] => (r.message.toMessage fresh).mapError Failure.ofRejection
  | fields => .error (Violations.toFailure fields)

/-- Whether accepting takes a fresh identity from the supply. -/
def takesFreshId (r : Request) : Bool :=
  r.violations.isEmpty && r.message.correlationId.isEmpty

end Request

end NoteRelay.Chat
