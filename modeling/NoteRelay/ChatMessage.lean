import NoteRelay.Identity
import NoteRelay.Failure
import NoteRelay.Text.Form

/-!
# Chat messages

A message is made through `ofParts`, which refuses blank text, and keeps its text as it came. The
stored form is read back as it is, without that check.
-/

namespace NoteRelay

/-- A correlation identity given from outside is any text but the empty one. -/
def CorrelationId.parse (text : String) : Except Rejection CorrelationId :=
  if text.isEmpty then .error (.invalidArgument "correlation_id" "cannot be empty")
  else .ok ⟨text⟩

structure ChatMessage where
  correlationId : CorrelationId
  text : String
  deriving DecidableEq, Repr

namespace ChatMessage

def ofParts (correlationId : CorrelationId) (text : String) : Except Rejection ChatMessage :=
  if Text.allBlank text then .error .emptyText else .ok ⟨correlationId, text⟩

/-- What an answer puts before the text it answers. -/
def processedMark : String :=
  "processed: "

/-- The answer to a message, under the same correlation identity. -/
def processed (m : ChatMessage) : ChatMessage :=
  { m with text := processedMark ++ m.text }

def headerToJson (c : CorrelationId) : Json :=
  .object [("correlation_id", c.toJson)]

def headerOfJson? (j : Json) : Option CorrelationId :=
  match j.slots? ["correlation_id"] with
  | some [correlationId] => fieldValue? CorrelationId.ofJson? correlationId
  | _ => none

def toJson (m : ChatMessage) : Json :=
  .object [("header", headerToJson m.correlationId), ("text", .string m.text)]

def ofJson? (j : Json) : Option ChatMessage :=
  match j.slots? ["header", "text"] with
  | some [header, text] => do
    let correlationId ← fieldValue? headerOfJson? header
    let text ← fieldValue? Json.text? text
    return ⟨correlationId, text⟩
  | _ => none

end ChatMessage

end NoteRelay
