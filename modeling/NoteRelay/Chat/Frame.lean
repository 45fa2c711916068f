import NoteRelay.ChatMessage
import NoteRelay.Status

/-!
# Frames of a chat session

What a client sends (`Chat.Request`) and what it is sent (`Chat.Response`). On the wire every part
of a message may be left out and is then empty.
-/

namespace NoteRelay.Chat

/-- A message as it stands on the wire, not yet accepted. -/
structure Payload where
  correlationId : String
  text : String
  deriving DecidableEq, Repr

namespace Payload

def ofMessage (m : ChatMessage) : Payload :=
  ⟨m.correlationId.text, m.text⟩

def headerToJson (correlationId : String) : Json :=
  .object [("correlation_id", .string correlationId)]

def headerOfJson? (j : Json) : Option String :=
  match j.slots? ["correlation_id"] with
  | some [correlationId] => fieldOr? "" Json.text? correlationId
  | _ => none

def toJson (p : Payload) : Json :=
  .object [("header", headerToJson p.correlationId), ("text", .string p.text)]

def ofJson? (j : Json) : Option Payload :=
  match j.slots? ["header", "text"] with
  | some [header, text] => do
    let correlationId ← fieldOr? "" headerOfJson? header
    let text ← fieldOr? "" Json.text? text
    return ⟨correlationId, text⟩
  | _ => none

end Payload

structure Request where
  message : Payload
  deriving DecidableEq, Repr

namespace Request

def toJson (r : Request) : Json :=
  .object [("message", r.message.toJson)]

def ofJson? (j : Json) : Option Request :=
  match j.slots? ["message"] with
  | some [message] => (fieldValue? Payload.ofJson? message).map Request.mk
  | _ => none

end Request

inductive Response where
  | status (status : Status)
  | message (payload : Payload)
  deriving DecidableEq, Repr

namespace Response

def toJson : Response → Json
  | status s => .object [("status", s.toJson)]
  | message p => .object [("message", p.toJson)]

def ofJson? (j : Json) : Option Response :=
  match j.choice? with
  | some ("status", some content) => (Status.ofJson? content).map status
  | some ("message", some content) => (Payload.ofJson? content).map message
  | _ => none

end Response

end NoteRelay.Chat
