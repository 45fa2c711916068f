import NoteRelay.Chat.Session
import NoteRelay.Json.Parser
import NoteRelay.Waiting
import NoteRelay.Status
import NoteRelay.Relay

/-!
# Connections

A session of the relay with the socket of its client.

A chat connection has a reader, which turns messages into items for the session. Data messages carry
requests in JSON, and it makes no difference whether they carry them as text or as bytes. On a
connection for note events the messages are only watched for the client's leaving. `none` stands for
the end of the messages throughout.

The writer of a connection writes the frames of its session in their order. Behind the last one it
writes how the session ended: a failed session has its status in a frame of its own, and the code of
the closing message tells the two ends apart. The first write that fails is the last one.
-/

namespace NoteRelay.Socket

-- ---------------------------------------------------------------------------
-- What comes in
-- ---------------------------------------------------------------------------

inductive Incoming where
  | text (text : String)
  | binary (bytes : ByteArray)
  | ping
  | pong
  | close
  | failure (text : String)

/-- The request that a data message carries. `complaint` is what the JSON reader says of bytes that
carry none. -/
def itemOfBytes (complaint : ByteArray → String) (bytes : ByteArray) : Chat.Item :=
  match (Json.ofBytes? bytes).bind Chat.Request.ofJson? with
  | some r => .ok r
  | none => .error (.transport ("undecodable frame: " ++ complaint bytes))

inductive Reader where
  | reading
  /-- It has an item for the session, which waits for room. -/
  | forwarding (item : Chat.Item)
  | stopped

namespace Reader

def received (complaint : ByteArray → String) : Option Incoming → Reader
  | some (.text text) => forwarding (itemOfBytes complaint text.toUTF8)
  | some (.binary bytes) => forwarding (itemOfBytes complaint bytes)
  | some .ping => reading
  | some .pong => reading
  | some .close => stopped
  | some (.failure text) => forwarding (.error (.transport text))
  | none => stopped

/-- What the reader does when it got rid of an item: a failure is the last one. -/
def forwarded : Chat.Item → Reader
  | .ok _ => reading
  | .error _ => stopped

end Reader

def hasLeft : Option Incoming → Bool
  | some .close => true
  | some (.failure _) => true
  | none => true
  | _ => false

-- ---------------------------------------------------------------------------
-- What goes out
-- ---------------------------------------------------------------------------

inductive Outgoing (φ : Type) where
  | frame (frame : φ)
  | terminal (status : Status)
  | close (code : Nat)
  deriving DecidableEq, Repr

def normalClosure : Nat := 1000
def failureClosure : Nat := 1011

def terminalToJson (s : Status) : Json :=
  .object [("error", s.toJson)]

def ending {φ : Type} : Except Status Unit → List (Outgoing φ)
  | .ok () => [.close normalClosure]
  | .error status => [.terminal status, .close failureClosure]

inductive Writer (φ : Type) where
  | streaming
  /-- The frames are all written, and this is still to come. -/
  | finishing (rest : List (Outgoing φ))
  | broken

namespace Writer

variable {φ : Type}

/-- What is written next, and the writer and the channel when that is done. The outcome of the
session is there once the session is over. -/
def next? (w : Writer φ) (outbound : Channel φ) (outcome : Option (Except Status Unit)) :
    Option (Outgoing φ × Writer φ × Channel φ) :=
  match w with
  | streaming =>
    match outbound.next?, outcome with
    | some (some frame, outbound), _ => some (.frame frame, streaming, outbound)
    | some (none, outbound), some outcome =>
      match ending outcome with
      | [] => none
      | m :: rest => some (m, finishing rest, outbound)
    | _, _ => none
  | finishing (m :: rest) => some (m, finishing rest, outbound)
  | finishing [] => none
  | broken => none

end Writer

-- ---------------------------------------------------------------------------
-- Moves
-- ---------------------------------------------------------------------------

inductive Move where
  /-- The next message is read, or the end of them. -/
  | receive (message : Option Incoming)
  /-- The item that was read is handed to the session. -/
  | forward
  /-- The next message is written, or cannot be written. -/
  | write (isFailing : Bool)

-- ---------------------------------------------------------------------------
-- Chat
-- ---------------------------------------------------------------------------

structure ChatConnection where
  id : SessionId
  /-- What the JSON reader says of bytes that carry no request. -/
  complaint : ByteArray → String := fun _ => ""
  reader : Reader := .reading
  writer : Writer Chat.Response := .streaming
  written : List (Outgoing Chat.Response) := []

namespace ChatConnection

def withReader (c : ChatConnection) (s : Chat.Session) (reader : Reader) :
    ChatConnection × Chat.Session :=
  match reader with
  | .stopped => ({ c with reader }, { s with inbound := s.inbound.ended })
  | _ => ({ c with reader }, s)

def receive? (c : ChatConnection) (s : Chat.Session) (m : Option Incoming) :
    Option (ChatConnection × Chat.Session) :=
  match c.reader with
  | .reading => if s.isOver then none else some (c.withReader s (.received c.complaint m))
  | _ => none

def forward? (c : ChatConnection) (s : Chat.Session) : Option (ChatConnection × Chat.Session) :=
  match c.reader with
  | .forwarding item =>
    if s.isOver then none
    else
      match s.inbound.send? item with
      | none => none
      | some (.error _) => some (c.withReader s .stopped)
      | some (.ok inbound) => some (c.withReader { s with inbound } (.forwarded item))
  | _ => none

def write? (c : ChatConnection) (s : Chat.Session) (isFailing : Bool) :
    Option (ChatConnection × Chat.Session) :=
  (c.writer.next? s.outbound s.outcome?).map fun (m, writer, outbound) =>
    if isFailing then
      ({ c with writer := .broken }, { s with outbound := outbound.abandoned })
    else ({ c with writer, written := c.written ++ [m] }, { s with outbound })

def go? (c : ChatConnection) (s : Chat.Session) : Move → Option (ChatConnection × Chat.Session)
  | .receive m => c.receive? s m
  | .forward => c.forward? s
  | .write isFailing => c.write? s isFailing

def step (c : ChatConnection) (w : Relay) (m : Move) : Option (ChatConnection × Relay) :=
  ((w.chats.get? c.id).bind fun s => c.go? s m).map fun (c, s) =>
    (c, { w with chats := w.chats.insert c.id s })

end ChatConnection

-- ---------------------------------------------------------------------------
-- Note events
-- ---------------------------------------------------------------------------

structure NotesConnection where
  key : Nat
  isWatching : Bool := true
  writer : Writer Notify.Frame := .streaming
  written : List (Outgoing Notify.Frame) := []

namespace NotesConnection

/-- The client's leaving cancels the subscription. Nothing else of what it sends matters. -/
def receive? (c : NotesConnection) (s : Notify.Subscription) (m : Option Incoming) :
    Option (NotesConnection × Notify.Subscription) :=
  if !c.isWatching || s.isOver then none
  else if hasLeft m then some ({ c with isWatching := false }, { s with isCancelled := true })
  else some (c, s)

def write? (c : NotesConnection) (s : Notify.Subscription) (isFailing : Bool) :
    Option (NotesConnection × Notify.Subscription) :=
  (c.writer.next? s.outbound s.outcome?).map fun (m, writer, outbound) =>
    if isFailing then
      ({ c with writer := .broken }, { s with outbound := outbound.abandoned })
    else ({ c with writer, written := c.written ++ [m] }, { s with outbound })

def go? (c : NotesConnection) (s : Notify.Subscription) :
    Move → Option (NotesConnection × Notify.Subscription)
  | .receive m => c.receive? s m
  | .forward => none
  | .write isFailing => c.write? s isFailing

def step (c : NotesConnection) (w : Relay) (m : Move) : Option (NotesConnection × Relay) :=
  ((w.subscriptions.get? c.key).bind fun s => c.go? s m).map fun (c, s) =>
    (c, { w with subscriptions := w.subscriptions.insert c.key s })

end NotesConnection

end NoteRelay.Socket
