import NoteRelay.Identity
import NoteRelay.Timestamp

/-!
# Note events

What happened to a note, for its owner. Events are made once and never changed.
-/

namespace NoteRelay

inductive NoteChange where
  | created
  | deleted
  deriving DecidableEq, Repr

namespace NoteChange

def name : NoteChange → String
  | created => "Created"
  | deleted => "Deleted"

def toJson (c : NoteChange) : Json :=
  .string c.name

def ofJson? (j : Json) : Option NoteChange :=
  match j.bareChoice? with
  | some "Created" => some created
  | some "Deleted" => some deleted
  | _ => none

end NoteChange

structure NoteEvent where
  id : EventId
  change : NoteChange
  noteId : NoteId
  recipient : UserId
  time : Timestamp
  deriving DecidableEq, Repr

def Timestamp.toJson (t : Timestamp) : Json :=
  .string t.render

def Timestamp.ofJson? (j : Json) : Option Timestamp :=
  j.text?.bind Timestamp.ofText?

namespace NoteEvent

def toJson (e : NoteEvent) : Json :=
  .object [("id", e.id.toJson), ("event_type", e.change.toJson), ("note_id", e.noteId.toJson),
    ("recipient", e.recipient.toJson), ("event_time", e.time.toJson)]

def ofJson? (j : Json) : Option NoteEvent :=
  match j.slots? ["id", "event_type", "note_id", "recipient", "event_time"] with
  | some [id, change, noteId, recipient, time] => do
    let id ← fieldValue? EventId.ofJson? id
    let change ← fieldValue? NoteChange.ofJson? change
    let noteId ← fieldValue? NoteId.ofJson? noteId
    let recipient ← fieldValue? UserId.ofJson? recipient
    let time ← fieldValue? Timestamp.ofJson? time
    return ⟨id, change, noteId, recipient, time⟩
  | _ => none

end NoteEvent

end NoteRelay
