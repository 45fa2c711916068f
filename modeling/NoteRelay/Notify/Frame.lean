import NoteRelay.NoteEvent

/-!
# Frames of a subscription

A subscriber first reads how many events wait for it, then the events themselves.
-/

namespace NoteRelay.Notify

/-- The kind of an event on the wire. A reader takes every name it does not know as `unknown`. -/
inductive EventKind where
  | created
  | deleted
  | unknown
  deriving DecidableEq, Repr

namespace EventKind

def ofChange : NoteChange → EventKind
  | .created => created
  | .deleted => deleted

def wireName : EventKind → String
  | created => "CREATED"
  | deleted => "DELETED"
  | unknown => "UNKNOWN"

def ofWireName : String → EventKind
  | "CREATED" => created
  | "DELETED" => deleted
  | _ => unknown

def toJson (k : EventKind) : Json := .string k.wireName
def ofJson? (j : Json) : Option EventKind := j.bareChoice?.map ofWireName

theorem ofWireName_wireName (k : EventKind) : ofWireName k.wireName = k := by
  cases k <;> rfl

end EventKind

inductive Frame where
  | unread (events : Int32)
  | event (id : String) (kind : EventKind) (noteId : Int64) (time : Timestamp)
  deriving DecidableEq, Repr

namespace Frame

/-- The largest number of 32 bits with a sign. -/
def largestCount : Nat :=
  0x7fffffff

/-- The unread count, capped at the largest one that fits the frame. -/
def ofCount (count : Nat) : Frame :=
  unread (Int32.ofNat (min count largestCount))

def ofEvent (e : NoteEvent) : Frame :=
  event e.id.display (.ofChange e.change) e.noteId.value e.time

def noteToJson (noteId : Int64) : Json :=
  .object [("value", .ofInt64 noteId)]

def noteOfJson? (j : Json) : Option Int64 :=
  match j.slots? ["value"] with
  | some [value] => fieldValue? Json.int64? value
  | _ => none

def toJson : Frame → Json
  | unread events => .object [("unread", .object [("events", .ofInt32 events)])]
  | event id kind noteId time => .object [("event", .object [("id", .string id),
      ("type", kind.toJson), ("note_id", noteToJson noteId), ("event_time", time.toJson)])]

def ofJson? (j : Json) : Option Frame :=
  match j.choice? with
  | some ("unread", some content) =>
    match content.slots? ["events"] with
    | some [events] => (fieldValue? Json.int32? events).map unread
    | _ => none
  | some ("event", some content) =>
    match content.slots? ["id", "type", "note_id", "event_time"] with
    | some [id, kind, noteId, time] => do
      let id ← fieldValue? Json.text? id
      let kind ← fieldValue? EventKind.ofJson? kind
      let noteId ← fieldValue? noteOfJson? noteId
      let time ← fieldValue? Timestamp.ofJson? time
      return event id kind noteId time
    | _ => none
  | _ => none

end Frame

end NoteRelay.Notify
