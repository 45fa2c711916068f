import NoteRelay.Chat.Frame
import NoteRelay.Notify.Frame
import NoteRelay.Proofs.Formats
import NoteRelay.Redis.Server

/-!
# Formats lose nothing

Every value that goes over the wire or into a store is read as it was written (`Json.Lossless`): what
a chat takes, sends and stores (`chat_formats_lossless`), and events with the frames that tell of them
(`event_formats_lossless`). Nothing is asked of the texts, numbers and instants in them. That is one
direction: a text that is read need not be the one that would be written.
-/

namespace NoteRelay

namespace Json

theorem areItems_iff {items : List Json} : IsPlain.areItems items ↔ ∀ j ∈ items, j.IsPlain := by
  induction items with
  | nil => simp [IsPlain.areItems]
  | cons j rest ih => simp [IsPlain.areItems, ih]

theorem mapM_map_of_read {α : Type} {write : α → Json} {read? : Json → Option α}
    (hread : ∀ a, read? (write a) = some a) (as : List α) :
    (as.map write).mapM read? = some as := by
  induction as with
  | nil => rfl
  | cons a as ih => simp [List.mapM_cons, hread, ih]

end Json

-- ---------------------------------------------------------------------------
-- Statuses
-- ---------------------------------------------------------------------------

theorem Code.ofJson?_toJson (c : Code) : ofJson? c.toJson = some c := by
  simp [ofJson?, toJson, Json.int32?_ofInt32, ofNumber?_number]

theorem DetailCode.ofJson?_toJson (c : DetailCode) : ofJson? c.toJson = some c := by
  simp [ofJson?, toJson, Json.bareChoice?, Json.choice?, ofWireName?_wireName]

namespace Detail

theorem ofJson?_toJson (d : Detail) : ofJson? d.toJson = some d := by
  have hslots : d.toJson.slots? ["code", "reason"] =
      some [some d.code.toJson, some (.string d.reason)] := rfl
  simp [ofJson?, hslots, fieldValue?, DetailCode.ofJson?_toJson, Json.text?]

theorem isPlain_toJson (d : Detail) : d.toJson.IsPlain := by
  simp [toJson, DetailCode.toJson, Json.IsPlain, Json.IsPlain.areMembers]

theorem lossless : Json.Lossless toJson ofJson? :=
  Json.lossless_of_isPlain isPlain_toJson ofJson?_toJson

end Detail

namespace Status

theorem ofJson?_toJson (s : Status) : ofJson? s.toJson = some s := by
  have hslots : s.toJson.slots? ["code", "message", "details"] =
      some [some s.code.toJson, some (.string s.message),
        some (.array (s.details.map Detail.toJson))] := rfl
  have hdetails : detailsOfJson? (.array (s.details.map Detail.toJson)) = some s.details :=
    Json.mapM_map_of_read Detail.ofJson?_toJson s.details
  simp [ofJson?, hslots, fieldValue?, Code.ofJson?_toJson, Json.text?, hdetails]

theorem isPlain_toJson (s : Status) : s.toJson.IsPlain := by
  have hdetails : Json.IsPlain.areItems (s.details.map Detail.toJson) :=
    Json.areItems_iff.mpr (by simp [Detail.isPlain_toJson])
  simp [toJson, Code.toJson, Json.IsPlain, Json.IsPlain.areMembers, Json.isPlain_ofInt32, hdetails]

theorem lossless : Json.Lossless toJson ofJson? :=
  Json.lossless_of_isPlain isPlain_toJson ofJson?_toJson

end Status

-- ---------------------------------------------------------------------------
-- Frames of a chat
-- ---------------------------------------------------------------------------

namespace Chat

namespace Payload

theorem headerOfJson?_headerToJson (correlationId : String) :
    headerOfJson? (headerToJson correlationId) = some correlationId := rfl

theorem isPlain_headerToJson (correlationId : String) : (headerToJson correlationId).IsPlain := by
  simp [headerToJson, Json.IsPlain, Json.IsPlain.areMembers]

theorem lossless_header : Json.Lossless headerToJson headerOfJson? :=
  Json.lossless_of_isPlain isPlain_headerToJson headerOfJson?_headerToJson

theorem ofJson?_toJson (p : Payload) : ofJson? p.toJson = some p := rfl

theorem isPlain_toJson (p : Payload) : p.toJson.IsPlain := by
  simp [toJson, isPlain_headerToJson, Json.IsPlain, Json.IsPlain.areMembers]

theorem lossless : Json.Lossless toJson ofJson? :=
  Json.lossless_of_isPlain isPlain_toJson ofJson?_toJson

end Payload

namespace Request

theorem ofJson?_toJson (r : Request) : ofJson? r.toJson = some r := rfl

theorem isPlain_toJson (r : Request) : r.toJson.IsPlain := by
  simp [toJson, Payload.isPlain_toJson, Json.IsPlain, Json.IsPlain.areMembers]

theorem lossless : Json.Lossless toJson ofJson? :=
  Json.lossless_of_isPlain isPlain_toJson ofJson?_toJson

end Request

namespace Response

theorem ofJson?_toJson (r : Response) : ofJson? r.toJson = some r := by
  cases r with
  | status s => simp [ofJson?, toJson, Json.choice?, Status.ofJson?_toJson]
  | message p => rfl

theorem isPlain_toJson (r : Response) : r.toJson.IsPlain := by
  cases r <;> simp [toJson, Status.isPlain_toJson, Payload.isPlain_toJson, Json.IsPlain,
    Json.IsPlain.areMembers]

theorem lossless : Json.Lossless toJson ofJson? :=
  Json.lossless_of_isPlain isPlain_toJson ofJson?_toJson

end Response

end Chat

-- ---------------------------------------------------------------------------
-- Principals
-- ---------------------------------------------------------------------------

namespace Principal

theorem ofJson?_toJson (p : Principal) : ofJson? p.toJson = some p := by
  have hslots : p.toJson.slots? ["user_id"] = some [some p.userId.toJson] := rfl
  simp [ofJson?, hslots, fieldValue?, UserId.ofJson?_toJson]

theorem isPlain_toJson (p : Principal) : p.toJson.IsPlain := by
  simp [toJson, UserId.toJson, Json.IsPlain, Json.IsPlain.areMembers, Json.isPlain_ofInt64]

theorem lossless : Json.Lossless toJson ofJson? :=
  Json.lossless_of_isPlain isPlain_toJson ofJson?_toJson

end Principal

/-- Requests and answers of a chat with all their parts, what is stored of it, and principals are
read as they were written. -/
theorem chat_formats_lossless :
    Json.Lossless Chat.Request.toJson Chat.Request.ofJson? ∧
    Json.Lossless Chat.Response.toJson Chat.Response.ofJson? ∧
    Json.Lossless Chat.Payload.toJson Chat.Payload.ofJson? ∧
    Json.Lossless Chat.Payload.headerToJson Chat.Payload.headerOfJson? ∧
    Json.Lossless Status.toJson Status.ofJson? ∧
    Json.Lossless Detail.toJson Detail.ofJson? ∧
    Json.Lossless ChatMessage.toJson ChatMessage.ofJson? ∧
    Json.Lossless Principal.toJson Principal.ofJson? :=
  ⟨Chat.Request.lossless, Chat.Response.lossless, Chat.Payload.lossless,
    Chat.Payload.lossless_header, Status.lossless, Detail.lossless, ChatMessage.lossless,
    Principal.lossless⟩

-- ---------------------------------------------------------------------------
-- Frames of a subscription
-- ---------------------------------------------------------------------------

namespace Notify

theorem EventKind.ofJson?_toJson (k : EventKind) : ofJson? k.toJson = some k := by
  simp [ofJson?, toJson, Json.bareChoice?, Json.choice?, ofWireName_wireName]

namespace Frame

theorem noteOfJson?_noteToJson (noteId : Int64) : noteOfJson? (noteToJson noteId) = some noteId := by
  have hslots : (noteToJson noteId).slots? ["value"] = some [some (.ofInt64 noteId)] := rfl
  simp [noteOfJson?, hslots, fieldValue?, Json.int64?_ofInt64]

theorem ofJson?_toJson (f : Frame) : ofJson? f.toJson = some f := by
  cases f with
  | unread events =>
    have hslots : (Json.object [("events", .ofInt32 events)]).slots? ["events"] =
        some [some (.ofInt32 events)] := rfl
    simp [ofJson?, toJson, Json.choice?, hslots, fieldValue?, Json.int32?_ofInt32]
  | event id kind noteId time =>
    have hslots : (Json.object [("id", .string id), ("type", kind.toJson),
        ("note_id", noteToJson noteId), ("event_time", time.toJson)]).slots?
          ["id", "type", "note_id", "event_time"] =
        some [some (.string id), some kind.toJson, some (noteToJson noteId), some time.toJson] := rfl
    simp [ofJson?, toJson, Json.choice?, hslots, fieldValue?, Json.text?,
      EventKind.ofJson?_toJson, noteOfJson?_noteToJson, Timestamp.ofJson?_toJson]

theorem isPlain_toJson (f : Frame) : f.toJson.IsPlain := by
  cases f <;> simp [toJson, EventKind.toJson, noteToJson, Timestamp.toJson, Json.IsPlain,
    Json.IsPlain.areMembers, Json.isPlain_ofInt32, Json.isPlain_ofInt64]

theorem lossless : Json.Lossless toJson ofJson? :=
  Json.lossless_of_isPlain isPlain_toJson ofJson?_toJson

/-- A frame tells of an event: its identity in the canonical form, what became of the note, the note
and the instant. -/
inductive Tells (e : NoteEvent) : Frame → Prop where
  | created {id : String} : e.change = .created → Uuid.IsCanonical id →
      Uuid.ofText? id = some e.id.uuid → Tells e (.event id .created e.noteId.value e.time)
  | deleted {id : String} : e.change = .deleted → Uuid.IsCanonical id →
      Uuid.ofText? id = some e.id.uuid → Tells e (.event id .deleted e.noteId.value e.time)

theorem tells_ofEvent (e : NoteEvent) : Tells e (.ofEvent e) := by
  have hcanonical := e.id.uuid.isCanonical_hyphenated
  have hread := e.id.uuid.ofText?_hyphenated
  obtain ⟨id, change, note, recipient, time⟩ := e
  cases change with
  | created => exact .created rfl hcanonical hread
  | deleted => exact .deleted rfl hcanonical hread

end Frame

end Notify

/-- Events and the frames of a subscription are read as they were written. Whatever an event is, and
so whatever text it was read from, the frame that it is made to reaches a reader and tells of it. -/
theorem event_formats_lossless :
    Json.Lossless NoteEvent.toJson NoteEvent.ofJson? ∧
    Json.Lossless Notify.Frame.toJson Notify.Frame.ofJson? ∧
    ∀ e : NoteEvent, ∃ frame,
      (Json.ofText? (Notify.Frame.ofEvent e).toJson.render).bind Notify.Frame.ofJson? =
        some frame ∧ Notify.Frame.Tells e frame := by
  refine ⟨NoteEvent.lossless, Notify.Frame.lossless, fun e => ?_⟩
  exact ⟨.ofEvent e, (Notify.Frame.lossless (.ofEvent e)).1, Notify.Frame.tells_ofEvent e⟩

/-- An event as another writer may have stored it: without the names of the fields, with the identity
in braces and in upper case, and by a clock ahead of UTC, in a leap second. -/
def foreignText : String :=
  "[\"\x7b00000000-0000-0000-0000-00000000000A\x7d\", \"Deleted\", -7, 1, " ++
    "\"2015-07-01 01:59:60.25+02:00\"]"

def foreignNote : NoteEvent where
  id := ⟨.ofNat 10⟩
  change := .deleted
  noteId := ⟨-7⟩
  recipient := ⟨1⟩
  time := ⟨⟨2015, 6, 30, by decide⟩, ⟨23, 59, 59, 1250000000, by decide⟩⟩

/-- The same note when it was created. -/
def createdNote : NoteEvent :=
  { foreignNote with change := .created }

def createdText : String :=
  "\x7b\"event\":\x7b\"id\":\"00000000-0000-0000-0000-00000000000a\",\"type\":\"CREATED\"," ++
    "\"note_id\":\x7b\"value\":-7\x7d,\"event_time\":\"2015-06-30T23:59:60.250Z\"\x7d\x7d"

theorem event_formats_lossless_foreign :
    (Redis.QueueKeys.storedEvent? foreignText = some foreignNote ∧
      ∃ id, Uuid.IsCanonical id ∧ Uuid.ofText? id = some (.ofNat 10) ∧
        (Json.ofText? (Notify.Frame.ofEvent foreignNote).toJson.render).bind Notify.Frame.ofJson? =
          some (.event id .deleted (-7) foreignNote.time)) ∧
    (Notify.Frame.ofEvent createdNote).toJson.render = createdText ∧
      ∃ id, Uuid.IsCanonical id ∧ Uuid.ofText? id = some (.ofNat 10) ∧
        (Json.ofText? createdText).bind Notify.Frame.ofJson? =
          some (.event id .created (-7) foreignNote.time) := by
  have hread : Redis.QueueKeys.storedEvent? foreignText = some foreignNote := by decide +kernel
  have hwritten : (Notify.Frame.ofEvent createdNote).toJson.render = createdText := by
    decide +kernel
  obtain ⟨-, -, hframe⟩ := event_formats_lossless
  refine ⟨⟨hread, ?_⟩, hwritten, ?_⟩
  · obtain ⟨frame, hdecoded, htells⟩ := hframe foreignNote
    cases htells with
    | created hchange => cases hchange
    | deleted _ hcanonical hid => exact ⟨_, hcanonical, hid, hdecoded⟩
  · obtain ⟨frame, hdecoded, htells⟩ := hframe createdNote
    rw [hwritten] at hdecoded
    cases htells with
    | created _ hcanonical hid => exact ⟨_, hcanonical, hid, hdecoded⟩
    | deleted hchange => cases hchange

end NoteRelay
