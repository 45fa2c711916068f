import Mathlib.Data.List.Nodup
import NoteRelay.Proofs.Formats
import NoteRelay.Proofs.Store
import NoteRelay.Redis.Server

/-!
# The commands of a Redis server

What each command does to the hash and to the list under its key, and that it leaves every other
key alone. The keys of different sessions and users are different ones.
-/

namespace NoteRelay.Redis

-- ---------------------------------------------------------------------------
-- Hashes and lists under their keys
-- ---------------------------------------------------------------------------

namespace Server

variable (s : Server) (key other : String)

@[simp] theorem hash?_withHash (fields : Table String ByteArray) :
    (s.withHash key fields).hash? other = if other = key then some fields else s.hash? other := by
  unfold withHash
  split
  · next hempty =>
    have hnil : fields = .empty :=
      Table.eq_empty_of_values (by simpa [Table.values, Table.isEmpty] using hempty)
    by_cases h : other = key <;> simp [hash?, Table.get?_erase, h, hnil]
  · by_cases h : other = key <;> simp [hash?, Table.get?_insert, h]

@[simp] theorem list?_withList (items : List ByteArray) :
    (s.withList key items).list? other = if other = key then some items else s.list? other := by
  unfold withList
  split
  · next hempty =>
    have hnil : items = [] := by simpa using hempty
    by_cases h : other = key <;> simp [list?, Table.get?_erase, h, hnil]
  · by_cases h : other = key <;> simp [list?, Table.get?_insert, h]

variable {s key other}

theorem get?_withHash_of_ne (h : other ≠ key) (fields : Table String ByteArray) :
    (s.withHash key fields).keys.get? other = s.keys.get? other := by
  unfold withHash
  split <;> simp [Table.get?_erase, Table.get?_insert, h]

theorem get?_withList_of_ne (h : other ≠ key) (items : List ByteArray) :
    (s.withList key items).keys.get? other = s.keys.get? other := by
  unfold withList
  split <;> simp [Table.get?_erase, Table.get?_insert, h]

theorem hash?_congr {t : Server} (h : t.keys.get? key = s.keys.get? key) :
    t.hash? key = s.hash? key := by
  simp [hash?, h]

theorem list?_congr {t : Server} (h : t.keys.get? key = s.keys.get? key) :
    t.list? key = s.list? key := by
  simp [list?, h]

end Server

def Command.key? : Command → Option String
  | ping => none
  | hset key _ _ => some key
  | hvals key => some key
  | hdel key _ => some key
  | del key => some key
  | rpush key _ => some key
  | lpop key => some key
  | llen key => some key

theorem Server.get?_run_of_ne {s : Server} {c : Command} {other : String}
    (h : c.key? ≠ some other) : (s.run c).2.keys.get? other = s.keys.get? other := by
  cases c with
  | ping => rfl
  | hvals key | llen key =>
    simp only [run]
    split <;> rfl
  | hset key | hdel key =>
    have hne : other ≠ key := fun heq => h (heq ▸ rfl)
    simp only [run]
    split
    · rfl
    · exact get?_withHash_of_ne hne _
  | rpush key =>
    have hne : other ≠ key := fun heq => h (heq ▸ rfl)
    simp only [run]
    split
    · rfl
    · exact get?_withList_of_ne hne _
  | lpop key =>
    have hne : other ≠ key := fun heq => h (heq ▸ rfl)
    simp only [run]
    split
    · rfl
    · rfl
    · exact get?_withList_of_ne hne _
  | del key =>
    have hne : other ≠ key := fun heq => h (heq ▸ rfl)
    simp [run, Table.get?_erase, hne]

-- ---------------------------------------------------------------------------
-- Keys
-- ---------------------------------------------------------------------------

namespace QueueKeys

theorem outboxKey_injective (k : QueueKeys) {session other : SessionId}
    (h : k.outboxKey session = k.outboxKey other) : session = other := by
  have htext : session.text = other.text := by simpa [outboxKey] using h
  cases session
  cases other
  simpa using htext

theorem inboxKey_injective (k : QueueKeys) {user other : UserId}
    (h : k.inboxKey user = k.inboxKey other) : user = other := by
  refine UserId.display_injective ?_
  simpa [inboxKey, String.append_assoc] using h

/-- No key is that of an outbox and of an inbox. -/
def Apart (k : QueueKeys) : Prop :=
  ∀ session user, k.outboxKey session ≠ k.inboxKey user

/-- The usual keys differ in their first letter. -/
theorem apart_default : Apart {} := by
  intro session user h
  have hchars := congrArg String.toList h
  simp [outboxKey, inboxKey] at hchars

end QueueKeys

-- ---------------------------------------------------------------------------
-- Stored values
-- ---------------------------------------------------------------------------

theorem fromUTF8?_toUTF8 (text : String) : String.fromUTF8? text.toUTF8 = some text :=
  dif_pos text.isValidUTF8

theorem asText_toUTF8 (text : String) : (Reply.bulk text.toUTF8).asText = .ok text := by
  simp only [Reply.asText, fromUTF8?_toUTF8]

def messageBytes (m : ChatMessage) : ByteArray :=
  m.toJson.render.toUTF8

def messageOf? (bytes : ByteArray) : Option ChatMessage :=
  (String.fromUTF8? bytes).bind QueueKeys.storedMessage?

@[simp] theorem messageOf?_messageBytes (m : ChatMessage) :
    messageOf? (messageBytes m) = some m := by
  rw [messageOf?, messageBytes, fromUTF8?_toUTF8, Option.bind_some]
  exact (ChatMessage.lossless m).1

theorem asTexts_messages {stored : List ByteArray}
    (h : ∀ bytes ∈ stored, ∃ m, bytes = messageBytes m) :
    ∃ texts, (stored.map Reply.bulk).mapM Reply.asText = .ok texts ∧
      texts.filterMap QueueKeys.storedMessage? = stored.filterMap messageOf? := by
  induction stored with
  | nil => exact ⟨[], rfl, rfl⟩
  | cons bytes stored ih =>
    obtain ⟨texts, hread, htexts⟩ := ih fun b hb => h b (by simp [hb])
    obtain ⟨m, rfl⟩ := h bytes (by simp)
    have hm : QueueKeys.storedMessage? m.toJson.render = some m := (ChatMessage.lossless m).1
    refine ⟨m.toJson.render :: texts, ?_, ?_⟩
    · rw [List.map_cons, List.mapM_cons, messageBytes, asText_toUTF8, hread]
      rfl
    · rw [List.filterMap_cons_some hm, List.filterMap_cons_some (messageOf?_messageBytes m), htexts]

theorem errorText?_bulks (stored : List ByteArray) :
    (Reply.array (stored.map .bulk)).errorText? = none := by
  rw [Reply.errorText?]
  induction stored with
  | nil => rfl
  | cons bytes stored ih => simp [Reply.errorText?.errorIn?, Reply.errorText?, ih]

/-- A hash holds a box, with each message under the text of its correlation identity. -/
def Holds (fields : Table String ByteArray) (b : Outbox.Box) : Prop :=
  ∀ field, fields.get? field = (b.get? ⟨field⟩).map messageBytes

namespace Holds

variable {fields : Table String ByteArray} {b : Outbox.Box}

theorem empty : Holds .empty .empty := fun _ => rfl

theorem insert (h : Holds fields b) (m : ChatMessage) :
    Holds (fields.insert m.correlationId.text (messageBytes m)) (b.insert m.correlationId m) := by
  intro field
  have hsame : (⟨field⟩ : CorrelationId) = m.correlationId ↔ field = m.correlationId.text := by
    cases m.correlationId
    simp
  simp only [Table.get?_insert, hsame, h field]
  split <;> rfl

theorem erase (h : Holds fields b) (id : CorrelationId) :
    Holds (fields.erase id.text) (b.erase id) := by
  intro field
  have hsame : (⟨field⟩ : CorrelationId) = id ↔ field = id.text := by
    cases id
    simp
  simp only [Table.get?_erase, hsame, h field]
  split <;> rfl

theorem mem_entries_iff (h : Holds fields b) (field : String) (bytes : ByteArray) :
    (field, bytes) ∈ fields.entries ↔
      (field, bytes) ∈ b.entries.map fun e => (e.1.text, messageBytes e.2) := by
  simp only [Table.mem_entries_iff, h field, Option.map_eq_some_iff, List.mem_map, Prod.exists,
    Prod.mk.injEq]
  constructor
  · rintro ⟨m, hm, rfl⟩
    exact ⟨⟨field⟩, m, hm, rfl, rfl⟩
  · rintro ⟨⟨_⟩, m, hm, rfl, rfl⟩
    exact ⟨m, hm, rfl⟩

/-- The two have the same messages, in some order. -/
theorem values_perm (h : Holds fields b) :
    fields.values.Perm (b.values.map messageBytes) := by
  have hkeys : ((b.entries.map fun e => (e.1.text, messageBytes e.2)).map Prod.fst).Nodup := by
    have htext : Function.Injective CorrelationId.text := fun ⟨_⟩ ⟨_⟩ h => congrArg _ h
    have hmap := b.distinct.map htext
    rw [List.map_map] at hmap ⊢
    exact hmap
  have hentries : fields.entries.Perm (b.entries.map fun e => (e.1.text, messageBytes e.2)) := by
    refine (List.perm_ext_iff_of_nodup (List.Nodup.of_map _ fields.distinct)
      (List.Nodup.of_map _ hkeys)).mpr ?_
    rintro ⟨field, bytes⟩
    exact h.mem_entries_iff field bytes
  have hvalues := hentries.map Prod.snd
  simp only [List.map_map, Function.comp_def] at hvalues
  simp only [Table.values, List.map_map, Function.comp_def]
  exact hvalues

end Holds

-- ---------------------------------------------------------------------------
-- The exchanges of the calls
-- ---------------------------------------------------------------------------

/-- A reply that tells of no error is read. -/
theorem Exchange.run_eq {α : Type} {x : Exchange α} {s t : Server} {reply : Reply}
    (h : s.run x.command = (reply, t)) (hreply : reply.errorText? = none) :
    x.run s = (x.read reply, t) := by
  simp [run, h, conclude, Reply.sound, hreply, Except.bind]

theorem errorText?_found {α : Type} (found : Option α) :
    (Server.found found).errorText? = none := by
  cases found <;> rfl

namespace QueueKeys

variable {k : QueueKeys} {s : Server} {session : SessionId} {user : UserId} {m : ChatMessage}
  {fields : Table String ByteArray} {texts : List String}

theorem run_save (h : s.hash? (k.outboxKey session) = some fields) :
    (k.exchange (.save session m)).run s = (.ok .done, s.withHash (k.outboxKey session)
      (fields.insert m.correlationId.text (messageBytes m))) :=
  Exchange.run_eq (by simp only [exchange, Server.run, h]; rfl) rfl

theorem run_delete (h : s.hash? (k.outboxKey session) = some fields) :
    (k.exchange (.delete session m)).run s = (.ok .done, s.withHash (k.outboxKey session)
      (fields.erase m.correlationId.text)) := by
  have hrun : s.run (k.exchange (.delete session m)).command =
      (Server.found (fields.get? m.correlationId.text),
        s.withHash (k.outboxKey session) (fields.erase m.correlationId.text)) := by
    simp only [exchange, Server.run, h]
  rw [Exchange.run_eq hrun (errorText?_found _)]
  rfl

theorem run_clear :
    (k.exchange (.clear session)).run s = (.ok .done, ⟨s.keys.erase (k.outboxKey session)⟩) :=
  Exchange.run_eq rfl (errorText?_found _)

theorem run_fetchAll {b : Outbox.Box} (h : s.hash? (k.outboxKey session) = some fields)
    (hb : Holds fields b) :
    ∃ ms, (k.exchange (.fetchAll session)).run s = (.ok (.messages ms), s) ∧
      ms.Perm b.values := by
  have hstored : ∀ bytes ∈ fields.values, ∃ m, bytes = messageBytes m := by
    intro bytes hbytes
    obtain ⟨m, -, rfl⟩ := List.mem_map.mp (hb.values_perm.mem_iff.mp hbytes)
    exact ⟨m, rfl⟩
  obtain ⟨texts, hread, htexts⟩ := asTexts_messages hstored
  refine ⟨Outbox.inOrder (fields.values.filterMap messageOf?), ?_, ?_⟩
  · have hrun : s.run (k.exchange (.fetchAll session)).command =
        (.array (fields.values.map .bulk), s) := by
      simp only [exchange, Server.run, h]
    rw [Exchange.run_eq hrun (errorText?_bulks _)]
    simp only [exchange, readMessages, Reply.asTexts, hread, ← htexts]
    rfl
  · refine (List.mergeSort_perm _ _).trans ?_
    have hperm := hb.values_perm.filterMap messageOf?
    simpa [List.filterMap_map, Function.comp_def] using hperm

/-- What a pop of this text is answered. -/
def answerOf (text : String) : Except Fault QueueAnswer :=
  match storedEvent? text with
  | some e => .ok (.event (some e))
  | none => .error (.serialization "not an event")

/-- What a pop is answered where these texts wait. -/
def popAnswer : List String → Except Fault QueueAnswer
  | [] => .ok (.event none)
  | text :: _ => answerOf text

theorem answerOf_event (e : NoteEvent) : answerOf e.toJson.render = .ok (.event (some e)) := by
  have he : storedEvent? e.toJson.render = some e := (NoteEvent.lossless e).1
  simp [answerOf, he]

theorem answerOf_ne_none (text : String) : answerOf text ≠ .ok (.event none) := by
  unfold answerOf
  split <;> simp

/-- A text that is no event is a fault of its encoding. -/
theorem toQueueFault_of_answerOf {text : String} {fault : Fault}
    (h : answerOf text = .error fault) : ∃ words, fault.toQueueFault = .codec words := by
  unfold answerOf at h
  split at h <;> cases h
  exact ⟨_, rfl⟩

theorem readEvent_bulk (text : String) : readEvent (.bulk text.toUTF8) = answerOf text := by
  rw [readEvent, Reply.asText?, asText_toUTF8]
  · rfl
  · simp

/-- The exchange of a writer that appends a text to the list of a user. -/
def appending (k : QueueKeys) (user : UserId) (text : String) : Exchange QueueAnswer :=
  ⟨.rpush (k.inboxKey user) text, readDone⟩

theorem exchange_push (k : QueueKeys) (e : NoteEvent) :
    k.exchange (.push e) = k.appending e.recipient e.toJson.render :=
  rfl

theorem run_appending (h : s.list? (k.inboxKey user) = some (texts.map String.toUTF8))
    (text : String) :
    (k.appending user text).run s = (.ok .done,
      s.withList (k.inboxKey user) ((texts ++ [text]).map String.toUTF8)) := by
  have hrun : s.run (k.appending user text).command = (.integer (texts.length + 1),
      s.withList (k.inboxKey user) ((texts ++ [text]).map String.toUTF8)) := by
    simp only [appending, Server.run, h, List.length_map, List.map_append, List.map_cons,
      List.map_nil]
  rw [Exchange.run_eq hrun rfl]
  rfl

theorem run_pop (h : s.list? (k.inboxKey user) = some (texts.map String.toUTF8)) :
    ((k.exchange (.pop user)).run s).1 = popAnswer texts ∧
      ((k.exchange (.pop user)).run s).2.list? (k.inboxKey user) =
        some (texts.tail.map String.toUTF8) := by
  cases texts with
  | nil =>
    have hrun : s.run (k.exchange (.pop user)).command = (.nil, s) := by
      simp only [exchange, Server.run, h, List.map_nil]
    rw [Exchange.run_eq hrun rfl]
    exact ⟨rfl, h⟩
  | cons text rest =>
    have hrun : s.run (k.exchange (.pop user)).command =
        (.bulk text.toUTF8, s.withList (k.inboxKey user) (rest.map String.toUTF8)) := by
      simp only [exchange, Server.run, h, List.map_cons]
    rw [Exchange.run_eq hrun rfl]
    exact ⟨readEvent_bulk text, by simp⟩

theorem run_count (h : s.list? (k.inboxKey user) = some (texts.map String.toUTF8)) :
    (k.exchange (.count user)).run s = (.ok (.number (texts.length % UInt64.size)), s) := by
  have hrun : s.run (k.exchange (.count user)).command = (.integer texts.length, s) := by
    simp only [exchange, Server.run, h, List.length_map]
  rw [Exchange.run_eq hrun rfl]
  rfl

end QueueKeys

end NoteRelay.Redis
