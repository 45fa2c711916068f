import NoteRelay.Proofs.Chat.Input
import NoteRelay.Proofs.Socket.Writing
import NoteRelay.Proofs.Wire

/-!
# What a chat session reads from its socket

The messages of a client come in any number and order, and the reader, the session and the writer go
on in any order. `stream` is what the messages carry: the requests in their order, up to where the
messages end, the client closes, or a failure comes. The reader hands over this and nothing else
(`messages_handed`): it reads nothing behind the last message, and a failure that the intake gets to
is the last item, behind requests that have all been answered, and how the session ends.

`Fed` says how far the reader is in the messages. The other half is that a connection does nothing
to its session that a client could not do (`Reads.session`), so that what holds of sessions alone is
used as it is.
-/

namespace NoteRelay

namespace Socket

-- ---------------------------------------------------------------------------
-- What messages carry
-- ---------------------------------------------------------------------------

section
variable {complaint : ByteArray → String}

def Incoming.item? (complaint : ByteArray → String) : Incoming → Option Chat.Item
  | .text s => some (itemOfBytes complaint s.toUTF8)
  | .binary bytes => some (itemOfBytes complaint bytes)
  | .failure s => some (.error (.transport s))
  | .ping | .pong | .close => none

/-- Nothing is read behind a closing message, nor behind an item that is a failure. -/
def Incoming.isLast (complaint : ByteArray → String) (m : Incoming) : Bool :=
  m matches .close || m.item? complaint matches some (.error _)

/-- What messages carry, up to the last one that is read. -/
def stream (complaint : ByteArray → String) : List Incoming → List Chat.Item
  | [] => []
  | m :: rest =>
    (m.item? complaint).toList ++ if m.isLast complaint then [] else stream complaint rest

theorem exists_transport {bytes : ByteArray} {f : Failure}
    (h : itemOfBytes complaint bytes = .error f) : ∃ text, f = .transport text := by
  unfold itemOfBytes at h
  split at h <;> cases h
  exact ⟨_, rfl⟩

namespace Incoming

variable {m : Incoming}

theorem isLast_of_ok {r : Chat.Request} (h : m.item? complaint = some (.ok r)) :
    m.isLast complaint = false := by
  cases m <;> simp_all [isLast, item?]

theorem isLast_of_error {f : Failure} (h : m.item? complaint = some (.error f)) :
    m.isLast complaint = true := by
  simp [isLast, h]

theorem exists_transport {f : Failure} (h : m.item? complaint = some (.error f)) :
    ∃ text, f = .transport text := by
  cases m with
  | text | binary => exact Socket.exists_transport (Option.some.inj h)
  | failure s =>
    cases h
    exact ⟨s, rfl⟩
  | ping | pong | close => nomatch h

end Incoming

variable {before feed : List Incoming}

theorem stream_append (h : ∀ m ∈ before, m.isLast complaint = false) (rest : List Incoming) :
    stream complaint (before ++ rest) =
      before.filterMap (Incoming.item? complaint) ++ stream complaint rest := by
  induction before with
  | nil => rfl
  | cons m before ih =>
    rw [List.forall_mem_cons] at h
    have hhead : [m].filterMap (Incoming.item? complaint) = (m.item? complaint).toList := by
      cases hitem : m.item? complaint <;> simp [hitem]
    rw [← List.singleton_append, List.append_assoc, List.singleton_append, stream, h.1, ih h.2,
      List.filterMap_append, hhead, List.append_assoc]
    rfl

-- ---------------------------------------------------------------------------
-- How far the reader is
-- ---------------------------------------------------------------------------

/-- What the reader has read and handed over, and what it is doing. -/
inductive Fed (complaint : ByteArray → String) :
    List (Option Incoming) → List Chat.Item → Reader → Prop where
  | reading {before : List Incoming} :
      (∀ m ∈ before, m.isLast complaint = false) →
      Fed complaint (before.map some) (before.filterMap (Incoming.item? complaint)) .reading
  | forwarding {before : List Incoming} {m : Incoming} {item : Chat.Item} :
      (∀ m ∈ before, m.isLast complaint = false) → m.item? complaint = some item →
      Fed complaint (before.map some ++ [some m])
        (before.filterMap (Incoming.item? complaint)) (.forwarding item)
  /-- The messages have ended, or the last one of them is done with. -/
  | stopped {before : List Incoming} {last : Option Incoming} :
      (∀ m ∈ before, m.isLast complaint = false) →
      (∀ m, last = some m → m.isLast complaint = true) →
      Fed complaint (before.map some ++ [last])
        (before.filterMap (Incoming.item? complaint) ++
          (last.bind (Incoming.item? complaint)).toList) .stopped

section
variable {messages : List (Option Incoming)} {handed : List Chat.Item} {reader : Reader}

theorem Reader.received_some (complaint : ByteArray → String) (m : Incoming) :
    Reader.received complaint (some m) =
      match m.item? complaint with
      | some item => .forwarding item
      | none => if m.isLast complaint then .stopped else .reading := by
  cases m <;> rfl

theorem filterMap_append_single {before : List Incoming} {m : Incoming} :
    (before ++ [m]).filterMap (Incoming.item? complaint) =
      before.filterMap (Incoming.item? complaint) ++ (m.item? complaint).toList := by
  rw [List.filterMap_append]
  cases hitem : m.item? complaint <;> simp [hitem]

theorem forall_append_single {before : List Incoming} {m : Incoming}
    (h : ∀ i ∈ before, i.isLast complaint = false) (hm : m.isLast complaint = false) :
    ∀ i ∈ before ++ [m], i.isLast complaint = false := by
  simpa [or_imp, forall_and, hm] using h

theorem Fed.receive (h : Fed complaint messages handed .reading) (m : Option Incoming) :
    Fed complaint (messages ++ [m]) handed (.received complaint m) := by
  cases h with
  | @reading before hbefore =>
    cases m with
    | none =>
      have hstopped := @Fed.stopped complaint before none hbefore (by simp)
      rwa [Option.bind_none, Option.toList_none, List.append_nil] at hstopped
    | some m =>
      rw [Reader.received_some]
      cases hitem : m.item? complaint with
      | some item => exact .forwarding hbefore hitem
      | none =>
        cases hlast : m.isLast complaint with
        | true =>
          simpa [hitem] using @Fed.stopped complaint before (some m) hbefore (by simp [hlast])
        | false =>
          have hread := Fed.reading (forall_append_single hbefore hlast)
          simpa [filterMap_append_single, hitem] using hread

theorem Fed.forward {item : Chat.Item} (h : Fed complaint messages handed (.forwarding item)) :
    Fed complaint messages (handed ++ [item]) (.forwarded item) := by
  cases h with
  | @forwarding before m _ hbefore hitem =>
    cases item with
    | ok r =>
      have hread := Fed.reading (forall_append_single hbefore (Incoming.isLast_of_ok hitem))
      rw [filterMap_append_single, hitem, List.map_append] at hread
      exact hread
    | error f =>
      have hlast := Incoming.isLast_of_error hitem
      have hstopped := @Fed.stopped complaint before (some m) hbefore (by simp [hlast])
      rwa [Option.bind_some, hitem, Option.toList_some] at hstopped

theorem exists_rest {before feed : List Incoming} {next : List (Option Incoming)}
    (h : before.map some ++ next <+: feed.map some ++ [none]) :
    ∃ rest, feed = before ++ rest ∧ next <+: rest.map some ++ [none] := by
  induction before generalizing feed with
  | nil => exact ⟨feed, rfl, h⟩
  | cons m before ih =>
    cases feed with
    | nil => simp at h
    | cons m' feed =>
      simp only [List.map_cons, List.cons_append, List.cons_prefix_cons, Option.some.injEq] at h
      obtain ⟨rfl, h⟩ := h
      obtain ⟨rest, rfl, hnext⟩ := ih h
      exact ⟨rest, rfl, hnext⟩

/-- What the reader has handed over is from the stream, and so is what it still holds. It is all of
the stream when the reader has stopped. -/
theorem Fed.stream (h : Fed complaint messages handed reader)
    (hfeed : messages <+: feed.map some ++ [none]) :
    handed <+: Socket.stream complaint feed ∧
      (∀ item, reader = .forwarding item → handed ++ [item] <+: Socket.stream complaint feed) ∧
      (reader = .stopped → handed = Socket.stream complaint feed) := by
  cases h with
  | @reading before hbefore =>
    rw [← List.append_nil (before.map some)] at hfeed
    obtain ⟨rest, rfl, -⟩ := exists_rest hfeed
    rw [stream_append hbefore]
    exact ⟨List.prefix_append _ _, by simp, by simp⟩
  | @forwarding before m item hbefore hitem =>
    obtain ⟨rest, rfl, hnext⟩ := exists_rest hfeed
    cases rest with
    | nil => simp at hnext
    | cons m' rest =>
      obtain rfl : m = m' := by simpa using hnext
      rw [stream_append hbefore, Socket.stream, hitem]
      simp
  | @stopped before last hbefore hlast =>
    obtain ⟨rest, rfl, hnext⟩ := exists_rest hfeed
    rw [stream_append hbefore]
    cases rest with
    | nil =>
      obtain rfl : last = none := by simpa using hnext
      simp [Socket.stream]
    | cons m rest =>
      obtain rfl : last = some m := by simpa using hnext
      simp [Socket.stream, hlast m rfl]

theorem Fed.exists_transport (h : Fed complaint messages handed reader) {f : Failure}
    (hf : .error f ∈ handed) : ∃ text, f = .transport text := by
  obtain ⟨m, hm⟩ : ∃ m : Incoming, m.item? complaint = some (.error f) := by
    cases h with
    | reading | forwarding =>
      obtain ⟨m, -, hm⟩ := List.mem_filterMap.mp hf
      exact ⟨m, hm⟩
    | stopped =>
      obtain hf | hf := List.mem_append.mp hf
      · obtain ⟨m, -, hm⟩ := List.mem_filterMap.mp hf
        exact ⟨m, hm⟩
      · obtain ⟨m, -, hm⟩ := Option.bind_eq_some_iff.mp (Option.mem_toList.mp hf)
        exact ⟨m, hm⟩
  exact Incoming.exists_transport hm

end

end

-- ---------------------------------------------------------------------------
-- What passes through a connection
-- ---------------------------------------------------------------------------

namespace ChatConnection

/-- What is read from the socket, what is handed to the session, and what the session does. -/
inductive Passage where
  | read (message : Option Incoming)
  | handed (item : Chat.Item)
  | act (act : Chat.Act)

namespace Passage

def message? : Passage → Option (Option Incoming)
  | read m => some m
  | _ => none

def item? : Passage → Option Chat.Item
  | handed item => some item
  | _ => none

def act? : Passage → Option Chat.Act
  | act a => some a
  | _ => none

end Passage

def messages (passed : List Passage) : List (Option Incoming) :=
  passed.filterMap Passage.message?

def handed (passed : List Passage) : List Chat.Item :=
  passed.filterMap Passage.item?

def acts (passed : List Passage) : List Chat.Act :=
  passed.filterMap Passage.act?

@[simp] theorem handed_append (old new : List Passage) :
    handed (old ++ new) = handed old ++ handed new :=
  List.filterMap_append

/-- A session that has just started, with room for so many items and so many frames, and its
connection. -/
def opened (p : Chat.Policy) (id : SessionId) (complaint : ByteArray → String)
    (room capacity : Nat) (isCancelled : Bool) (begun : Nat) : ChatConnection × Chat.Session :=
  ({ id, complaint }, .started p { capacity := room } { capacity } isCancelled begun)

section
variable {p : Chat.Policy} {supply : IdSupply} {w w' : ChatConnection × Chat.Session}
  {c c' : ChatConnection} {s t : Chat.Session} {o : Occasion} {new : List Passage}

/-- A session as its connection leaves it, when nothing comes in: its client may have done something
that is neither to send nor to finish, or the session has gone on. -/
def GoesAside (p : Chat.Policy) (supply : IdSupply) (id : SessionId) (s : Chat.Session)
    (acts : List Chat.Act) (t : Chat.Session) : Prop :=
  ∃ os, (Chat.Session.machine p supply id).course s os = some (acts, t) ∧
    os.filterMap Chat.Occasion.arrival? = [] ∧ .outside .finish ∉ os

/-- What an occasion is to the reader and the session: the messages that are read, the items that
are handed over, and what the session does. -/
inductive Pass (p : Chat.Policy) (supply : IdSupply) (c : ChatConnection) (s : Chat.Session) :
    List (Option Incoming) → List Chat.Item → List Chat.Act → ChatConnection × Chat.Session →
    Prop where
  | read {m : Option Incoming} :
      c.reader = .reading → s.isOver = false →
      Pass p supply c s [m] [] [] (c.withReader s (.received c.complaint m))
  | handed {item : Chat.Item} {inbound : Channel Chat.Item} :
      c.reader = .forwarding item → s.isOver = false →
      s.inbound.send? item = some (.ok inbound) →
      Pass p supply c s [] [item] [] (c.withReader { s with inbound } (.forwarded item))
  /-- The session does not receive any more, though it is not over. -/
  | unheard {item : Chat.Item} :
      c.reader = .forwarding item → s.isOver = false → s.inbound.isAbandoned = true →
      Pass p supply c s [] [] [] (c.withReader s .stopped)
  | aside {acts : List Chat.Act} {c' : ChatConnection} {t : Chat.Session} :
      c'.id = c.id → c'.complaint = c.complaint → c'.reader = c.reader →
      GoesAside p supply c.id s acts t →
      Pass p supply c s [] [] acts (c', t)

@[simp] theorem reader_withReader (reader : Reader) :
    (c.withReader s reader).1.reader = reader := by
  cases reader <;> rfl

@[simp] theorem id_withReader (reader : Reader) : (c.withReader s reader).1.id = c.id := by
  cases reader <;> rfl

@[simp] theorem complaint_withReader (reader : Reader) :
    (c.withReader s reader).1.complaint = c.complaint := by
  cases reader <;> rfl

theorem finished_withReader {id : SessionId} {start : Chat.Session} {os : List Chat.Occasion}
    {acts : List Chat.Act}
    (h : (Chat.Session.machine p supply id).course start os = some (acts, s))
    (hos : .outside .finish ∉ os) (reader : Reader) :
    ∃ os', (Chat.Session.machine p supply id).course start os' =
        some (acts, (c.withReader s reader).2) ∧
      os'.filterMap Chat.Occasion.arrival? = os.filterMap Chat.Occasion.arrival? ∧
      (.outside .finish ∈ os' ↔ reader = .stopped) := by
  cases reader with
  | stopped =>
    refine ⟨os ++ [.outside .finish], ?_, by simp [Chat.Occasion.arrival?], by simp⟩
    exact Machine.course_append_single.mpr
      ⟨acts, s, [], h, Chat.Session.occur_outside.mpr ⟨rfl, rfl⟩, by simp⟩
  | reading | forwarding => exact ⟨os, h, rfl, by simpa using hos⟩

/-- What a connection has read, and what its session has had of it. -/
structure Reads (p : Chat.Policy) (supply : IdSupply) (start : ChatConnection × Chat.Session)
    (messages : List (Option Incoming)) (handed : List Chat.Item) (acts : List Chat.Act)
    (w : ChatConnection × Chat.Session) : Prop where
  id_eq : w.1.id = start.1.id
  complaint_eq : w.1.complaint = start.1.complaint
  fed : Fed start.1.complaint messages handed w.1.reader
  /-- A client that sends the same items and finishes where the reader stops. -/
  session : ∃ os, (Chat.Session.machine p supply start.1.id).course start.2 os = some (acts, w.2) ∧
    os.filterMap Chat.Occasion.arrival? = handed ∧
    (.outside .finish ∈ os ↔ w.1.reader = .stopped)

theorem Reads.pass {start : ChatConnection × Chat.Session}
    {messages messages' : List (Option Incoming)} {handed handed' : List Chat.Item}
    {acts acts' : List Chat.Act}
    (h : Reads p supply start messages handed acts (c, s))
    (hstart : start.2.inbound.isAbandoned = false)
    (hpass : Pass p supply c s messages' handed' acts' w') :
    Reads p supply start (messages ++ messages') (handed ++ handed') (acts ++ acts') w' := by
  obtain ⟨hid, hcomplaint, hfed, os, hcourse, rfl, hfinish⟩ := h
  cases hpass with
  | @read m hreader hover =>
    have hlive : .outside .finish ∉ os := by simp [hfinish, hreader]
    obtain ⟨os', hcourse', harrivals, hfinish'⟩ :=
      finished_withReader hcourse hlive (.received c.complaint m)
    refine ⟨by simpa using hid, by simpa using hcomplaint, ?_, os', by simpa using hcourse',
      by simpa using harrivals, by simpa using hfinish'⟩
    have hsame : c.complaint = start.1.complaint := hcomplaint
    simpa [hsame] using (hreader ▸ hfed : Fed _ _ _ .reading).receive m
  | @handed item inbound hreader hover hsend =>
    have hsent : (Chat.Session.machine p supply start.1.id).course start.2
        (os ++ [.outside (.send item)]) = some (acts ++ [], { s with inbound }) := by
      refine Machine.course_append_single.mpr ⟨acts, s, [], hcourse, ?_, rfl⟩
      exact Chat.Session.occur_outside.mpr ⟨by simp [Chat.Session.clientMove, hsend], rfl⟩
    have hlive : .outside .finish ∉ os ++ [.outside (.send item)] := by simp [hfinish, hreader]
    obtain ⟨os', hcourse', harrivals, hfinish'⟩ := finished_withReader hsent hlive (.forwarded item)
    have hitem : [Chat.Occasion.outside (.send item)].filterMap Chat.Occasion.arrival? = [item] :=
      rfl
    rw [List.filterMap_append, hitem] at harrivals
    refine ⟨by simpa using hid, by simpa using hcomplaint, ?_, os', hcourse', harrivals,
      by simpa using hfinish'⟩
    simpa using (hreader ▸ hfed : Fed _ _ _ (.forwarding item)).forward
  | unheard hreader hover hgone =>
    have hlive := (Chat.Session.inbound_of_course hcourse).2.1 hover
    simp [hstart, hgone] at hlive
  | aside hid' hcomplaint' hreader hgoes =>
    obtain ⟨others, hothers, hnone, hlive⟩ := hgoes
    refine ⟨hid'.trans hid, hcomplaint'.trans hcomplaint, by simpa [hreader] using hfed,
      os ++ others, ?_, by simp [hnone], ?_⟩
    · exact Machine.course_append.mpr ⟨acts, s, acts', hcourse, hid ▸ hothers, rfl⟩
    · simpa [hlive, hreader] using hfinish

theorem isSome_receive? {m : Option Incoming} :
    (c.receive? s m).isSome = true ↔ s.isOver = false ∧ c.reader = .reading := by
  unfold receive?
  cases hreader : c.reader with
  | reading => cases s.isOver <;> simp
  | forwarding | stopped => simp

def Passage.deed? (passage : Passage) : Option Chat.Deed :=
  passage.act?.bind Chat.Act.deed?

end

end ChatConnection

def oneRequest : Chat.Request :=
  ⟨⟨"", "one"⟩⟩

/-- What is said of any bytes that are no request. -/
def complaining : ByteArray → String :=
  fun _ => "expected value at line 1 column 1"

open ChatConnection in
def waiting : ChatConnection × Chat.Session :=
  let (c, s) := opened Relay.brisk.chat ⟨"desk"⟩ complaining 4 4 false 0
  (c, { s with inbound := { s.inbound with queued := [.ok oneRequest] } })

end Socket

end NoteRelay
