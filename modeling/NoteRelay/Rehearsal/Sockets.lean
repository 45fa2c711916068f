import NoteRelay.Rehearsal.Chats
import NoteRelay.Rehearsal.Subscriptions
import NoteRelay.Socket.Connection

/-!
# Rehearsing connections

A client that follows a script on a socket, and a session behind it. What the client sends arrives at
once, what the session sends is written as soon as it can be. When the server has read that the
client closes, nothing can be written any more; when the client has dropped the connection, nothing
arrives any more either.
-/

namespace NoteRelay.Rehearsal

open Socket

inductive ClientStep where
  | send (message : Incoming)
  | drop
  | shutDown

/-- How the client sees the connection end. -/
inductive SocketEnd where
  | closed (code : Nat)
  | dropped
  /-- The connection ended without a closing message. -/
  | broken

/-- A session behind a socket, as far as the rehearsal has to do with it. -/
structure Host (γ φ : Type) where
  now : γ → Nat
  passed : γ → Nat → γ
  work : γ → List (Happening γ)
  move? : γ → Socket.Move → Option γ
  shutDown : γ → γ
  written : γ → List (Outgoing φ)

structure SocketScene (γ φ : Type) where
  host : γ
  steps : List (Nat × ClientStep)
  /-- What has arrived and is not read yet. -/
  arrived : List Incoming := []
  hasClosed : Bool := false
  hasDropped : Bool := false
  isClosing : Bool := false
  seen : List (Nat × Outgoing φ) := []
  ending : Option (Nat × SocketEnd) := none

namespace SocketScene

variable {γ φ : Type}

def ended (c : SocketScene γ φ) (t : Nat) (how : SocketEnd) : SocketScene γ φ :=
  { c with ending := some (c.ending.getD (t, how)) }

/-- A client that has closed sends nothing any more. -/
def sent (c : SocketScene γ φ) (m : Incoming) : SocketScene γ φ :=
  if c.hasClosed || c.ending.isSome then c
  else
    let hasClosed := match m with
      | .close => true
      | _ => false
    { c with arrived := c.arrived ++ [m], hasClosed }

def nextStep? (h : Host γ φ) (c : SocketScene γ φ) : Option (Happening (SocketScene γ φ)) :=
  match c.steps with
  | [] => none
  | (stepAt, step) :: steps =>
    let due := max (h.now c.host) stepAt
    let c := { c with steps, host := h.passed c.host due }
    match step with
    | .send m => some ⟨due, ⟨0, .sender⟩, fun _ => c.sent m⟩
    | .drop => some ⟨due, ⟨0, .sender⟩, fun _ => { c.ended due .dropped with hasDropped := true }⟩
    | .shutDown => some ⟨due, ⟨0, .lifetime⟩, fun _ => { c with host := h.shutDown c.host }⟩

/-- The server reads what has arrived, and behind it the end if the connection is gone. -/
def nextReceipt? (h : Host γ φ) (c : SocketScene γ φ) : Option (Happening (SocketScene γ φ)) :=
  let now := h.now c.host
  let receipt? (m : Option Incoming) (arrived : List Incoming) (isClosing : Bool) :=
    (h.move? c.host (.receive m)).map fun host =>
      (⟨now, ⟨0, .worker 10⟩, fun _ => { c with host, arrived, isClosing }⟩ : Happening _)
  match c.arrived with
  | .close :: rest => receipt? (some .close) rest true
  | m :: rest => receipt? (some m) rest c.isClosing
  | [] => if c.hasDropped then receipt? none [] c.isClosing else none

def nextForwarding? (h : Host γ φ) (c : SocketScene γ φ) : Option (Happening (SocketScene γ φ)) :=
  let now := h.now c.host
  (h.move? c.host .forward).map fun host => ⟨now, ⟨0, .worker 10⟩, fun _ => { c with host }⟩

def wrote (c : SocketScene γ φ) (t : Nat) (m : Outgoing φ) : SocketScene γ φ :=
  match m with
  | .close code => c.ended t (.closed code)
  | m => { c with seen := (t, m) :: c.seen }

def nextWrite? (h : Host γ φ) (c : SocketScene γ φ) : Option (Happening (SocketScene γ φ)) :=
  let now := h.now c.host
  let isFailing := c.isClosing || c.hasDropped
  (h.move? c.host (.write isFailing)).map fun host =>
    ⟨now, ⟨0, .worker 11⟩, fun _ =>
      let c := { c with host }
      if isFailing then c.ended now .broken
      else
        match (h.written host).getLast? with
        | some m => c.wrote now m
        | none => c⟩

def agenda (h : Host γ φ) (c : SocketScene γ φ) : List (Happening (SocketScene γ φ)) :=
  (c.nextStep? h).toList ++ (c.nextReceipt? h).toList ++ (c.nextForwarding? h).toList ++
    ((h.work c.host).map fun x => x.map fun host => { c with host }) ++ (c.nextWrite? h).toList

def played (h : Host γ φ) (limit : Nat) (c : SocketScene γ φ) : SocketScene γ φ :=
  play (agenda h) (happeningsUntil limit) none c

end SocketScene

-- ---------------------------------------------------------------------------
-- Hosts
-- ---------------------------------------------------------------------------

structure ChatHost where
  scene : ChatScene
  connection : ChatConnection

/-- A relay at a moment that is not before its own. -/
def relayAt (w : Relay) (t : Nat) : Relay :=
  { w with now := max w.now t }

def shutDown (d : Direction) (w : Relay) : Relay :=
  (w.step d.setup .shutDown).getD w

def chatHost (d : Direction) : Host ChatHost Chat.Response where
  now c := c.scene.relay.now
  passed c t := { c with scene := { c.scene with relay := relayAt c.scene.relay t } }
  work c := (c.scene.parts.mapIdx fun i p => c.scene.workOfPart d i p).flatten.map fun h =>
    h.map fun scene => { c with scene }
  move? c m := (c.connection.step c.scene.relay m).map fun (connection, relay) =>
    { scene := { c.scene with relay }, connection }
  shutDown c := { c with scene := { c.scene with relay := shutDown d c.scene.relay } }
  written c := c.connection.written

structure NotesHost where
  scene : SubscriberScene
  connection : NotesConnection

def notesHost (d : Direction) : Host NotesHost Notify.Frame where
  now c := c.scene.relay.now
  passed c t := { c with scene := { c.scene with relay := relayAt c.scene.relay t } }
  work c := (c.scene.parts.mapIdx fun i p => c.scene.workOfPart d i p).flatten.map fun h =>
    h.map fun scene => { c with scene }
  move? c m := (c.connection.step c.scene.relay m).map fun (connection, relay) =>
    { scene := { c.scene with relay }, connection }
  shutDown c := { c with scene := { c.scene with relay := shutDown d c.scene.relay } }
  written c := c.connection.written

end NoteRelay.Rehearsal
