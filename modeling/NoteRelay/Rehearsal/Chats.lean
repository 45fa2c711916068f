import NoteRelay.Rehearsal.Direction

/-!
# Rehearsing chat sessions

Chat sessions whose clients follow a script, over queues whose calls follow another. A session that
is not over at the time limit is given up.
-/

namespace NoteRelay.Rehearsal

structure CallRecord where
  call : QueueCall
  finishedAt : Nat
  isOk : Bool

/-- One session with its client: the rest of the script, and what has happened so far. -/
structure ChatPart where
  id : SessionId
  items : List (Nat × Chat.Item)
  closeAt : Option Nat
  cancelAt : Option Nat
  reader : FrameReader Chat.Response
  /-- The loops, in the order in which they began to wait. -/
  waiting : List Chat.Loop := [.intake, .delivery, .closing]
  pending : List (Chat.Loop × PendingCall) := []
  calls : List CallRecord := []
  ending : Option Ending := none

structure ChatScene where
  relay : Relay
  tally : CallTally
  parts : List ChatPart

namespace ChatPart

/-- The part when a loop has gone on. Calls that the session no longer waits for are dropped. -/
def wentOn (p : ChatPart) (loop : Chat.Loop) (s : Chat.Session) (t : Nat) : ChatPart :=
  let pending := match s.phase with
    | .running _ _ => p.pending.filter fun (l, _) => l ≠ loop
    | _ => []
  let ending := s.outcome?.map (.closed t)
  { p with pending, ending, waiting := p.waiting.filter (· ≠ loop) ++ [loop] }

def recorded (p : ChatPart) (call : QueueCall) (t : Nat) (interference : Option Interference) :
    ChatPart :=
  let isOk := match interference with
    | some (.failing _) => false
    | _ => true
  { p with calls := ⟨call, t, isOk⟩ :: p.calls }

end ChatPart

namespace ChatScene

def withPart (c : ChatScene) (i : Nat) (p : ChatPart) : ChatScene :=
  { c with parts := c.parts.set i p }

def happening (d : Direction) (c : ChatScene) (i due : Nat) (role : Role) (move : Relay.Move)
    (change : Relay → ChatPart) : Happening ChatScene :=
  ⟨due, ⟨i, role⟩, fun _ =>
    match d.relayAfter? c.relay due move with
    | some relay => { c.withPart i (change relay) with relay }
    | none => c⟩

def happening? (d : Direction) (c : ChatScene) (i due : Nat) (role : Role) (move : Relay.Move)
    (change : Relay → ChatPart) : Option (Happening ChatScene) :=
  if (d.relayAfter? c.relay due move).isSome then some (c.happening d i due role move change)
  else none

def roleOf : Chat.Loop → Role
  | .intake => .worker 0
  | .delivery => .worker 1
  | .closing => .worker 2

def afterGoing (p : ChatPart) (loop : Chat.Loop) (t : Nat) (relay : Relay) : ChatPart :=
  match relay.chats.get? p.id with
  | some s => p.wentOn loop s t
  | none => p

def nextOfLoop? (d : Direction) (c : ChatScene) (i : Nat) (p : ChatPart) (s : Chat.Session)
    (loop : Chat.Loop) : Option (Happening ChatScene) :=
  let now := c.relay.now
  match s.awaits p.id loop, p.pending.lookup loop with
  | some call, some pending =>
    let due := max now pending.finishAt
    let p := p.recorded call due pending.interference
    some (c.happening d i due (roleOf loop) (.chat p.id loop pending.interference)
      (afterGoing p loop due))
  | some call, none =>
    some ⟨now, ⟨i, roleOf loop⟩, fun _ =>
      let (pending, tally) := d.begin c.tally now call
      { c.withPart i { p with pending := (loop, pending) :: p.pending } with tally }⟩
  | none, _ =>
    match s.tickDue? loop with
    | some t =>
      let due := max now t
      some (c.happening d i due (roleOf loop) (.chat p.id loop none) (afterGoing p loop due))
    | none => c.happening? d i now (roleOf loop) (.chat p.id loop none) (afterGoing p loop now)

def nextOfInput? (d : Direction) (c : ChatScene) (i : Nat) (p : ChatPart) (s : Chat.Session) :
    Option (Happening ChatScene) :=
  let now := c.relay.now
  match p.items, p.closeAt with
  | (sendAt, item) :: rest, _ =>
    c.happening? d i (max now sendAt) .sender (.chatClient p.id (.send item)) fun _ =>
      { p with items := rest }
  | [], some closeAt =>
    if s.inbound.isEnded then none
    else some (c.happening d i (max now closeAt) .sender (.chatClient p.id .finish) fun _ => p)
  | [], none => none

/-- What the client does next with the frames it is sent, and when. -/
def nextOfReader? (d : Direction) (c : ChatScene) (i : Nat) (p : ChatPart) (s : Chat.Session) :
    Option (Happening ChatScene) :=
  let now := c.relay.now
  if p.reader.isLeaving s.outbound then
    some (c.happening d i now .reader (.chatClient p.id .leave) fun _ => p)
  else
    (p.reader.upcoming? s.outbound now).map fun (t, frame) =>
      c.happening d i t .reader (.chatClient p.id .read) fun _ =>
        { p with reader := p.reader.taken t frame }

def cancelling? (d : Direction) (c : ChatScene) (i : Nat) (p : ChatPart) (s : Chat.Session) :
    Option (Happening ChatScene) :=
  if s.isCancelled then none
  else
    p.cancelAt.map fun t =>
      c.happening d i (max c.relay.now t) .lifetime (.chatClient p.id .cancel) fun _ => p

def givingUp (d : Direction) (c : ChatScene) (i : Nat) (p : ChatPart) : Happening ChatScene :=
  let due := max c.relay.now d.limit
  ⟨due, ⟨i, .timekeeper⟩, fun _ => c.withPart i { p with ending := some (.givenUp due) }⟩

def workOfPart (d : Direction) (c : ChatScene) (i : Nat) (p : ChatPart) :
    List (Happening ChatScene) :=
  match c.relay.chats.get? p.id, p.ending with
  | some s, none => p.waiting.filterMap (c.nextOfLoop? d i p s)
  | _, _ => []

def agendaOfPart (d : Direction) (c : ChatScene) (i : Nat) (p : ChatPart) :
    List (Happening ChatScene) :=
  match c.relay.chats.get? p.id, p.ending with
  | none, _ => []
  | some s, some _ => (c.nextOfReader? d i p s).toList
  | some s, none =>
    (c.cancelling? d i p s).toList ++ (c.nextOfInput? d i p s).toList ++ c.workOfPart d i p ++
      (c.nextOfReader? d i p s).toList ++ [c.givingUp d i p]

def agenda (d : Direction) (c : ChatScene) : List (Happening ChatScene) :=
  (c.parts.mapIdx fun i p => c.agendaOfPart d i p).flatten

def played (d : Direction) (c : ChatScene) : ChatScene :=
  play (agenda d) (happeningsUntil d.limit) none c

end ChatScene

end NoteRelay.Rehearsal
