import NoteRelay.Rehearsal.Direction

/-!
# Rehearsing subscriptions

Subscriptions whose clients follow a script, over queues whose calls follow another, while events
come in. A subscription that is not over at the time limit is given up.
-/

namespace NoteRelay.Rehearsal

/-- One subscription with its client: the rest of the script, and what has happened so far. -/
structure SubscriberPart where
  key : Nat
  user : UserId
  startAt : Nat
  cancelAt : Option Nat
  capacity : Nat
  reader : FrameReader Notify.Frame
  pending : Option PendingCall := none
  ending : Option Ending := none

structure SubscriberScene where
  relay : Relay
  tally : CallTally
  pushes : List (Nat × NoteEvent)
  parts : List SubscriberPart

def SubscriberPart.wentOn (p : SubscriberPart) (s : Notify.Subscription) (t : Nat) :
    SubscriberPart :=
  { p with pending := none, ending := s.outcome?.map (.closed t) }

namespace SubscriberScene

def withPart (c : SubscriberScene) (i : Nat) (p : SubscriberPart) : SubscriberScene :=
  { c with parts := c.parts.set i p }

def happening (d : Direction) (c : SubscriberScene) (i due : Nat) (role : Role)
    (move : Relay.Move) (change : Relay → SubscriberPart) : Happening SubscriberScene :=
  ⟨due, ⟨i, role⟩, fun _ =>
    match d.relayAfter? c.relay due move with
    | some relay => { c.withPart i (change relay) with relay }
    | none => c⟩

def happening? (d : Direction) (c : SubscriberScene) (i due : Nat) (role : Role)
    (move : Relay.Move) (change : Relay → SubscriberPart) : Option (Happening SubscriberScene) :=
  if (d.relayAfter? c.relay due move).isSome then some (c.happening d i due role move change)
  else none

def afterGoing (p : SubscriberPart) (t : Nat) (relay : Relay) : SubscriberPart :=
  match relay.subscriptions.get? p.key with
  | some s => p.wentOn s t
  | none => p

def nextOfSubscription? (d : Direction) (c : SubscriberScene) (i : Nat) (p : SubscriberPart)
    (s : Notify.Subscription) : Option (Happening SubscriberScene) :=
  let now := c.relay.now
  match s.awaits, p.pending with
  | some _, some pending =>
    let due := max now pending.finishAt
    some (c.happening d i due (.worker 0) (.subscription p.key pending.interference)
      (afterGoing p due))
  | some call, none =>
    some ⟨now, ⟨i, .worker 0⟩, fun _ =>
      let (pending, tally) := d.begin c.tally now call
      { c.withPart i { p with pending := some pending } with tally }⟩
  | none, _ =>
    match s.tickDue? with
    | some t =>
      let due := max now t
      some (c.happening d i due (.worker 0) (.subscription p.key none) (afterGoing p due))
    | none => c.happening? d i now (.worker 0) (.subscription p.key none) (afterGoing p now)

/-- What the client does next with the frames it is sent, and when. -/
def nextOfReader? (d : Direction) (c : SubscriberScene) (i : Nat) (p : SubscriberPart)
    (s : Notify.Subscription) : Option (Happening SubscriberScene) :=
  let now := c.relay.now
  if p.reader.isLeaving s.outbound then
    some (c.happening d i now .reader (.subscriber p.key .leave) fun _ => p)
  else
    (p.reader.upcoming? s.outbound now).map fun (t, frame) =>
      c.happening d i t .reader (.subscriber p.key .read) fun _ =>
        { p with reader := p.reader.taken t frame }

def cancelling? (d : Direction) (c : SubscriberScene) (i : Nat) (p : SubscriberPart)
    (s : Notify.Subscription) : Option (Happening SubscriberScene) :=
  if s.isCancelled then none
  else
    p.cancelAt.map fun t =>
      c.happening d i (max c.relay.now t) .lifetime (.subscriber p.key .cancel) fun _ => p

def givingUp (d : Direction) (c : SubscriberScene) (i : Nat) (p : SubscriberPart) :
    Happening SubscriberScene :=
  let due := max c.relay.now d.limit
  ⟨due, ⟨i, .timekeeper⟩, fun _ => c.withPart i { p with ending := some (.givenUp due) }⟩

def workOfPart (d : Direction) (c : SubscriberScene) (i : Nat) (p : SubscriberPart) :
    List (Happening SubscriberScene) :=
  match c.relay.subscriptions.get? p.key, p.ending with
  | some s, none => (c.nextOfSubscription? d i p s).toList
  | _, _ => []

def agendaOfPart (d : Direction) (c : SubscriberScene) (i : Nat) (p : SubscriberPart) :
    List (Happening SubscriberScene) :=
  match c.relay.subscriptions.get? p.key, p.ending with
  | none, _ =>
    let start := Relay.Move.subscribe p.key p.user p.capacity
    (c.happening? d i (max c.relay.now p.startAt) .sender start fun _ => p).toList
  | some s, some _ => (c.nextOfReader? d i p s).toList
  | some s, none =>
    (c.cancelling? d i p s).toList ++ c.workOfPart d i p ++
      (c.nextOfReader? d i p s).toList ++ [c.givingUp d i p]

def nextPush? (d : Direction) (c : SubscriberScene) : Option (Happening SubscriberScene) :=
  match c.pushes with
  | [] => none
  | (t, e) :: rest =>
    let due := max c.relay.now t
    some ⟨due, ⟨c.parts.length, .sender⟩, fun _ =>
      let relay := (d.relayAfter? c.relay due (.push e)).getD c.relay
      { c with relay, pushes := rest }⟩

/-- Events come in as long as there is somebody to follow them. -/
def agenda (d : Direction) (c : SubscriberScene) : List (Happening SubscriberScene) :=
  match (c.parts.mapIdx fun i p => c.agendaOfPart d i p).flatten with
  | [] => []
  | happenings => (c.nextPush? d).toList ++ happenings

def played (d : Direction) (c : SubscriberScene) : SubscriberScene :=
  play (agenda d) (happeningsUntil d.limit) none c

end SubscriberScene

end NoteRelay.Rehearsal
