import NoteRelay.Proofs.Chat.Outcome
import NoteRelay.Proofs.Notify.Course

/-!
# What clients are not told

A client of a chat session or of a subscription learns nothing of the texts with which a queue fails
or its own input breaks: `blank` takes them away, and courses that are the same but for them bring
the same frames and the same end (`undisclosed`).

All that is asked of the rulebook is that it hides these texts (`Rulebook.Hides`), as the standard
one does. A failure is told of as a status, and a status depends on a failure through the rulebook
alone.
-/

namespace NoteRelay

-- ---------------------------------------------------------------------------
-- Failures without their texts
-- ---------------------------------------------------------------------------

/-- A fault of which it is not said what it was. -/
def QueueFault.blank (_ : QueueFault) : QueueFault :=
  .unavailable ""

@[simp] theorem QueueFault.blank_blank (fault : QueueFault) : fault.blank.blank = fault.blank := rfl

def Failure.blank : Failure → Failure
  | transport _ => transport ""
  | queue fault => queue fault.blank
  | internal _ => internal ""
  | unexpected _ => unexpected ""
  | f => f

@[simp] theorem Failure.blank_blank (f : Failure) : f.blank.blank = f.blank := by
  cases f <;> rfl

@[simp] theorem mapError_blank_blank {α : Type} (r : Except Failure α) :
    (r.mapError Failure.blank).mapError Failure.blank = r.mapError Failure.blank := by
  cases r <;> simp [Except.mapError]

def blankAnswer (a : Except QueueFault QueueAnswer) : Except QueueFault QueueAnswer :=
  a.mapError QueueFault.blank

@[simp] theorem blankAnswer_blankAnswer (a : Except QueueFault QueueAnswer) :
    blankAnswer (blankAnswer a) = blankAnswer a := by
  cases a <;> rfl

/-- What a client is told of a failure does not depend on the texts that are not its business. -/
def Rulebook.Hides (b : Rulebook) : Prop :=
  ∀ f, b.statusOf f.blank = b.statusOf f

theorem Rulebook.hides_standard : standard.Hides := by
  intro f
  cases f <;> rfl

theorem Rulebook.Hides.mapError {b : Rulebook} (h : b.Hides) (result : Except Failure Unit) :
    (result.mapError Failure.blank).mapError b.statusOf = result.mapError b.statusOf := by
  cases result with
  | ok _ => rfl
  | error f => exact congrArg Except.error (h f)

-- ---------------------------------------------------------------------------
-- Channels of other items
-- ---------------------------------------------------------------------------

namespace Channel

variable {α β : Type} (f : α → β)

def map (c : Channel α) : Channel β :=
  ⟨c.capacity, c.queued.map f, c.isEnded, c.isAbandoned⟩

theorem send?_map (c : Channel α) (a : α) :
    (c.map f).send? (f a) = (c.send? a).map fun r => r.map (·.map f) := by
  unfold send?
  by_cases ha : c.isAbandoned
  · simp [map, ha, Except.map]
  · by_cases hroom : c.queued.length < c.capacity <;> simp [map, ha, hroom, Except.map]

theorem next?_map (c : Channel α) :
    (c.map f).next? = c.next?.map fun r => (r.1.map f, r.2.map f) := by
  obtain ⟨capacity, queued, isEnded, isAbandoned⟩ := c
  cases queued with
  | nil => cases isEnded <;> rfl
  | cons a rest => rfl

theorem takenSince_map (c before : Channel α) :
    (c.map f).takenSince (before.map f) = (c.takenSince before).map f := by
  simp [takenSince, map, List.map_take]

end Channel

namespace Chat

-- ---------------------------------------------------------------------------
-- A chat session without the texts
-- ---------------------------------------------------------------------------

def Item.blank (item : Item) : Item :=
  item.mapError Failure.blank

@[simp] theorem Item.blank_blank (item : Item) :
    Item.blank (Item.blank item) = Item.blank item := by
  cases item <;> simp [Item.blank, Except.mapError]

def Deed.blank : Deed → Deed
  | .called call answer => .called call (blankAnswer answer)
  | .sent loop about frame => .sent loop about frame

def Act.blank : Act → Act
  | .took item => .took (Item.blank item)
  | .did deed => .did deed.blank

def Session.Move.blank : Session.Move → Session.Move
  | .send item => .send (Item.blank item)
  | move => move

def Occasion.blank : Occasion → Occasion
  | .outside move => .outside move.blank
  | .turn loop minted now answer => .turn loop minted now (answer.map blankAnswer)

def Phase.blank : Phase → Phase
  | .closing result => .closing (result.mapError Failure.blank)
  | phase => phase

def Session.blank (s : Session) : Session :=
  ⟨s.inbound.map Item.blank, s.outbound, s.isCancelled, s.phase.blank⟩

@[simp] theorem Channel.map_blank_map_blank (c : Channel Item) :
    (c.map Item.blank).map Item.blank = c.map Item.blank := by
  simp [Channel.map, Function.comp_def]

@[simp] theorem Phase.blank_blank (phase : Phase) : phase.blank.blank = phase.blank := by
  cases phase <;> simp [blank]

@[simp] theorem Session.blank_blank (s : Session) : s.blank.blank = s.blank := by
  simp [blank]

theorem Intake.received_blank (b : Rulebook) (fresh : CorrelationId) (item : Option Item) :
    Intake.received b fresh (item.map Item.blank) =
      (Intake.received b fresh item).mapError Failure.blank := by
  cases item with
  | none => rfl
  | some item =>
    cases item with
    | error f => rfl
    | ok r =>
      cases ha : r.accept fresh with
      | ok m => simp [received, Item.blank, ha, Except.mapError]
      | error f =>
        simp [received, Item.blank, ha, Except.mapError, Request.isRecoverable_of_accept ha]

namespace Session

variable {p : Policy} {supply : IdSupply} {id : SessionId}

theorem clientMove_blank (s : Session) (move : Move) :
    s.blank.clientMove move.blank = (s.clientMove move).map blank := by
  cases move with
  | send item =>
    simp only [clientMove, Move.blank, blank, Channel.send?_map]
    cases s.inbound.send? item with
    | none => rfl
    | some r => cases r <;> rfl
  | read =>
    simp only [clientMove, Move.blank, blank]
    cases s.outbound.next? with
    | none => rfl
    | some r => obtain ⟨_ | _, _⟩ := r <;> rfl
  | finish | leave | cancel => rfl

theorem awaits_blank (s : Session) (loop : Loop) : s.blank.awaits id loop = s.awaits id loop := by
  obtain ⟨inbound, outbound, isCancelled, phase⟩ := s
  cases loop <;> cases phase <;> rfl

theorem atHand_blank (s : Session) (loop : Loop) : s.blank.atHand loop = s.atHand loop := by
  obtain ⟨inbound, outbound, isCancelled, phase⟩ := s
  cases loop <;> cases phase <;> rfl

@[simp] theorem outcome?_blank (s : Session) : s.blank.outcome? = s.outcome? := by
  obtain ⟨inbound, outbound, isCancelled, phase⟩ := s
  cases phase <;> rfl

@[simp] theorem outbound_blank (s : Session) : s.blank.outbound = s.outbound := rfl

theorem acts_blank (s t : Session) (loop : Loop)
    (answer : Option (Except QueueFault QueueAnswer)) :
    s.blank.acts id loop (answer.map blankAnswer) t.blank =
      (s.acts id loop answer t).map Act.blank := by
  have hover : t.blank.isOver = t.isOver := by simp [isOver]
  have htook : t.blank.inbound.takenSince s.blank.inbound =
      (t.inbound.takenSince s.inbound).map Item.blank := Channel.takenSince_map _ _ _
  have hdid : s.blank.deedsWith id loop (answer.map blankAnswer) t.blank =
      (s.deedsWith id loop answer t).map Deed.blank := by
    simp only [deedsWith, awaits_blank, atHand_blank, List.map_append, List.map_map]
    congr 1
    cases s.awaits id loop <;> cases answer <;> rfl
  simp only [acts, hover, htook, hdid, List.map_append, List.map_map]
  cases t.isOver <;> simp [Function.comp_def, Act.blank]

theorem goIntake_blank (s : Session) (b : Rulebook) (supply : IdSupply) (minted : Nat)
    (answer : Option (Except QueueFault QueueAnswer)) (i : Intake) :
    (s.blank.goIntake b supply minted (answer.map blankAnswer) i).map
        (fun r => (r.1.mapError Failure.blank, r.2.blank)) =
      (s.goIntake b supply minted answer i).map
        fun r => (r.1.mapError Failure.blank, r.2.blank) := by
  obtain ⟨inbound, outbound, isCancelled, phase⟩ := s
  cases isCancelled with
  | true => cases i <;> simp [goIntake, blank]
  | false =>
    cases i with
    | reading =>
      simp only [goIntake, blank, guarded_live, Channel.next?_map, Option.map_map]
      cases inbound.next? with
      | none => rfl
      | some r => simp [Intake.received_blank]
    | saving m =>
      simp only [goIntake, blank, guarded_live, Option.map_map]
      cases answer with
      | none => rfl
      | some a =>
        cases a with
        | error fault =>
          simp [blankAnswer, Except.mapError, Except.bind, Intake.saved, Failure.blank]
        | ok a => simp [blankAnswer, Except.mapError, Except.bind, Intake.saved]
    | refusing status =>
      simp only [goIntake, blank]
      cases emit false outbound (.status status) with
      | none => rfl
      | some r => cases r <;> simp
    | ended => rfl

theorem goDelivery_blank (s : Session) (now : Nat)
    (answer : Option (Except QueueFault QueueAnswer)) (d : Delivery) :
    (s.blank.goDelivery p now (answer.map blankAnswer) d).map
        (fun r => (r.1.mapError Failure.blank, r.2.blank)) =
      (s.goDelivery p now answer d).map fun r => (r.1.mapError Failure.blank, r.2.blank) := by
  obtain ⟨inbound, outbound, isCancelled, phase⟩ := s
  obtain ⟨stage, ticker, deadline⟩ := d
  cases isCancelled with
  | true => cases stage <;> simp [goDelivery, goTick, blank]
  | false =>
    cases stage with
    | fetching =>
      simp only [goDelivery, blank, guarded_live, Option.map_map]
      cases answer with
      | none => rfl
      | some a =>
        cases a with
        | error fault =>
          simp [blankAnswer, Except.mapError, Except.bind, Delivery.fetched, Failure.blank]
        | ok a => simp [blankAnswer, Except.mapError, Except.bind]
    | settling m others =>
      simp only [goDelivery, blank, guarded_live, Option.map_map]
      cases answer with
      | none => rfl
      | some a => cases a <;> simp [blankAnswer, Except.mapError, Except.map]
    | resting | pacing m others =>
      simp only [goDelivery, goTick, blank, guarded_live, Option.map_map]
      cases ticker.take? now with
      | none => rfl
      | some r => simp
    | sending m others =>
      simp only [goDelivery, blank]
      cases emit false outbound (p.render m) with
      | none => rfl
      | some r => cases r <;> simp
    | finished => rfl

theorem blank_ofIntake (s : Session) (d : Delivery) (r : Except Failure Intake) :
    blank { s with phase := .ofIntake d r } =
      { s.blank with phase := .ofIntake d (r.mapError Failure.blank) } := by
  cases r <;> rfl

theorem blank_ofDelivery (s : Session) (i : Intake) (r : Except Failure Delivery) :
    blank { s with phase := .ofDelivery i r } =
      { s.blank with phase := .ofDelivery i (r.mapError Failure.blank) } := by
  cases r with
  | error f => rfl
  | ok d =>
    simp only [blank, Phase.ofDelivery, Except.mapError]
    split <;> rfl

theorem go_blank (hb : p.rulebook.Hides) (s : Session) (supply : IdSupply) (minted now : Nat)
    (answer : Option (Except QueueFault QueueAnswer)) (loop : Loop) :
    (s.blank.go p supply minted now (answer.map blankAnswer) loop).map blank =
      (s.go p supply minted now answer loop).map blank := by
  cases hs : s.phase with
  | running i d =>
    have hs' : s.blank.phase = .running i d := by simp [blank, hs, Phase.blank]
    cases loop with
    | intake =>
      have h := s.goIntake_blank p.rulebook supply minted answer i
      simp only [go, hs, hs', Option.map_map, Function.comp_def, blank_ofIntake]
      simpa only [Option.map_map, Function.comp_def]
        using congrArg (Option.map fun r => { r.2 with phase := .ofIntake d r.1 }) h
    | delivery =>
      have h := s.goDelivery_blank (p := p) now answer d
      simp only [go, hs, hs', Option.map_map, Function.comp_def, blank_ofDelivery]
      simpa only [Option.map_map, Function.comp_def]
        using congrArg (Option.map fun r => { r.2 with phase := .ofDelivery i r.1 }) h
    | closing => simp [go, hs, hs']
  | closing result =>
    have hs' : s.blank.phase = .closing (result.mapError Failure.blank) := by
      simp [blank, hs, Phase.blank]
    cases loop with
    | intake | delivery => simp [go, hs, hs']
    | closing =>
      cases answer with
      | none => simp [go, hs, hs']
      | some a =>
        simp [go, hs, blank, Phase.blank, finished, hb.mapError, Channel.map, Channel.abandoned]
  | closed outcome =>
    have hs' : s.blank.phase = .closed outcome := by simp [blank, hs, Phase.blank]
    cases loop <;> simp [go, hs, hs']

/-- Occasions that are the same but for the texts bring the same, but for the texts. -/
theorem occur_blank (hb : p.rulebook.Hides) (s : Session) (o : Occasion) :
    ((machine p supply id).occur s.blank o.blank).map (fun r => (r.1.map Act.blank, r.2.blank)) =
      ((machine p supply id).occur s o).map fun r => (r.1.map Act.blank, r.2.blank) := by
  cases o with
  | outside move =>
    simp only [machine, Occasion.blank, clientMove_blank, Option.map_map]
    simp [Function.comp_def]
  | turn loop minted now answer =>
    have hgo := congrArg
      (Option.map fun t => (s.blank.acts id loop (answer.map blankAnswer) t, t))
      (go_blank hb s supply minted now answer loop)
    simp only [machine, Occasion.blank, Option.map_map, Function.comp_def, ← acts_blank] at hgo ⊢
    simpa [Function.comp_def] using hgo

theorem occur_alike (hb : p.rulebook.Hides) {s s' : Session} {o o' : Occasion}
    (hs : s.blank = s'.blank) (ho : o.blank = o'.blank) :
    ((machine p supply id).occur s o).map (fun r => (r.1.map Act.blank, r.2.blank)) =
      ((machine p supply id).occur s' o').map fun r => (r.1.map Act.blank, r.2.blank) := by
  rw [← occur_blank hb s o, hs, ho, occur_blank hb]

end Session

def Act.frame? : Act → Option Response
  | .did (.sent _ _ frame) => some frame
  | _ => none

def Act.call? : Act → Option QueueCall
  | .did (.called call _) => some call
  | _ => none

theorem Act.frame?_blank (act : Act) : act.blank.frame? = act.frame? := by
  obtain _ | deed := act
  · rfl
  · cases deed <;> rfl

theorem Act.call?_blank (act : Act) : act.blank.call? = act.call? := by
  obtain _ | deed := act
  · rfl
  · cases deed <;> rfl

/-- What others see of a course: the frames, the calls, the outbound channel as it is left, and the
end. -/
def seen (acts : List Act) (s : Session) :
    List Response × List QueueCall × Channel Response × Option (Except Status Unit) :=
  (acts.filterMap Act.frame?, acts.filterMap Act.call?, s.outbound, s.outcome?)

theorem seen_blank (acts : List Act) (s : Session) :
    seen (acts.map Act.blank) s.blank = seen acts s := by
  have hframe : Act.frame? ∘ Act.blank = Act.frame? := funext Act.frame?_blank
  have hcall : Act.call? ∘ Act.blank = Act.call? := funext Act.call?_blank
  simp only [seen, List.filterMap_map, hframe, hcall, Session.outbound_blank,
    Session.outcome?_blank]

theorem Session.course_alike {p : Policy} {supply : IdSupply} {id : SessionId} {s s' : Session}
    {os os' : List Occasion} (hb : p.rulebook.Hides) (hs : s.blank = s'.blank)
    (hos : os.map Occasion.blank = os'.map Occasion.blank) :
    ((machine p supply id).course s os).map (fun r => seen r.1 r.2) =
      ((machine p supply id).course s' os').map fun r => seen r.1 r.2 := by
  have halike := Machine.course_alike (M := machine p supply id) (N := machine p supply id)
    blank Occasion.blank Act.blank (fun _ _ _ _ => occur_alike hb) hs hos
  simpa [Option.map_map, Function.comp_def, seen_blank]
    using congrArg (Option.map fun r => seen r.1 r.2) halike

end Chat

namespace Notify

-- ---------------------------------------------------------------------------
-- A subscription without the texts
-- ---------------------------------------------------------------------------

def Deed.blank : Deed → Deed
  | .called call answer => .called call (blankAnswer answer)
  | .sent frame => .sent frame

def Occasion.blank : Occasion → Occasion
  | .outside move => .outside move
  | .turn now answer => .turn now (answer.map blankAnswer)

namespace Subscription

variable {p : Policy}

/-- A subscription keeps nothing of the failures that it comes to but the statuses. -/
theorem go_blank (hb : p.rulebook.Hides) (s : Subscription) (now : Nat)
    (answer : Option (Except QueueFault QueueAnswer)) :
    s.go p now (answer.map blankAnswer) = s.go p now answer := by
  have hfault : ∀ fault : QueueFault,
      p.rulebook.statusOf (.queue fault.blank) = p.rulebook.statusOf (.queue fault) :=
    fun fault => hb (.queue fault)
  obtain ⟨user, outbound, isCancelled, phase⟩ := s
  cases phase with
  | closed => rfl
  | running stage =>
    cases answer with
    | none => rfl
    | some a =>
      cases a with
      | ok a => rfl
      | error fault =>
        cases isCancelled with
        | true => cases stage <;> rfl
        | false =>
          cases stage with
          | counting | popping =>
            simp [go, goStage, blankAnswer, Except.mapError, Except.map, Except.bind, arrived,
              hfault]
          | announcing | pacing | sending | finished => rfl

theorem occur_blank (hb : p.rulebook.Hides) (s : Subscription) (o : Occasion) :
    ((machine p).occur s o.blank).map (fun r => (r.1.map Deed.blank, r.2)) =
      ((machine p).occur s o).map fun r => (r.1.map Deed.blank, r.2) := by
  cases o with
  | outside move => rfl
  | turn now answer =>
    have hdeeds (t : Subscription) : (s.deedsWith (answer.map blankAnswer) t).map Deed.blank =
        (s.deedsWith answer t).map Deed.blank := by
      simp only [deedsWith, List.map_append, List.map_map]
      congr 1
      cases s.awaits with
      | none => rfl
      | some call =>
        cases answer with
        | none => rfl
        | some a => simp [Deed.blank]
    simp only [machine, Occasion.blank, go_blank hb, Option.map_map, Function.comp_def, hdeeds]

end Subscription

def Deed.frame? : Deed → Option Frame
  | .sent frame => some frame
  | _ => none

def Deed.call? : Deed → Option QueueCall
  | .called call _ => some call
  | _ => none

theorem Deed.frame?_blank (deed : Deed) : deed.blank.frame? = deed.frame? := by
  cases deed <;> rfl

theorem Deed.call?_blank (deed : Deed) : deed.blank.call? = deed.call? := by
  cases deed <;> rfl

/-- What others see of a course. -/
def seen (done : List Deed) (s : Subscription) :
    List Frame × List QueueCall × Channel Frame × Option (Except Status Unit) :=
  (done.filterMap Deed.frame?, done.filterMap Deed.call?, s.outbound, s.outcome?)

theorem seen_blank (done : List Deed) (s : Subscription) :
    seen (done.map Deed.blank) s = seen done s := by
  have hframe : Deed.frame? ∘ Deed.blank = Deed.frame? := funext Deed.frame?_blank
  have hcall : Deed.call? ∘ Deed.blank = Deed.call? := funext Deed.call?_blank
  simp only [seen, List.filterMap_map, hframe, hcall]

theorem Subscription.course_alike {p : Policy} {os os' : List Occasion} (hb : p.rulebook.Hides)
    (s : Subscription) (hos : os.map Occasion.blank = os'.map Occasion.blank) :
    ((machine p).course s os).map (fun r => seen r.1 r.2) =
      ((machine p).course s os').map fun r => seen r.1 r.2 := by
  have hstep : ∀ s s' : Subscription, ∀ o o' : Occasion, s = s' → o.blank = o'.blank →
      ((machine p).occur s o).map (fun r => (r.1.map Deed.blank, r.2)) =
        ((machine p).occur s' o').map fun r => (r.1.map Deed.blank, r.2) := by
    rintro s _ o o' rfl ho
    rw [← occur_blank hb s o, ho, occur_blank hb]
  have halike := Machine.course_alike (fun s => s) Occasion.blank Deed.blank hstep (rfl : s = s) hos
  simpa [Option.map_map, Function.comp_def, seen_blank]
    using congrArg (Option.map fun r => seen r.1 r.2) halike

end Notify

open Chat (Session)
open Notify (Subscription)

/-- No text of a failure that is not the client's business reaches a client. Take two courses of a
session that are the same but for what its queue calls fail with and for the texts of what its input
breaks with: the session sends the same frames, makes the same calls and ends the same, with the
same status in all its parts. So does a subscription. -/
theorem undisclosed :
    (∀ (p : Chat.Policy) (supply : IdSupply) (id : SessionId) (inbound inbound' : Channel Chat.Item)
      (outbound : Channel Chat.Response) (isCancelled : Bool) (begun : Nat)
      (os os' : List Chat.Occasion),
      p.rulebook = .standard → inbound.map Chat.Item.blank = inbound'.map Chat.Item.blank →
      os.map Chat.Occasion.blank = os'.map Chat.Occasion.blank →
      ((Session.machine p supply id).course
          (.started p inbound outbound isCancelled begun) os).map (fun r => Chat.seen r.1 r.2) =
        ((Session.machine p supply id).course
          (.started p inbound' outbound isCancelled begun) os').map fun r => Chat.seen r.1 r.2) ∧
    ∀ (p : Notify.Policy) (user : UserId) (outbound : Channel Notify.Frame) (isCancelled : Bool)
      (os os' : List Notify.Occasion),
      p.rulebook = .standard → os.map Notify.Occasion.blank = os'.map Notify.Occasion.blank →
      ((Subscription.machine p).course (.started user outbound isCancelled) os).map
          (fun r => Notify.seen r.1 r.2) =
        ((Subscription.machine p).course (.started user outbound isCancelled) os').map
          fun r => Notify.seen r.1 r.2 := by
  constructor
  · intro p supply id inbound inbound' outbound isCancelled begun os os' hp hin hos
    refine Session.course_alike (hp ▸ Rulebook.hides_standard) ?_ hos
    simp [Session.blank, Session.started, hin]
  · intro p user outbound isCancelled os os' hp hos
    exact Subscription.course_alike (hp ▸ Rulebook.hides_standard) _ hos

/-- The input of a session breaks, and its outbox cannot be cleared; the events of a user cannot be
counted. -/
theorem undisclosed_texts :
    (Session.deskMachine.course .fresh
        [.outside (.send (.error (.transport "reset by 10.0.0.7"))), .turn .intake 0 0 none,
          .turn .closing 0 0 (some (.error (.unavailable "10.0.0.8 refused")))]).map
        (fun r => Chat.seen r.1 r.2) =
      some ([], [.clear ⟨"desk"⟩], { capacity := 4, isEnded := true },
        some (.error ⟨.unavailable, "stream unavailable", [⟨.internal, "stream unavailable"⟩]⟩)) ∧
    ((Subscription.machine Relay.brisk.notify).course .fresh
        [.turn 0 (some (.error (.codec "events of 1")))]).map (fun r => Notify.seen r.1 r.2) =
      some ([], [.count ⟨1⟩], { capacity := 4, isEnded := true },
        some (.error ⟨.internal, "internal error", [⟨.internal, "internal error"⟩]⟩)) := by
  constructor
  · exact (undisclosed.1 Relay.brisk.chat .counting ⟨"desk"⟩ { capacity := 4 } { capacity := 4 }
      { capacity := 4 } false 0 _
      [.outside (.send (.error (.transport ""))), .turn .intake 0 0 none,
        .turn .closing 0 0 (some (.error (.codec "")))] rfl rfl rfl).trans rfl
  · exact (undisclosed.2 Relay.brisk.notify ⟨1⟩ { capacity := 4 } false _
      [.turn 0 (some (.error (.unavailable "")))] rfl rfl).trans rfl

end NoteRelay
