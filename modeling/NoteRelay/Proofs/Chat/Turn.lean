import NoteRelay.Proofs.Store

/-!
# The turns of a chat session

`Turn` lists what a loop of a session can do when it goes on: one rule for each thing that it may
have waited for, with the deeds that others see of it. `turn_of_answer` reads a step of the machine
as one of the rules, whatever its call was answered, and `turn_of_go` a step with the answer of the
queues. `Relay.chat_step` reads a move of the relay as what it is to one session; most moves are
nothing to it (`Relay.unconcerned`).

Results about sessions follow by cases on `Turn` and open neither the machine nor the relay.
-/

namespace NoteRelay.Chat

/-- A session whose loops run and whose lifetime is not cancelled. -/
def Session.Runs (s : Session) (i : Intake) (d : Delivery) : Prop :=
  s.phase = .running i d ∧ s.isCancelled = false

/-- It is decided that the session ends well. -/
def Session.IsDone (s : Session) : Prop :=
  s.phase = .closing (.ok ()) ∨ s.phase = .closed (.ok ())

theorem Session.isDone_of_finished {s : Session} {b : Rulebook} {result : Except Failure Unit}
    (hs : s.phase = .closing result) (h : (s.finished (result.mapError b.statusOf)).IsDone) :
    s.IsDone := by
  cases result with
  | ok _ => exact .inl hs
  | error f =>
    obtain h | h := h
    · cases h
    · cases Phase.closed.inj h

inductive Turn (p : Policy) (id : SessionId) (now : Nat) :
    Loop → Session → List Deed → Session → Prop where
  /-- Whatever a loop waited for, it sees that the lifetime is cancelled. -/
  | cancelled {loop : Loop} {s : Session} {i : Intake} {d : Delivery} :
      loop ≠ .closing → s.phase = .running i d → s.isCancelled = true →
      Turn p id now loop s [] { s with phase := .closing (.error .cancelled) }
  | read {s : Session} {d : Delivery} {item : Option Item} {inbound : Channel Item}
      {fresh : CorrelationId} {i : Intake} :
      s.Runs .reading d → s.inbound.next? = some (item, inbound) →
      Intake.received p.rulebook fresh item = .ok i →
      Turn p id now .intake s [] { s with inbound, phase := .running i d }
  /-- The input cannot be read, or what was read is refused for good. -/
  | broken {s : Session} {d : Delivery} {item : Option Item} {inbound : Channel Item}
      {fresh : CorrelationId} {f : Failure} :
      s.Runs .reading d → s.inbound.next? = some (item, inbound) →
      Intake.received p.rulebook fresh item = .error f →
      Turn p id now .intake s [] { s with inbound, phase := .closing (.error f) }
  | saved {s : Session} {m : ChatMessage} {d : Delivery} {a : QueueAnswer} :
      s.Runs (.saving m) d →
      Turn p id now .intake s [.called (.save id m) (.ok a)]
        { s with phase := .running .reading d }
  | unsaved {s : Session} {m : ChatMessage} {d : Delivery} {fault : QueueFault} :
      s.Runs (.saving m) d →
      Turn p id now .intake s [.called (.save id m) (.error fault)]
        { s with phase := .closing (.error (.queue fault)) }
  | refused {s : Session} {status : Status} {d : Delivery} {outbound : Channel Response} :
      s.Runs (.refusing status) d → s.outbound.send? (.status status) = some (.ok outbound) →
      Turn p id now .intake s [.sent .intake none (.status status)]
        { s with outbound, phase := .running .reading d }
  /-- Nobody is left to receive a frame. -/
  | unheard {loop : Loop} {s : Session} {i : Intake} {d : Delivery} {frame : Response} :
      loop ≠ .closing → s.Runs i d → s.outbound.send? frame = some (.error .abandoned) →
      Turn p id now loop s [] { s with phase := .closing (.error .outboundClosed) }
  | fetched {s : Session} {i : Intake} {d : Delivery} {a : QueueAnswer} {m : ChatMessage}
      {others : List ChatMessage} :
      s.Runs i d → d.stage = .fetching → a.found = m :: others →
      Turn p id now .delivery s [.called (.fetchAll id) (.ok a)]
        { s with phase := .running i { d with stage := .pacing m others } }
  | foundNothing {s : Session} {i : Intake} {d : Delivery} {a : QueueAnswer} :
      s.Runs i d → d.stage = .fetching → a.found = [] → now < d.deadline →
      Turn p id now .delivery s [.called (.fetchAll id) (.ok a)]
        { s with phase := .running i { d with stage := .resting } }
  | finished {s : Session} {i : Intake} {d : Delivery} {a : QueueAnswer} :
      s.Runs i d → d.stage = .fetching → a.found = [] → d.deadline ≤ now →
      Turn p id now .delivery s [.called (.fetchAll id) (.ok a)]
        { s with phase := .closing (.ok ()) }
  | unfetched {s : Session} {i : Intake} {d : Delivery} {fault : QueueFault} :
      s.Runs i d → d.stage = .fetching →
      Turn p id now .delivery s [.called (.fetchAll id) (.error fault)]
        { s with phase := .closing (.error (.queue fault)) }
  | rested {s : Session} {i : Intake} {d : Delivery} {ticker : Ticker} :
      s.Runs i d → d.stage = .resting → d.ticker.take? now = some ticker →
      Turn p id now .delivery s []
        { s with phase := .running i { d with stage := .fetching, ticker } }
  | paced {s : Session} {i : Intake} {d : Delivery} {m : ChatMessage}
      {others : List ChatMessage} {ticker : Ticker} :
      s.Runs i d → d.stage = .pacing m others → d.ticker.take? now = some ticker →
      Turn p id now .delivery s []
        { s with phase := .running i { d with stage := .sending m others, ticker } }
  | delivered {s : Session} {i : Intake} {d : Delivery} {m : ChatMessage}
      {others : List ChatMessage} {outbound : Channel Response} :
      s.Runs i d → d.stage = .sending m others →
      s.outbound.send? (p.render m) = some (.ok outbound) →
      Turn p id now .delivery s [.sent .delivery (some m) (p.render m)]
        { s with outbound, phase := .running i { d with stage := .settling m others } }
  /-- Whether or not the message could be deleted, the delivery goes on behind it. -/
  | settled {s : Session} {i : Intake} {d : Delivery} {m : ChatMessage}
      {others : List ChatMessage} {answer : Except QueueFault QueueAnswer} :
      s.Runs i d → d.stage = .settling m others →
      Turn p id now .delivery s [.called (.delete id m) answer]
        { s with phase := .running i (d.settled p.idle now others) }
  | cleared {s : Session} {result : Except Failure Unit}
      {answer : Except QueueFault QueueAnswer} :
      s.phase = .closing result →
      Turn p id now .closing s [.called (.clear id) answer]
        (s.finished (result.mapError p.rulebook.statusOf))

/-- The delivery sends what it is at. Of the other deeds none is a frame of the delivery. -/
theorem Turn.news {p : Policy} {id : SessionId} {now : Nat} {loop : Loop} {s t : Session}
    {new : List Deed} (h : Turn p id now loop s new t) :
    new = [] ∨ (∃ d, new = [d] ∧ ∀ about frame, d ≠ .sent .delivery about frame) ∨
      ∃ i d m others, s.Runs i d ∧ d.stage = .sending m others ∧
        new = [.sent .delivery (some m) (p.render m)] := by
  cases h with
  | delivered hs hstage _ => exact .inr (.inr ⟨_, _, _, _, hs, hstage, rfl⟩)
  | saved | unsaved | refused | fetched | foundNothing | finished | unfetched | settled | cleared =>
    exact .inr (.inl ⟨_, rfl, by simp⟩)
  | cancelled | read | broken | unheard | rested | paced => exact .inl rfl

-- ---------------------------------------------------------------------------
-- The machine takes turns
-- ---------------------------------------------------------------------------

def Session.deedsWith (id : SessionId) (loop : Loop)
    (answer : Option (Except QueueFault QueueAnswer)) (s t : Session) : List Deed :=
  ((s.awaits id loop).bind fun call => answer.map (.called call)).toList ++
    (t.outbound.sentSince s.outbound).map (.sent loop (s.atHand loop))

theorem Session.deeds_eq (id : SessionId) (loop : Loop) (q : Queues)
    (interference : Option Interference) (s t : Session) :
    s.deeds id loop q interference t =
      s.deedsWith id loop (q.answerAny interference (s.awaits id loop)).1 t := by
  unfold deeds deedsWith
  cases s.awaits id loop <;> rfl

section
variable {p : Policy} {supply : IdSupply} {minted now : Nat} {id : SessionId}
  {answer : Option (Except QueueFault QueueAnswer)}

theorem turn_of_quiet {loop : Loop} {s t : Session} (ha : s.awaits id loop = none)
    (ht : t.outbound = s.outbound) (h : Turn p id now loop s [] t) :
    Turn p id now loop s (s.deedsWith id loop answer t) t := by
  simpa [Session.deedsWith, ha, ht] using h

theorem turn_of_called {loop : Loop} {s t : Session} {call : QueueCall}
    {a : Except QueueFault QueueAnswer} (ha : s.awaits id loop = some call)
    (ht : t.outbound.queued = s.outbound.queued) (h : Turn p id now loop s [.called call a] t) :
    Turn p id now loop s (s.deedsWith id loop (some a) t) t := by
  simpa [Session.deedsWith, ha, Channel.sentSince, ht] using h

theorem turn_of_sent {loop : Loop} {s t : Session} {frame : Response}
    (ha : s.awaits id loop = none) (ht : s.outbound.send? frame = some (.ok t.outbound))
    (h : Turn p id now loop s [.sent loop (s.atHand loop) frame] t) :
    Turn p id now loop s (s.deedsWith id loop answer t) t := by
  simpa [Session.deedsWith, ha, Channel.sentSince_of_send? ht] using h

theorem Stage.ofSnapshot_ne_finished (others : List ChatMessage) :
    Stage.ofSnapshot others ≠ .finished := by
  cases others <;> simp [Stage.ofSnapshot]

/-- What of a snapshot is still to be sent. -/
def Stage.unsent : Stage → List ChatMessage
  | pacing m others => m :: others
  | sending m others => m :: others
  | settling _ others => others
  | _ => []

theorem Stage.unsent_ofSnapshot (others : List ChatMessage) :
    (ofSnapshot others).unsent = others := by
  cases others <;> rfl

theorem turn_of_intake {s t : Session} (h : s.go p supply minted now answer .intake = some t) :
    Turn p id now .intake s (s.deedsWith id .intake answer t) t := by
  obtain ⟨inbound, outbound, isCancelled, phase⟩ := s
  cases phase with
  | running i d => ?_
  | _ => simp [Session.go] at h
  cases isCancelled with
  | true =>
    -- The wait is over at once, and nothing was called or sent.
    cases i <;> simp [Session.go, Session.goIntake, Phase.ofIntake, Except.bind] at h <;> subst h
    all_goals
      refine turn_of_quiet rfl rfl ?_
      exact .cancelled (by simp) rfl rfl
  | false =>
    cases i with
    | reading =>
      simp only [Session.go, Session.goIntake, guarded_live, Option.map_map,
        Option.map_eq_some_iff] at h
      obtain ⟨⟨item, inbound'⟩, hn, rfl⟩ := h
      refine turn_of_quiet rfl rfl ?_
      simp only [Function.comp_apply]
      cases hr : Intake.received p.rulebook (supply.correlation minted) item with
      | ok i => exact .read ⟨rfl, rfl⟩ hn hr
      | error f => exact .broken ⟨rfl, rfl⟩ hn hr
    | saving m =>
      simp only [Session.go, Session.goIntake, guarded_live, Option.map_map,
        Option.map_eq_some_iff] at h
      obtain ⟨a, rfl, rfl⟩ := h
      refine turn_of_called rfl rfl ?_
      cases a with
      | ok a => exact .saved ⟨rfl, rfl⟩
      | error fault => exact .unsaved ⟨rfl, rfl⟩
    | refusing status =>
      simp only [Session.go, Session.goIntake, Option.map_map, Option.map_eq_some_iff] at h
      obtain ⟨r, hr, rfl⟩ := h
      obtain ⟨hs, rfl⟩ | ⟨outbound', hs, rfl⟩ := emit_cases hr
      · refine turn_of_quiet rfl rfl ?_
        exact .unheard (by simp) ⟨rfl, rfl⟩ hs
      · refine turn_of_sent rfl hs ?_
        exact .refused ⟨rfl, rfl⟩ hs
    | ended => simp [Session.go, Session.goIntake] at h

theorem turn_of_delivery {s t : Session} (h : s.go p supply minted now answer .delivery = some t) :
    Turn p id now .delivery s (s.deedsWith id .delivery answer t) t := by
  obtain ⟨inbound, outbound, isCancelled, phase⟩ := s
  cases phase with
  | running i d => ?_
  | _ => simp [Session.go] at h
  obtain ⟨stage, ticker, deadline⟩ := d
  cases isCancelled with
  | true =>
    cases stage <;>
      simp [Session.go, Session.goDelivery, Session.goTick, Phase.ofDelivery, Except.bind,
        Except.map] at h <;> subst h
    all_goals
      refine turn_of_quiet rfl rfl ?_
      exact .cancelled (by simp) rfl rfl
  | false =>
    cases stage with
    | fetching =>
      simp only [Session.go, Session.goDelivery, guarded_live, Option.map_map,
        Option.map_eq_some_iff] at h
      obtain ⟨a, rfl, rfl⟩ := h
      refine turn_of_called rfl rfl ?_
      cases a with
      | error fault => exact .unfetched ⟨rfl, rfl⟩ rfl
      | ok a =>
        cases hf : a.found with
        | cons m others =>
          simp only [Function.comp_apply, Except.bind, Delivery.fetched, hf, Phase.ofDelivery,
            reduceCtorEq, if_false]
          exact .fetched (d := ⟨.fetching, ticker, deadline⟩) ⟨rfl, rfl⟩ rfl hf
        | nil =>
          by_cases hd : deadline ≤ now
          · simp only [Function.comp_apply, Except.bind, Delivery.fetched, hf, Phase.ofDelivery,
              hd, if_true]
            exact .finished (d := ⟨.fetching, ticker, deadline⟩) ⟨rfl, rfl⟩ rfl hf hd
          · simp only [Function.comp_apply, Except.bind, Delivery.fetched, hf, Phase.ofDelivery,
              hd, reduceCtorEq, if_false]
            exact .foundNothing (d := ⟨.fetching, ticker, deadline⟩) ⟨rfl, rfl⟩ rfl hf
              (Nat.lt_of_not_le hd)
    | resting =>
      simp only [Session.go, Session.goDelivery, Session.goTick, guarded_live, Option.map_map,
        Option.map_eq_some_iff] at h
      obtain ⟨ticker', ht, rfl⟩ := h
      refine turn_of_quiet rfl rfl ?_
      exact .rested (d := ⟨.resting, ticker, deadline⟩) ⟨rfl, rfl⟩ rfl ht
    | pacing m others =>
      simp only [Session.go, Session.goDelivery, Session.goTick, guarded_live, Option.map_map,
        Option.map_eq_some_iff] at h
      obtain ⟨ticker', ht, rfl⟩ := h
      refine turn_of_quiet rfl rfl ?_
      exact .paced (d := ⟨.pacing m others, ticker, deadline⟩) ⟨rfl, rfl⟩ rfl ht
    | sending m others =>
      simp only [Session.go, Session.goDelivery, Option.map_map, Option.map_eq_some_iff] at h
      obtain ⟨r, hr, rfl⟩ := h
      obtain ⟨hs, rfl⟩ | ⟨outbound', hs, rfl⟩ := emit_cases hr
      · refine turn_of_quiet rfl rfl ?_
        exact .unheard (by simp) ⟨rfl, rfl⟩ hs
      · refine turn_of_sent rfl hs ?_
        exact .delivered (d := ⟨.sending m others, ticker, deadline⟩) ⟨rfl, rfl⟩ rfl hs
    | settling m others =>
      simp only [Session.go, Session.goDelivery, guarded_live, Option.map_map,
        Option.map_eq_some_iff] at h
      obtain ⟨a, rfl, rfl⟩ := h
      have hne : ∀ d : Delivery, (d.settled p.idle now others).stage ≠ .finished :=
        fun _ => Stage.ofSnapshot_ne_finished others
      refine turn_of_called rfl rfl ?_
      simp only [Function.comp_apply, Except.map, Phase.ofDelivery, hne, if_false]
      exact .settled ⟨rfl, rfl⟩ rfl
    | finished => simp [Session.go, Session.goDelivery] at h

theorem turn_of_closing {s t : Session} (h : s.go p supply minted now answer .closing = some t) :
    Turn p id now .closing s (s.deedsWith id .closing answer t) t := by
  obtain ⟨inbound, outbound, isCancelled, phase⟩ := s
  cases phase with
  | closing result =>
    simp only [Session.go, Option.map_eq_some_iff] at h
    obtain ⟨a, rfl, rfl⟩ := h
    refine turn_of_called rfl rfl ?_
    exact .cleared rfl
  | _ => simp [Session.go] at h

theorem turn_of_answer {s t : Session} {loop : Loop}
    (h : s.go p supply minted now answer loop = some t) :
    Turn p id now loop s (s.deedsWith id loop answer t) t := by
  cases loop with
  | intake => exact turn_of_intake h
  | delivery => exact turn_of_delivery h
  | closing => exact turn_of_closing h

theorem turn_of_go {s t : Session} {loop : Loop} {q : Queues} {interference : Option Interference}
    (h : s.go p supply minted now (q.answerAny interference (s.awaits id loop)).1 loop = some t) :
    Turn p id now loop s (s.deeds id loop q interference t) t :=
  s.deeds_eq id loop q interference t ▸ turn_of_answer h

end

/-- A loop calls the outbox of its own session only. -/
theorem Session.session_of_awaits {id : SessionId} {loop : Loop} {s : Session} {call : QueueCall}
    (h : s.awaits id loop = some call) : call.session? = some id := by
  obtain ⟨inbound, outbound, isCancelled, phase⟩ := s
  cases loop <;> cases phase with
    | running i d => cases i <;> cases isCancelled <;> cases hd : d.stage <;>
        simp_all [awaits] <;> (subst h; rfl)
    | closing => simp_all [awaits] <;> (subst h; rfl)
    | closed => simp_all [awaits]

theorem Session.phase_clientMove {s t : Session} {m : Move} (h : s.clientMove m = some t) :
    t.phase = s.phase := by
  cases m with
  | send item =>
    simp only [clientMove] at h
    split at h <;> simp at h
    subst h; rfl
  | read =>
    simp only [clientMove] at h
    split at h <;> simp at h
    subst h; rfl
  | finish => simp only [clientMove, Option.some.injEq] at h; subst h; rfl
  | leave => simp only [clientMove, Option.some.injEq] at h; subst h; rfl
  | cancel => simp only [clientMove, Option.some.injEq] at h; subst h; rfl

def Deed.box (b : Outbox.Box) : Deed → Outbox.Box
  | .called call answer => b.after call answer
  | .sent _ _ _ => b

theorem foldl_box_sent (b : Outbox.Box) (loop : Loop) (about : Option ChatMessage)
    (frames : List Response) : (frames.map (Deed.sent loop about)).foldl Deed.box b = b := by
  induction frames with
  | nil => rfl
  | cons frame rest ih => exact ih

/-- The deeds of a loop tell what its call has made of the box. -/
theorem Session.box_deeds (id : SessionId) (loop : Loop) (q : Queues)
    (interference : Option Interference) (s t : Session) :
    (s.deeds id loop q interference t).foldl Deed.box (q.outbox.box id) =
      (q.answerAny interference (s.awaits id loop)).2.outbox.box id := by
  rw [deeds, List.foldl_append, foldl_box_sent]
  cases h : s.awaits id loop with
  | none => rfl
  | some call => exact (q.box_answer interference (session_of_awaits h)).symm

theorem Session.found_of_deeds {id : SessionId} {loop : Loop} {q : Queues}
    {interference : Option Interference} {s t : Session} {a : QueueAnswer}
    (h : .called (.fetchAll id) (.ok a) ∈ s.deeds id loop q interference t) :
    a.found.Perm (q.outbox.box id).values := by
  simp only [deeds, List.mem_append, List.mem_map, Option.mem_toList, reduceCtorEq, and_false,
    exists_false, or_false, Deed.called.injEq] at h
  obtain ⟨call, _, rfl, ha⟩ := h
  exact q.found_perm interference ha

end NoteRelay.Chat

theorem NoteRelay.Notify.Subscription.session_of_awaits (s : Subscription) {call : QueueCall}
    (h : s.awaits = some call) : call.session? = none := by
  unfold awaits at h
  split at h
  · simp at h
  · split at h <;> simp at h <;> subst h <;> rfl

-- ---------------------------------------------------------------------------
-- A move of the relay, to one session
-- ---------------------------------------------------------------------------

namespace NoteRelay.Relay

open Chat (Session Turn)

/-- Whether a move happens to the session: it is one of its own, or time passes, or the lifetime of
the relay is cancelled. -/
def Move.concerns (id : SessionId) : Move → Bool
  | .pass _ | .shutDown => true
  | .converse id' _ _ | .chatClient id' _ | .chat id' _ _ => id' = id
  | _ => false

/-- What another session or a subscription does is nothing to a session. -/
structure Unconcerned (id : SessionId) (w w' : Relay) : Prop where
  now : w'.now = w.now
  isShutDown : w'.isShutDown = w.isShutDown
  session : w'.chats.get? id = w.chats.get? id
  entry : w'.queues.outbox.stored? id = w.queues.outbox.stored? id

section
variable {u : Setup} {id : SessionId} {w w' : Relay} {m : Move}

theorem unconcerned_goChat {id' : SessionId} {loop : Chat.Loop} {interference : Option Interference}
    (hid : id' ≠ id) (h : w.goChat u id' loop interference = some w') : Unconcerned id w w' := by
  obtain ⟨s, t, -, -, rfl⟩ := goChat_eq_some.mp h
  refine ⟨rfl, rfl, by simp [Table.get?_insert, Ne.symm hid], ?_⟩
  -- A call of the other session is about its own entry.
  cases ha : s.awaits id' loop with
  | none => rfl
  | some call =>
    refine w.queues.stored?_answer_of_ne interference ?_
    rw [Chat.Session.session_of_awaits ha]
    simpa using hid

theorem unconcerned_goSubscription {key : Nat} {interference : Option Interference}
    (h : w.goSubscription u key interference = some w') : Unconcerned id w w' := by
  obtain ⟨s, t, -, -, rfl⟩ := goSubscription_eq_some.mp h
  refine ⟨rfl, rfl, rfl, ?_⟩
  cases ha : s.awaits with
  | none => rfl
  | some call =>
    exact w.queues.stored?_answer_of_ne interference (by simp [s.session_of_awaits ha])

theorem unconcerned (hm : m.concerns id = false) (h : w.step u m = some w') :
    Unconcerned id w w' := by
  cases m with
  | pass ms | shutDown => simp [Move.concerns] at hm
  | push e | publish change owner note time fault =>
    simp only [step, Option.some.injEq] at h
    subst h
    exact ⟨rfl, rfl, rfl, rfl⟩
  | converse id' inboundCapacity outboundCapacity =>
    have hid : id' ≠ id := by simpa [Move.concerns] using hm
    simp only [step, converse] at h
    split at h <;> simp only [Option.some.injEq, reduceCtorEq] at h
    subst h
    exact ⟨rfl, rfl, by simp [Table.get?_insert, Ne.symm hid], rfl⟩
  | chatClient id' move =>
    have hid : id' ≠ id := by simpa [Move.concerns] using hm
    simp only [step, withChat, Option.map_eq_some_iff] at h
    obtain ⟨t, -, rfl⟩ := h
    exact ⟨rfl, rfl, by simp [Table.get?_insert, Ne.symm hid], rfl⟩
  | chat id' loop interference => exact unconcerned_goChat (by simpa [Move.concerns] using hm) h
  | subscribe key user capacity =>
    simp only [step, subscribe] at h
    split at h <;> simp only [Option.some.injEq, reduceCtorEq] at h
    subst h
    exact ⟨rfl, rfl, rfl, rfl⟩
  | subscriber key move =>
    simp only [step, withSubscription, Option.map_eq_some_iff] at h
    obtain ⟨t, -, rfl⟩ := h
    exact ⟨rfl, rfl, rfl, rfl⟩
  | subscription key interference => exact unconcerned_goSubscription h

theorem chatDeeds_of_unconcerned (hm : m.concerns id = false) :
    chatDeeds id (w.deeds m w') = [] := by
  cases m with
  | push e => exact chatDeeds_map_pushed id [e]
  | publish => simp [deeds]
  | chat id' loop interference =>
    have hid : id' ≠ id := by simpa [Move.concerns] using hm
    simp only [deeds]
    split <;> simp [hid]
  | subscription key interference =>
    simp only [deeds]
    split <;> simp
  | _ => rfl

end

def ChangedOutside (s t : Session) : Prop :=
  t = s ∨ (∃ m, s.clientMove m = some t) ∨ t = { s with isCancelled := true }

theorem ChangedOutside.phase {s t : Session} (h : ChangedOutside s t) : t.phase = s.phase := by
  obtain rfl | ⟨m, hm⟩ | rfl := h
  · rfl
  · exact Session.phase_clientMove hm
  · rfl

/-- What a move that leads from `w` to `w'` is to the session `id`, with the deeds of the
session. -/
inductive ChatStep (u : Setup) (id : SessionId) (w w' : Relay) : List Chat.Deed → Prop where
  | absent :
      w.chats.get? id = none → w'.chats.get? id = none →
      w'.queues.outbox.box id = w.queues.outbox.box id → ChatStep u id w w' []
  | started {inbound : Channel Chat.Item} {outbound : Channel Chat.Response} :
      w.chats.get? id = none →
      w'.chats.get? id = some (.started u.chat inbound outbound w.isShutDown w.now) →
      w'.queues.outbox.box id = w.queues.outbox.box id → ChatStep u id w w' []
  | outside {s t : Session} :
      w.chats.get? id = some s → w'.chats.get? id = some t → ChangedOutside s t →
      w'.queues.outbox.box id = w.queues.outbox.box id → ChatStep u id w w' []
  | turn {loop : Chat.Loop} {s t : Session} {ds : List Chat.Deed} :
      w.chats.get? id = some s → w'.chats.get? id = some t → Turn u.chat id w.now loop s ds t →
      w'.queues.outbox.box id = ds.foldl Chat.Deed.box (w.queues.outbox.box id) →
      (∀ a, .called (.fetchAll id) (.ok a) ∈ ds →
        a.found.Perm (w.queues.outbox.box id).values) →
      ChatStep u id w w' ds

section
variable {u : Setup} {id : SessionId} {w w' : Relay} {m : Move}

theorem chatStep_of_unconcerned (h : Unconcerned id w w') : ChatStep u id w w' [] := by
  have hb : w'.queues.outbox.box id = w.queues.outbox.box id := by
    rw [Outbox.box_eq, Outbox.box_eq, h.entry]
  cases hs : w.chats.get? id with
  | none => exact .absent hs (h.session.trans hs) hb
  | some s => exact .outside hs (h.session.trans hs) (.inl rfl) hb

theorem chatStep_converse {inboundCapacity outboundCapacity : Nat}
    (h : w.converse u id inboundCapacity outboundCapacity = some w') : ChatStep u id w w' [] := by
  unfold converse at h
  split at h <;> simp only [Option.some.injEq, reduceCtorEq] at h
  rename_i inbound outbound hnone _ _ _
  subst h
  exact .started hnone (by rw [Table.get?_insert, if_pos rfl]) rfl

theorem chatStep_withChat {m : Session.Move}
    (h : w.withChat id (fun s => s.clientMove m) = some w') : ChatStep u id w w' [] := by
  simp only [withChat, Option.map_eq_some_iff, Option.bind_eq_some_iff] at h
  obtain ⟨t, ⟨s, hs, hm⟩, rfl⟩ := h
  exact .outside hs (by simp [Table.get?_insert]) (.inr (.inl ⟨m, hm⟩)) rfl

theorem chatStep_goChat {loop : Chat.Loop} {interference : Option Interference}
    (h : w.goChat u id loop interference = some w') :
    ChatStep u id w w' (chatDeeds id (w.deeds (.chat id loop interference) w')) := by
  obtain ⟨s, t, hs, ht, rfl⟩ := goChat_eq_some.mp h
  simp only [deeds, hs, Table.get?_insert, if_true, chatDeeds_map_chat]
  refine .turn hs (by rw [Table.get?_insert, if_pos rfl]) (Chat.turn_of_go ht) ?_ ?_
  · exact (Session.box_deeds _ _ _ _ s t).symm
  · intro a ha
    exact Session.found_of_deeds ha

theorem chat_step (id : SessionId) (h : w.step u m = some w') :
    ChatStep u id w w' (chatDeeds id (w.deeds m w')) := by
  cases hm : m.concerns id with
  | false =>
    rw [chatDeeds_of_unconcerned hm]
    exact chatStep_of_unconcerned (unconcerned hm h)
  | true =>
    cases m with
    | push | publish | subscribe | subscriber | subscription => simp [Move.concerns] at hm
    | pass ms =>
      simp only [step, Option.some.injEq] at h
      subst h
      cases hs : w.chats.get? id with
      | none => exact .absent hs hs rfl
      | some s => exact .outside hs hs (.inl rfl) rfl
    | shutDown =>
      simp only [step, Option.some.injEq] at h
      subst h
      cases hs : w.chats.get? id with
      | none => exact .absent hs (by simp [Table.get?_mapValues, hs]) rfl
      | some s =>
        exact .outside hs (by rw [Table.get?_mapValues, hs]; rfl) (.inr (.inr rfl)) rfl
    | converse id' inboundCapacity outboundCapacity =>
      obtain rfl : id' = id := by simpa [Move.concerns] using hm
      exact chatStep_converse h
    | chatClient id' move =>
      obtain rfl : id' = id := by simpa [Move.concerns] using hm
      exact chatStep_withChat h
    | chat id' loop interference =>
      obtain rfl : id' = id := by simpa [Move.concerns] using hm
      exact chatStep_goChat h

/-- What holds of a session when it starts, and is kept by every turn and by whatever happens to it
from outside, holds of it in every run, with its deeds so far and its box. -/
theorem chat_induction {Q : List Chat.Deed → Session → Outbox.Box → Prop}
    (start : ∀ inbound outbound isCancelled now,
      Q [] (.started u.chat inbound outbound isCancelled now) .empty)
    (outside : ∀ ds s t b, Q ds s b → ChangedOutside s t → Q ds t b)
    (turn : ∀ ds s t b now loop new, Q ds s b → Turn u.chat id now loop s new t →
      (∀ a, .called (.fetchAll id) (.ok a) ∈ new → a.found.Perm b.values) →
      Q (ds ++ new) t (new.foldl Chat.Deed.box b))
    {moves : List Move} {s : Session} (hrun : (Relay.started u).run u moves = some w)
    (hs : w.chats.get? id = some s) :
    Q (chatPast u moves id) s (w.queues.outbox.box id) := by
  -- Before the session starts, its past and its box are empty.
  refine chronicle_induction (P := fun past w =>
    (w.chats.get? id = none → chatDeeds id past = [] ∧ w.queues.outbox.box id = .empty) ∧
      ∀ s, w.chats.get? id = some s → Q (chatDeeds id past) s (w.queues.outbox.box id))
    ⟨fun _ => ⟨rfl, rfl⟩, by simp [Relay.started]⟩ ?_ hrun |>.2 s hs
  rintro past w m w' - ⟨hnone, hsome⟩ hstep
  have hcs := chat_step id hstep
  rw [chatDeeds_append]
  generalize chatDeeds id (w.deeds m w') = new at hcs ⊢
  cases hcs with
  | absent hs ht hb => simp [hb, ht, hnone hs]
  | started hs ht hb =>
    obtain ⟨hpast, hbox⟩ := hnone hs
    simp only [ht, Option.some.injEq, reduceCtorEq, false_implies, true_and]
    rintro _ rfl
    simpa [hpast, hb, hbox] using start _ _ _ _
  | outside hs ht hchange hb =>
    simp only [ht, Option.some.injEq, reduceCtorEq, false_implies, true_and]
    rintro _ rfl
    simpa [hb] using outside _ _ _ _ (hsome _ hs) hchange
  | turn hs ht hturn hb hsnapshot =>
    simp only [ht, Option.some.injEq, reduceCtorEq, false_implies, true_and]
    rintro _ rfl
    rw [hb]
    exact turn _ _ _ _ _ _ _ (hsome _ hs) hturn hsnapshot

end

end NoteRelay.Relay
