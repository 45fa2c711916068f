import NoteRelay.Proofs.Chat.Turn

/-!
# The turns of a subscription

`Turn` lists what a subscription can do when it goes on, with the deeds that others see of it:
`turn_of_answer` and `turn_of_go` read a step of the machine as one of the rules. `Relay.NotifyStep`
is what a move of the relay is to the inboxes and to the subscriptions, all of them at once.
-/

namespace NoteRelay.Notify

/-- A subscription that is at a stage and whose lifetime is not cancelled. -/
def Subscription.IsAt (s : Subscription) (stage : Stage) : Prop :=
  s.phase = .running stage ∧ s.isCancelled = false

inductive Turn (p : Policy) (now : Nat) : Subscription → List Deed → Subscription → Prop where
  | cancelled {s : Subscription} {stage : Stage} :
      s.phase = .running stage → s.isCancelled = true →
      Turn p now s [] (s.finished (.error (p.rulebook.statusOf .cancelled)))
  | counted {s : Subscription} {a : QueueAnswer} :
      s.IsAt .counting →
      Turn p now s [.called (.count s.user) (.ok a)]
        { s with phase := .running (.announcing a.counted) }
  | uncounted {s : Subscription} {fault : QueueFault} :
      s.IsAt .counting →
      Turn p now s [.called (.count s.user) (.error fault)]
        (s.finished (.error (p.rulebook.statusOf (.queue fault))))
  | announced {s : Subscription} {unread : Nat} {outbound : Channel Frame} :
      s.IsAt (.announcing unread) →
      s.outbound.send? (.ofCount unread) = some (.ok outbound) →
      Turn p now s [.sent (.ofCount unread)]
        ({ s with outbound }.arrived p (.ok (.polling p (.started p.poll now) 0)))
  | unheard {s : Subscription} {stage : Stage} {frame : Frame} :
      s.IsAt stage → s.outbound.send? frame = some (.error .abandoned) →
      Turn p now s [] (s.finished (.error (p.rulebook.statusOf .outboundClosed)))
  | paced {s : Subscription} {ticker ticker' : Ticker} {emptyPolls : Nat} :
      s.IsAt (.pacing ticker emptyPolls) → ticker.take? now = some ticker' →
      Turn p now s [] { s with phase := .running (.popping ticker' emptyPolls) }
  | popped {s : Subscription} {ticker : Ticker} {emptyPolls : Nat} {a : QueueAnswer}
      {e : NoteEvent} :
      s.IsAt (.popping ticker emptyPolls) → a.popped = some e →
      Turn p now s [.called (.pop s.user) (.ok a)]
        { s with phase := .running (.sending ticker e) }
  | foundNone {s : Subscription} {ticker : Ticker} {emptyPolls : Nat} {a : QueueAnswer} :
      s.IsAt (.popping ticker emptyPolls) → a.popped = none →
      Turn p now s [.called (.pop s.user) (.ok a)]
        (s.arrived p (.ok (.polling p ticker (emptyPolls + 1))))
  | unpopped {s : Subscription} {ticker : Ticker} {emptyPolls : Nat} {fault : QueueFault} :
      s.IsAt (.popping ticker emptyPolls) →
      Turn p now s [.called (.pop s.user) (.error fault)]
        (s.finished (.error (p.rulebook.statusOf (.queue fault))))
  | delivered {s : Subscription} {ticker : Ticker} {e : NoteEvent} {outbound : Channel Frame} :
      s.IsAt (.sending ticker e) → s.outbound.send? (.ofEvent e) = some (.ok outbound) →
      Turn p now s [.sent (.ofEvent e)] ({ s with outbound }.arrived p (.ok (.polling p ticker 0)))

theorem Subscription.arrived_polling (s : Subscription) (p : Policy) (ticker : Ticker)
    (emptyPolls : Nat) :
    s.arrived p (.ok (.polling p ticker emptyPolls)) =
      if emptyPolls < p.tries then { s with phase := .running (.pacing ticker emptyPolls) }
      else s.finished (.ok ()) := by
  unfold Stage.polling
  split <;> rfl

theorem Subscription.queued_arrived (s : Subscription) (p : Policy) (r : Except Failure Stage) :
    (s.arrived p r).outbound.queued = s.outbound.queued := by
  unfold arrived
  split <;> rfl

-- ---------------------------------------------------------------------------
-- The machine takes turns
-- ---------------------------------------------------------------------------

/-- What a subscription does in going on from `s` to `t`, when its call is answered so. -/
def Subscription.deedsWith (answer : Option (Except QueueFault QueueAnswer))
    (s t : Subscription) : List Deed :=
  (s.awaits.bind fun call => answer.map (.called call)).toList ++
    (t.outbound.sentSince s.outbound).map .sent

theorem Subscription.deeds_eq (q : Queues) (interference : Option Interference)
    (s t : Subscription) :
    s.deeds q interference t = s.deedsWith (q.answerAny interference s.awaits).1 t := by
  unfold deeds deedsWith
  cases s.awaits <;> rfl

section
variable {p : Policy} {now : Nat} {answer : Option (Except QueueFault QueueAnswer)}

theorem turn_of_quiet {s t : Subscription} (ha : s.awaits = none)
    (ht : t.outbound.queued = s.outbound.queued) (h : Turn p now s [] t) :
    Turn p now s (s.deedsWith answer t) t := by
  simpa [Subscription.deedsWith, ha, Channel.sentSince, ht] using h

theorem turn_of_called {s t : Subscription} {call : QueueCall} {a : Except QueueFault QueueAnswer}
    (ha : s.awaits = some call) (ht : t.outbound.queued = s.outbound.queued)
    (h : Turn p now s [.called call a] t) : Turn p now s (s.deedsWith (some a) t) t := by
  simpa [Subscription.deedsWith, ha, Channel.sentSince, ht] using h

theorem turn_of_sent {s t : Subscription} {frame : Frame} {outbound : Channel Frame}
    (ha : s.awaits = none) (hs : s.outbound.send? frame = some (.ok outbound))
    (ht : t.outbound.queued = outbound.queued) (h : Turn p now s [.sent frame] t) :
    Turn p now s (s.deedsWith answer t) t := by
  simpa [Subscription.deedsWith, ha, Channel.sentSince, ht, Channel.queued_of_send? hs] using h

/-- What a subscription does in going on is a turn, whatever its call was answered. -/
theorem turn_of_answer {s t : Subscription} (h : s.go p now answer = some t) :
    Turn p now s (s.deedsWith answer t) t := by
  obtain ⟨user, outbound, isCancelled, phase⟩ := s
  cases phase with
  | running stage => ?_
  | closed outcome => simp [Subscription.go] at h
  cases isCancelled with
  | true =>
    -- The wait is over at once, and nothing was called or sent.
    cases stage <;>
      simp [Subscription.go, Subscription.goStage, Subscription.goSend, Except.bind, Except.map,
        Subscription.arrived] at h <;> subst h
    all_goals
      refine turn_of_quiet rfl rfl ?_
      exact .cancelled rfl rfl
  | false =>
    cases stage with
    | counting =>
      simp only [Subscription.go, Subscription.goStage, guarded_live, Option.map_map,
        Option.map_eq_some_iff] at h
      obtain ⟨a, rfl, rfl⟩ := h
      refine turn_of_called rfl (Subscription.queued_arrived _ p _) ?_
      cases a with
      | ok a => exact .counted ⟨rfl, rfl⟩
      | error fault => exact .uncounted ⟨rfl, rfl⟩
    | announcing unread =>
      simp only [Subscription.go, Subscription.goStage, Subscription.goSend, Option.map_map,
        Option.map_eq_some_iff] at h
      obtain ⟨r, hr, rfl⟩ := h
      obtain ⟨hs, rfl⟩ | ⟨outbound', hs, rfl⟩ := emit_cases hr
      · refine turn_of_quiet rfl rfl ?_
        exact .unheard ⟨rfl, rfl⟩ hs
      · refine turn_of_sent rfl hs (Subscription.queued_arrived _ p _) ?_
        exact .announced ⟨rfl, rfl⟩ hs
    | pacing ticker emptyPolls =>
      simp only [Subscription.go, Subscription.goStage, guarded_live, Option.map_map,
        Option.map_eq_some_iff] at h
      obtain ⟨ticker', ht, rfl⟩ := h
      refine turn_of_quiet rfl rfl ?_
      exact .paced ⟨rfl, rfl⟩ ht
    | popping ticker emptyPolls =>
      simp only [Subscription.go, Subscription.goStage, guarded_live, Option.map_map,
        Option.map_eq_some_iff] at h
      obtain ⟨a, rfl, rfl⟩ := h
      refine turn_of_called rfl (Subscription.queued_arrived _ p _) ?_
      cases a with
      | error fault => exact .unpopped ⟨rfl, rfl⟩
      | ok a =>
        show Turn _ _ _ _ (Subscription.arrived _ p (.ok (.popped p ticker emptyPolls a.popped)))
        cases hp : a.popped with
        | some e => exact .popped ⟨rfl, rfl⟩ hp
        | none => exact .foundNone ⟨rfl, rfl⟩ hp
    | sending ticker e =>
      simp only [Subscription.go, Subscription.goStage, Subscription.goSend, Option.map_map,
        Option.map_eq_some_iff] at h
      obtain ⟨r, hr, rfl⟩ := h
      obtain ⟨hs, rfl⟩ | ⟨outbound', hs, rfl⟩ := emit_cases hr
      · refine turn_of_quiet rfl rfl ?_
        exact .unheard ⟨rfl, rfl⟩ hs
      · refine turn_of_sent rfl hs (Subscription.queued_arrived _ p _) ?_
        exact .delivered ⟨rfl, rfl⟩ hs
    | finished => simp [Subscription.go, Subscription.goStage] at h

theorem turn_of_go {s t : Subscription} {q : Queues} {interference : Option Interference}
    (h : s.go p now (q.answerAny interference s.awaits).1 = some t) :
    Turn p now s (s.deeds q interference t) t :=
  s.deeds_eq q interference t ▸ turn_of_answer h

end

theorem Subscription.clientMove_cases {s t : Subscription} {m : Move}
    (h : s.clientMove m = some t) : t.user = s.user ∧ t.phase = s.phase := by
  cases m with
  | read =>
    simp only [clientMove] at h
    split at h <;> simp at h
    subst h; exact ⟨rfl, rfl⟩
  | leave => simp only [clientMove, Option.some.injEq] at h; subst h; exact ⟨rfl, rfl⟩
  | cancel => simp only [clientMove, Option.some.injEq] at h; subst h; exact ⟨rfl, rfl⟩

theorem Subscription.awaits_ne_push {s : Subscription} {call : QueueCall}
    (h : s.awaits = some call) (e : NoteEvent) : call ≠ .push e := by
  unfold awaits at h
  split at h
  · simp at h
  · split at h <;> simp at h <;> subst h <;> simp

def Deed.taken (user : UserId) : Deed → List NoteEvent
  | .called call answer => call.taken user answer
  | .sent _ => []

theorem flatMap_taken_sent (user : UserId) (frames : List Frame) :
    (frames.map Deed.sent).flatMap (Deed.taken user) = [] := by
  induction frames with
  | nil => rfl
  | cons frame rest ih => exact ih

/-- The deeds of a subscription tell what its call has taken from the inboxes. -/
theorem Subscription.waiting_of_deeds (q : Queues) (interference : Option Interference)
    (s t : Subscription) (user : UserId) :
    q.inboxes.waiting user = (s.deeds q interference t).flatMap (Deed.taken user) ++
      (q.answerAny interference s.awaits).2.inboxes.waiting user := by
  rw [deeds, List.flatMap_append, flatMap_taken_sent, List.append_nil]
  cases h : s.awaits with
  | none => rfl
  | some call =>
    simpa [Deed.taken] using q.waiting_answer interference (awaits_ne_push h) user

theorem Subscription.counted_of_deeds {q : Queues} {interference : Option Interference}
    {s t : Subscription} {owner : UserId} {a : QueueAnswer}
    (hset : ∀ n, interference ≠ some (.counting n))
    (h : .called (.count owner) (.ok a) ∈ s.deeds q interference t) :
    a.counted = (q.inboxes.waiting owner).length := by
  simp only [deeds, List.mem_append, List.mem_map, Option.mem_toList, reduceCtorEq, and_false,
    exists_false, or_false, Deed.called.injEq] at h
  obtain ⟨call, _, rfl, ha⟩ := h
  exact q.counted_answer interference hset ha

end NoteRelay.Notify

-- ---------------------------------------------------------------------------
-- A move of the relay, to the inboxes and the subscriptions
-- ---------------------------------------------------------------------------

namespace NoteRelay.Relay

open Notify (Subscription Turn)

def pushedTo (user : UserId) (past : List Deed) : List NoteEvent :=
  past.filterMap fun d => match d with
    | .pushed e => if e.recipient = user then some e else none
    | _ => none

/-- The events that were popped for a user, and by which subscription. -/
def pops (user : UserId) (past : List Deed) : List (Nat × NoteEvent) :=
  past.flatMap fun d => match d with
    | .subscription key d => (d.taken user).map fun e => (key, e)
    | _ => []

@[simp] theorem pushedTo_append (user : UserId) (a b : List Deed) :
    pushedTo user (a ++ b) = pushedTo user a ++ pushedTo user b :=
  List.filterMap_append

@[simp] theorem pushedTo_map_chat (user : UserId) (id : SessionId) (ds : List Chat.Deed) :
    pushedTo user (ds.map (.chat id)) = [] := by
  simp [pushedTo, List.filterMap_map]

@[simp] theorem pushedTo_map_subscription (user : UserId) (key : Nat) (ds : List Notify.Deed) :
    pushedTo user (ds.map (.subscription key)) = [] := by
  simp [pushedTo, List.filterMap_map]

@[simp] theorem pops_append (user : UserId) (a b : List Deed) :
    pops user (a ++ b) = pops user a ++ pops user b :=
  List.flatMap_append

@[simp] theorem pops_map_chat (user : UserId) (id : SessionId) (ds : List Chat.Deed) :
    pops user (ds.map (.chat id)) = [] := by
  simp [pops]

@[simp] theorem pops_map_subscription (user : UserId) (key : Nat) (ds : List Notify.Deed) :
    pops user (ds.map (.subscription key)) =
      (ds.flatMap (Notify.Deed.taken user)).map fun e => (key, e) := by
  simp [pops, List.flatMap_map, List.map_flatMap]

/-- Whether a move sets the outcome of a count, which a queue never does. -/
def Move.setsCount : Move → Bool
  | .subscription _ (some (.counting _)) => true
  | _ => false

/-- A subscription that took no turn: its stage is what it was. -/
inductive Unturned : Option Subscription → Option Subscription → Prop where
  | absent : Unturned none none
  | present {s t : Subscription} :
      t.user = s.user → t.phase = s.phase → Unturned (some s) (some t)

theorem Unturned.refl (o : Option Subscription) : Unturned o o := by
  cases o with
  | none => exact .absent
  | some s => exact .present rfl rfl

/-- What a move that leads from `w` to `w'` is to the inboxes and the subscriptions, with the deeds
of the move. -/
inductive NotifyStep (u : Setup) (m : Move) (w w' : Relay) : List Deed → Prop where
  | quiet {new : List Deed} :
      (∀ key, Unturned (w.subscriptions.get? key) (w'.subscriptions.get? key)) →
      (∀ user, w'.queues.inboxes.waiting user = w.queues.inboxes.waiting user) →
      (∀ user, pushedTo user new = [] ∧ pops user new = []) →
      (∀ key, subscriptionDeeds key new = []) → NotifyStep u m w w' new
  | pushed {e : NoteEvent} :
      (∀ key, w'.subscriptions.get? key = w.subscriptions.get? key) →
      w'.queues.inboxes = w.queues.inboxes.push e → NotifyStep u m w w' [.pushed e]
  | subscribed {key : Nat} {user : UserId} {outbound : Channel Notify.Frame}
      {isCancelled : Bool} :
      w.subscriptions.get? key = none →
      (∀ k, w'.subscriptions.get? k = if k = key then some (.started user outbound isCancelled)
        else w.subscriptions.get? k) →
      w'.queues.inboxes = w.queues.inboxes → NotifyStep u m w w' []
  | turn {key : Nat} {s t : Subscription} {new : List Notify.Deed} :
      w.subscriptions.get? key = some s →
      (∀ k, w'.subscriptions.get? k = if k = key then some t else w.subscriptions.get? k) →
      Turn u.notify w.now s new t →
      (∀ user, w.queues.inboxes.waiting user =
        new.flatMap (Notify.Deed.taken user) ++ w'.queues.inboxes.waiting user) →
      (∀ owner a, .called (.count owner) (.ok a) ∈ new → m.setsCount = false →
        a.counted = (w.queues.inboxes.waiting owner).length) →
      NotifyStep u m w w' (new.map (.subscription key))

section
variable {u : Setup} {m : Move} {w w' : Relay}

theorem notifyStep_of_same (hs : w'.subscriptions = w.subscriptions)
    (hw : w'.queues.inboxes = w.queues.inboxes) : NotifyStep u m w w' [] := by
  refine .quiet (fun key => ?_) (fun user => ?_) (fun _ => ⟨rfl, rfl⟩) (fun _ => rfl)
  · rw [hs]
    exact .refl _
  · rw [hw]

theorem notifyStep_converse {id : SessionId} {inboundCapacity outboundCapacity : Nat}
    (h : w.converse u id inboundCapacity outboundCapacity = some w') : NotifyStep u m w w' [] := by
  unfold converse at h
  split at h
  · simp only [Option.some.injEq] at h
    subst h
    exact notifyStep_of_same rfl rfl
  · simp at h

theorem notifyStep_goChat {id : SessionId} {loop : Chat.Loop} {interference : Option Interference}
    (h : w.goChat u id loop interference = some w') :
    NotifyStep u m w w' (w.deeds (.chat id loop interference) w') := by
  obtain ⟨s, t, hs, -, rfl⟩ := goChat_eq_some.mp h
  simp only [deeds, hs, Table.get?_insert, if_true]
  refine .quiet (fun _ => .refl _) (fun user => ?_) (fun user => ?_) (fun key => ?_)
  · cases ha : s.awaits id loop with
    | none => rfl
    | some call =>
      exact congrArg (fun i => i.waiting user)
        (w.queues.inboxes_answer interference (Chat.Session.session_of_awaits ha))
  · simp
  · simp

theorem notifyStep_subscribe {key : Nat} {user : UserId} {capacity : Nat}
    (h : w.subscribe u key user capacity = some w') : NotifyStep u m w w' [] := by
  unfold subscribe at h
  split at h
  · rename_i outbound hnone _ _
    simp only [Option.some.injEq] at h
    subst h
    exact .subscribed hnone (fun k => Table.get?_insert ..) rfl
  · simp at h

theorem notifyStep_withSubscription {key : Nat} {move : Subscription.Move}
    (h : w.withSubscription key (fun s => s.clientMove move) = some w') :
    NotifyStep u m w w' [] := by
  simp only [withSubscription, Option.map_eq_some_iff, Option.bind_eq_some_iff] at h
  obtain ⟨t, ⟨s, hs, hm⟩, rfl⟩ := h
  refine .quiet (fun k => ?_) (fun _ => rfl) (fun _ => ⟨rfl, rfl⟩) (fun _ => rfl)
  rw [Table.get?_insert]
  by_cases hk : k = key
  · subst hk
    rw [if_pos rfl, hs]
    obtain ⟨huser, hphase⟩ := Subscription.clientMove_cases hm
    exact .present huser hphase
  · rw [if_neg hk]
    exact .refl _

theorem notifyStep_goSubscription {key : Nat} {interference : Option Interference}
    (h : w.goSubscription u key interference = some w') :
    NotifyStep u (.subscription key interference) w w'
      (w.deeds (.subscription key interference) w') := by
  obtain ⟨s, t, hs, ht, rfl⟩ := goSubscription_eq_some.mp h
  simp only [deeds, hs, Table.get?_insert, if_true]
  refine .turn hs (fun k => Table.get?_insert ..) (Notify.turn_of_go ht)
    (fun user => Subscription.waiting_of_deeds _ _ s t user) ?_
  intro owner a ha hsets
  refine Subscription.counted_of_deeds ?_ ha
  rintro n rfl
  simp [Move.setsCount] at hsets

theorem notify_step (h : w.step u m = some w') : NotifyStep u m w w' (w.deeds m w') := by
  cases m with
  | pass ms =>
    simp only [step, Option.some.injEq] at h
    subst h
    exact notifyStep_of_same rfl rfl
  | push e =>
    simp only [step, Option.some.injEq] at h
    subst h
    exact .pushed (fun _ => rfl) rfl
  | publish change owner note time fault =>
    simp only [step, Option.some.injEq] at h
    subst h
    cases fault with
    | none => exact .pushed (fun _ => rfl) rfl
    | some fault => exact notifyStep_of_same rfl rfl
  | converse id inboundCapacity outboundCapacity => exact notifyStep_converse h
  | chatClient id move =>
    simp only [step, withChat, Option.map_eq_some_iff] at h
    obtain ⟨t, -, rfl⟩ := h
    exact notifyStep_of_same rfl rfl
  | chat id loop interference => exact notifyStep_goChat h
  | subscribe key user capacity => exact notifyStep_subscribe h
  | subscriber key move => exact notifyStep_withSubscription h
  | subscription key interference => exact notifyStep_goSubscription h
  | shutDown =>
    simp only [step, Option.some.injEq] at h
    subst h
    refine .quiet (fun k => ?_) (fun _ => rfl) (fun _ => ⟨rfl, rfl⟩) (fun _ => rfl)
    rw [Table.get?_mapValues]
    cases w.subscriptions.get? k with
    | none => exact .absent
    | some s => exact .present rfl rfl

end

end NoteRelay.Relay
