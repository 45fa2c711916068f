import NoteRelay.Proofs.Lifetimes
import NoteRelay.Proofs.Socket.Writing

/-!
# What a subscriber sends

Of the messages that come in on a connection for note events, only those matter that show that the
client has left. Occasions that differ in other messages lead to the same connection and the same
subscription (`NotesConnection.course_filter`). A client that leaves ends its own subscription, and
no other one and no chat session; the end of the relay ends them all (`only_leaving_matters`).
-/

namespace NoteRelay.Socket

open Notify (Subscription)

/-- A client has left when it closes, when the socket fails, and when the messages end. -/
inductive Leaves : Option Incoming → Prop where
  | closed : Leaves (some .close)
  | failed (text : String) : Leaves (some (.failure text))
  | ended : Leaves none

theorem hasLeft_iff {m : Option Incoming} : hasLeft m = true ↔ Leaves m := by
  constructor
  · intro h
    match m with
    | none => exact .ended
    | some .close => exact .closed
    | some (.failure text) => exact .failed text
  · rintro (_ | _ | _) <;> rfl

namespace NotesConnection

/-- Data messages and the pings that go with them do not matter. -/
def Occasion.matters : Occasion → Bool
  | .socket (.receive (some (.text _))) => false
  | .socket (.receive (some (.binary _))) => false
  | .socket (.receive (some .ping)) => false
  | .socket (.receive (some .pong)) => false
  | _ => true

def Occasion.isLeaving : Occasion → Bool
  | .socket (.receive (some .close)) => true
  | .socket (.receive (some (.failure _))) => true
  | .socket (.receive none) => true
  | _ => false

theorem Occasion.matters_receive (m : Option Incoming) :
    (Occasion.socket (.receive m)).matters = hasLeft m := by
  cases m with
  | none => rfl
  | some m => cases m <;> rfl

theorem Occasion.isLeaving_receive (m : Option Incoming) :
    (Occasion.socket (.receive m)).isLeaving = hasLeft m := by
  cases m with
  | none => rfl
  | some m => cases m <;> rfl

section
variable {p : Notify.Policy} {w w' : NotesConnection × Subscription} {c c' : NotesConnection}
  {s t : Subscription} {o : Occasion} {os : List Occasion} {m : Option Incoming}
  {new deeds : List Notify.Deed}

theorem isSome_receive? :
    (c.receive? s m).isSome = true ↔ c.isWatching = true ∧ s.isOver = false := by
  unfold receive?
  cases c.isWatching <;> cases s.isOver <;> cases hasLeft m <;> simp

theorem receive?_of_stays (hm : hasLeft m = false) (h : c.receive? s m = some w') :
    w' = (c, s) := by
  simp only [receive?, hm] at h
  split at h <;> simp_all

theorem receive?_of_leaves (hm : hasLeft m = true) (h : c.receive? s m = some w') :
    s.isOver = false ∧ w' = ({ c with isWatching := false }, { s with isCancelled := true }) := by
  simp only [receive?, hm] at h
  split at h <;> simp_all

-- ---------------------------------------------------------------------------
-- What does not matter
-- ---------------------------------------------------------------------------

theorem occur_of_not_matters (ho : o.matters = false)
    (h : (machine p).occur w o = some (new, w')) : new = [] ∧ w' = w := by
  cases o with
  | cancel | turn => simp [Occasion.matters] at ho
  | socket move =>
    cases move with
    | forward | write => simp [Occasion.matters] at ho
    | receive m =>
      simp only [machine, go?, Option.map_eq_some_iff, Prod.mk.injEq] at h
      obtain ⟨w', h, rfl, rfl⟩ := h
      exact ⟨rfl, receive?_of_stays (ho ▸ (Occasion.matters_receive m).symm) h⟩

theorem course_filter (h : (machine p).course w os = some (deeds, w')) :
    (machine p).course w (os.filter Occasion.matters) = some (deeds, w') := by
  refine Machine.course_induction (P := fun os deeds w' =>
    (machine p).course w (os.filter Occasion.matters) = some (deeds, w')) rfl ?_ h
  intro os deeds v o new w' _ hv hoccur
  rw [List.filter_append]
  cases ho : o.matters with
  | false =>
    obtain ⟨rfl, rfl⟩ := occur_of_not_matters ho hoccur
    simpa [ho] using hv
  | true =>
    rw [List.filter_cons_of_pos ho]
    exact Machine.course_append_single.mpr ⟨deeds, v, new, hv, hoccur, rfl⟩

theorem isWatching_of_occur (h : (machine p).occur w o = some (new, w')) :
    w'.1.isWatching = (w.1.isWatching && !o.isLeaving) := by
  cases o with
  | cancel =>
    cases h
    simp [Occasion.isLeaving]
  | turn now answer =>
    simp only [machine, Option.map_eq_some_iff, Prod.mk.injEq] at h
    obtain ⟨t, -, -, rfl⟩ := h
    simp [Occasion.isLeaving]
  | socket move =>
    simp only [machine, Option.map_eq_some_iff, Prod.mk.injEq] at h
    obtain ⟨w', h, -, rfl⟩ := h
    cases move with
    | forward => cases h
    | receive m =>
      cases hm : hasLeft m with
      | false =>
        obtain rfl := receive?_of_stays hm h
        simp [Occasion.isLeaving_receive, hm]
      | true =>
        obtain ⟨-, rfl⟩ := receive?_of_leaves hm h
        simp [Occasion.isLeaving_receive, hm]
    | write isFailing =>
      simp only [go?, write?, Option.map_eq_some_iff, Prod.exists] at h
      obtain ⟨m, writer, outbound, -, h⟩ := h
      cases isFailing <;> cases h <;> simp [Occasion.isLeaving]

theorem isWatching_of_course (h : (machine p).course w os = some (deeds, w')) :
    w'.1.isWatching = (w.1.isWatching && !os.any Occasion.isLeaving) := by
  refine Machine.course_induction (P := fun os _ w' =>
    w'.1.isWatching = (w.1.isWatching && !os.any Occasion.isLeaving)) (by simp) ?_ h
  intro os deeds v o new w' _ hv hoccur
  rw [isWatching_of_occur hoccur, hv, List.any_append, List.any_cons, List.any_nil, Bool.or_false,
    Bool.not_or, Bool.and_assoc]

-- ---------------------------------------------------------------------------
-- The subscription of a connection
-- ---------------------------------------------------------------------------

/-- What a write does to the subscription, its client could do: it takes a frame, or no more of
them. -/
theorem exists_course_of_write {isFailing : Bool} (h : c.write? s isFailing = some (c', t)) :
    ∃ os, (Subscription.machine p).course s os = some ([], t) := by
  simp only [write?, Option.map_eq_some_iff, Prod.exists] at h
  obtain ⟨m, writer, outbound, hnext, h⟩ := h
  cases isFailing with
  | true =>
    cases h
    refine ⟨[.outside .leave], Machine.course_single.mpr ?_⟩
    refine Subscription.occur_outside.mpr ⟨?_, rfl⟩
    rw [Writer.abandoned_of_next? hnext]
    rfl
  | false =>
    cases h
    obtain rfl | ⟨frame, hframe⟩ := Writer.outbound_of_next? hnext
    · exact ⟨[], rfl⟩
    · refine ⟨[.outside .read], Machine.course_single.mpr ?_⟩
      refine Subscription.occur_outside.mpr ⟨?_, rfl⟩
      simp [Subscription.clientMove, hframe]

theorem exists_course_of_occur (h : (machine p).occur w o = some (new, w')) :
    ∃ os, (Subscription.machine p).course w.2 os = some (new, w'.2) := by
  cases o with
  | cancel =>
    cases h
    exact ⟨[.outside .cancel], rfl⟩
  | turn now answer =>
    simp only [machine, Option.map_eq_some_iff, Prod.mk.injEq] at h
    obtain ⟨t, h, rfl, rfl⟩ := h
    refine ⟨[.turn now answer], Machine.course_single.mpr ?_⟩
    exact Subscription.occur_turn.mpr ⟨h, rfl⟩
  | socket move =>
    simp only [machine, Option.map_eq_some_iff, Prod.mk.injEq] at h
    obtain ⟨w', h, rfl, rfl⟩ := h
    cases move with
    | forward => cases h
    | write isFailing => exact exists_course_of_write h
    | receive m =>
      cases hm : hasLeft m with
      | false =>
        obtain rfl := receive?_of_stays hm h
        exact ⟨[], rfl⟩
      | true =>
        obtain ⟨-, rfl⟩ := receive?_of_leaves hm h
        exact ⟨[.outside .cancel], rfl⟩

theorem exists_course (h : (machine p).course w os = some (deeds, w')) :
    ∃ os', (Subscription.machine p).course w.2 os' = some (deeds, w'.2) := by
  refine Machine.course_induction (P := fun _ deeds w' =>
    ∃ os', (Subscription.machine p).course w.2 os' = some (deeds, w'.2)) ⟨[], rfl⟩ ?_ h
  rintro os deeds v o new w' - ⟨os', hv⟩ hoccur
  obtain ⟨others, hothers⟩ := exists_course_of_occur hoccur
  exact ⟨os' ++ others, Machine.course_append.mpr ⟨deeds, v.2, new, hv, hothers, rfl⟩⟩

/-- When the client leaves, nothing more is done, and the subscription ends as cancelled. -/
theorem ends_of_leaving {key capacity : Nat} {user : UserId} {isCancelled : Bool}
    {before after : List Occasion} (hm : hasLeft m = true)
    (h : (machine p).course ({ key }, .started user { capacity } isCancelled)
      (before ++ .socket (.receive m) :: after) = some (deeds, (c, s))) :
    (∃ c' s', (machine p).course ({ key }, .started user { capacity } isCancelled) before =
      some (deeds, (c', s')) ∧ s'.isOver = false) ∧
    s.Ends p (.error (p.rulebook.statusOf .cancelled)) := by
  obtain ⟨past, ⟨c', s'⟩, rest, hbefore, hrest, rfl⟩ := Machine.course_append.mp h
  obtain ⟨new, w', later, hoccur, hafter, rfl⟩ := Machine.course_cons.mp hrest
  simp only [machine, go?, Option.map_eq_some_iff, Prod.mk.injEq] at hoccur
  obtain ⟨w', hreceive, rfl, rfl⟩ := hoccur
  obtain ⟨hover, rfl⟩ := receive?_of_leaves hm hreceive
  obtain ⟨os, hpast⟩ := exists_course hbefore
  obtain ⟨os', hlater⟩ := exists_course hafter
  have hcancel : (Subscription.machine p).course _ (os ++ [.outside .cancel]) =
      some (past ++ [], { s' with isCancelled := true }) :=
    Machine.course_append_single.mpr ⟨past, s', [], hpast, rfl, rfl⟩
  obtain ⟨rfl, -⟩ := Subscription.cutShort rfl hlater
  have hends := Subscription.ends_of_course hcancel rfl hlater
  have hrunning : s'.outcome? = none := by simpa [Subscription.isOver] using hover
  rw [Subscription.endIfCancelled_of_live (s := { s' with isCancelled := true }) hrunning] at hends
  exact ⟨⟨c', s', by simpa using hbefore, hover⟩, hends⟩

end

end NotesConnection

section
variable {u : Relay.Setup} {w w' v v' : Relay} {before after after' : List Relay.Move}
  {c c' : NotesConnection} {m : Option Incoming}

theorem step_of_leaving (hm : hasLeft m = true) (h : c.step w (.receive m) = some (c', w')) :
    w.step u (.subscriber c.key .cancel) = some w' := by
  simp only [NotesConnection.step, Option.map_eq_some_iff, Option.bind_eq_some_iff,
    Prod.mk.injEq, Prod.exists] at h
  obtain ⟨c₁, t, ⟨s, hs, h⟩, -, rfl⟩ := h
  obtain ⟨-, heq⟩ := NotesConnection.receive?_of_leaves hm h
  obtain ⟨rfl, rfl⟩ := Prod.mk.inj heq
  simp [Relay.step, Relay.withSubscription, hs, Subscription.clientMove]

theorem chat_of_leaving {id : SessionId} (hbefore : (Relay.started u).run u before = some w)
    (hm : hasLeft m = true) (h : c.step w (.receive m) = some (c', w'))
    (hafter : w'.run u after = some v) (hafter' : w.run u after' = some v')
    (hmoves : Relay.alone id after = Relay.alone id after')
    (hids : w'.handed u id after = w.handed u id after') : v.chats.get? id = v'.chats.get? id := by
  have hstep := step_of_leaving (u := u) hm h
  have hrun : (Relay.started u).run u (before ++ .subscriber c.key .cancel :: after) = some v := by
    simp [Relay.run_append, hbefore, Relay.run, hstep, hafter]
  have hrun' : (Relay.started u).run u (before ++ after') = some v' := by
    simp [Relay.run_append, hbefore, hafter']
  refine Relay.chat_of_alone hrun hrun' ?_ ?_
  · have hnone : (Relay.Move.subscriber c.key .cancel).concerns id = false := rfl
    rw [Relay.alone_append, Relay.alone_append, Relay.alone_cons_of_unconcerned hnone, hmoves]
  · rw [Relay.handed_append hbefore, Relay.handed_append hbefore, ← hids]
    simp [Relay.handed, hstep, Relay.handedOn]

theorem subscription_of_leaving {key : Nat} (hkey : key ≠ c.key) (hm : hasLeft m = true)
    (h : c.step w (.receive m) = some (c', w')) (hafter : w'.run u after = some v)
    (hafter' : w.run u after' = some v')
    (hsame : w'.collect (Relay.subscriptionHappenings key) u after =
      w.collect (Relay.subscriptionHappenings key) u after') :
    v.subscriptions.get? key = v'.subscriptions.get? key := by
  have hstep := step_of_leaving (u := u) hm h
  have hnone : (Relay.Move.subscriber c.key .cancel).regards key = false := by
    simp [Relay.Move.regards, Ne.symm hkey]
  exact Relay.subscription_of_happenings (Relay.unregarded hnone hstep) hafter hafter' hsame

end

open NotesConnection in
/-- Of what the client of a subscription sends, only its leaving matters. Courses that differ in
other messages alone do the same, write the same and get to the same state; and these messages do
not keep the connection from the next one. A message that shows that the client has left, or the end
of the messages, ends the subscription as cancelled when it is read before that is over: nothing is
done behind it, and the next turn is the end.

Nobody else notices. A chat session is in the same state whether or not the client leaves, whatever
the subscriptions do then; another subscription is, if its queue answers the same at the same times.
What cancels a session is its own cancellation or that of the relay, and nothing else. The
cancellation of the relay ends everything as cancelled that does not have its end already, and what
starts behind it as well. -/
theorem only_leaving_matters :
    (∀ p w os os' r r', (machine p).course w os = some r → (machine p).course w os' = some r' →
      os.filter Occasion.matters = os'.filter Occasion.matters → r = r') ∧
    (∀ p key user capacity isCancelled os deeds c s,
      (machine p).course ({ key }, .started user { capacity } isCancelled) os =
        some (deeds, (c, s)) →
      (∀ m, (c.receive? s m).isSome = true ↔
        s.isOver = false ∧ os.any Occasion.isLeaving = false) ∧
      ∀ before m after, os = before ++ .socket (.receive m) :: after → Leaves m →
        (∃ c' s', (machine p).course ({ key }, .started user { capacity } isCancelled) before =
          some (deeds, (c', s')) ∧ s'.isOver = false) ∧
        s.Ends p (.error (p.rulebook.statusOf .cancelled))) ∧
    (∀ u before w (c : NotesConnection) m c' w' after v after' v',
      (Relay.started u).run u before = some w →
      Leaves m → c.step w (.receive m) = some (c', w') →
      w'.run u after = some v → w.run u after' = some v' →
      (∀ id, Relay.alone id after = Relay.alone id after' →
        w'.handed u id after = w.handed u id after' → v.chats.get? id = v'.chats.get? id) ∧
      ∀ key, key ≠ c.key → w'.collect (Relay.subscriptionHappenings key) u after =
          w.collect (Relay.subscriptionHappenings key) u after' →
        v.subscriptions.get? key = v'.subscriptions.get? key) ∧
    (∀ u moves w, (Relay.started u).run u moves = some w →
      (∀ id s, w.chats.get? id = some s →
        (s.isCancelled = true ↔ .chatClient id .cancel ∈ moves ∨ .shutDown ∈ moves)) ∧
      ∀ key s, w.subscriptions.get? key = some s →
        (s.isCancelled = true ↔ .subscriber key .cancel ∈ moves ∨ .shutDown ∈ moves)) ∧
    ∀ u before w after v, (Relay.started u).run u before = some w →
      w.run u (.shutDown :: after) = some v →
      (∀ id, ((w.chats.get? id).isSome = true → (v.chats.get? id).isSome = true) ∧
        ∀ t, v.chats.get? id = some t → t.Ends u.chat u.supply id (w.chatEnd u id)) ∧
      ∀ key,
        ((w.subscriptions.get? key).isSome = true → (v.subscriptions.get? key).isSome = true) ∧
        ∀ t, v.subscriptions.get? key = some t → t.Ends u.notify (w.subscriptionEnd u key) := by
  refine ⟨?_, ?_, ?_, ?_, ?_⟩
  · rintro p w os os' ⟨deeds, w'⟩ ⟨deeds', w''⟩ h h' hsame
    have hfirst := course_filter h
    rw [hsame, course_filter h'] at hfirst
    exact (Option.some.inj hfirst).symm
  · intro p key user capacity isCancelled os deeds c s h
    refine ⟨fun m => ?_, ?_⟩
    · have hwatching : c.isWatching = !os.any Occasion.isLeaving := isWatching_of_course h
      rw [isSome_receive?, hwatching, and_comm, Bool.not_eq_true']
    · rintro before m after rfl hm
      exact ends_of_leaving (hasLeft_iff.mpr hm) h
  · intro u before w c m c' w' after v after' v' hbefore hm h hafter hafter'
    have hleft := hasLeft_iff.mpr hm
    exact ⟨fun id hmoves hids => chat_of_leaving hbefore hleft h hafter hafter' hmoves hids,
      fun key hkey hsame => subscription_of_leaving hkey hleft h hafter hafter' hsame⟩
  · intro u moves w hrun
    constructor
    · intro id s hs
      have hcancelled := Relay.isChatCancelled_run id hrun
      simpa [Relay.isChatCancelled, hs, Relay.started] using hcancelled
    · intro key s hs
      have hcancelled := Relay.isSubscriptionCancelled_run key hrun
      simpa [Relay.isSubscriptionCancelled, hs, Relay.started] using hcancelled
  · intro u before w after v hbefore hafter
    exact ⟨fun id => ⟨Relay.isSome_chat hafter, fun t => Relay.chat_ends hbefore hafter⟩,
      fun key => ⟨Relay.isSome_subscription hafter, fun t =>
        Relay.subscription_ends hbefore hafter⟩⟩

/-- The events that wait are counted and told, between messages that do not matter. -/
def countedAmongMessages : List NotesConnection.Occasion :=
  [.socket (.receive (some (.text "stop"))), .turn 0 (some (.ok (.number 2))),
    .socket (.receive (some .ping)), .turn 0 none, .socket (.write false)]

/-- What comes in when the client leaves, in each of the ways to leave. -/
def farewells : List (Option Incoming) :=
  [some .close, some (.failure "connection reset"), none]

/-- The client leaves when that has been told, and what it is told then is how it ended. -/
def countedThenLeft (farewell : Option Incoming) : List NotesConnection.Occasion :=
  [.turn 0 (some (.ok (.number 2))), .turn 0 none, .socket (.receive (some .pong))]
    ++ .socket (.receive farewell) ::
      [.socket (.write false), .turn 9 none, .socket (.write false), .socket (.write false)]

theorem leaves_of_mem_farewells {m : Option Incoming} (h : m ∈ farewells) : Leaves m := by
  simp only [farewells, List.mem_cons, List.not_mem_nil, or_false] at h
  obtain rfl | rfl | rfl := h
  · exact .closed
  · exact .failed _
  · exact .ended

def company : List Relay.Move :=
  [.converse ⟨"desk"⟩ 4 4, .subscribe 1 ⟨1⟩ 4, .subscribe 2 ⟨2⟩ 4]

def withoutFirst : List Relay.Move :=
  [.subscription 1 none, .chat ⟨"desk"⟩ .delivery none, .subscription 2 none]

def withFirst : List Relay.Move :=
  [.chat ⟨"desk"⟩ .delivery none, .subscription 2 none, .subscription 1 none, .subscription 1 none]

open NotesConnection in
theorem only_leaving_matters_counted :
    (∃ r r', (machine Relay.brisk.notify).course
        ({ key := 1 }, .started ⟨1⟩ { capacity := 4 } false) countedAmongMessages = some r ∧
      (machine Relay.brisk.notify).course
        ({ key := 1 }, .started ⟨1⟩ { capacity := 4 } false)
        (countedAmongMessages.filter Occasion.matters) = some r' ∧
      r = r' ∧ r.2.1.written = [.frame (.ofCount 2)]) ∧
    (∀ farewell ∈ farewells, ∃ deeds c s, (machine Relay.brisk.notify).course
        ({ key := 1 }, .started ⟨1⟩ { capacity := 4 } false) (countedThenLeft farewell) =
          some (deeds, (c, s)) ∧
      c.written = [.frame (.ofCount 2),
        .terminal (Relay.brisk.notify.rulebook.statusOf .cancelled), .close 1011] ∧
      s.Ends Relay.brisk.notify (.error (Relay.brisk.notify.rulebook.statusOf .cancelled))) ∧
    (∀ farewell ∈ farewells, ∃ w c' w' v v',
      (Relay.started Relay.brisk).run Relay.brisk company = some w ∧
      ({ key := 1 } : NotesConnection).step w (.receive farewell) = some (c', w') ∧
      w'.run Relay.brisk withoutFirst = some v ∧ w.run Relay.brisk withFirst = some v' ∧
      v.chats.get? ⟨"desk"⟩ = v'.chats.get? ⟨"desk"⟩ ∧
      v.subscriptions.get? 2 = v'.subscriptions.get? 2) ∧
    (∃ w s, (Relay.started Relay.brisk).run Relay.brisk
        (company ++ [.subscriber 1 .cancel]) = some w ∧
      w.subscriptions.get? 2 = some s ∧ ¬ s.isCancelled = true) ∧
    ∃ w v s t, (Relay.started Relay.brisk).run Relay.brisk company = some w ∧
      w.run Relay.brisk [.shutDown, .subscribe 3 ⟨1⟩ 4] = some v ∧
      v.chats.get? ⟨"desk"⟩ = some s ∧ v.subscriptions.get? 3 = some t ∧
      s.Ends Relay.brisk.chat Relay.brisk.supply ⟨"desk"⟩
        (.error (Relay.brisk.chat.rulebook.statusOf .cancelled)) ∧
      t.Ends Relay.brisk.notify (.error (Relay.brisk.notify.rulebook.statusOf .cancelled)) := by
  obtain ⟨hmessages, hleaving, hothers, hflags, hshutDown⟩ := only_leaving_matters
  refine ⟨?_, ?_, ?_, ?_, ?_⟩
  · have h : (machine Relay.brisk.notify).course
        ({ key := 1 }, .started ⟨1⟩ { capacity := 4 } false) countedAmongMessages =
          some (_, _) := rfl
    have h' : (machine Relay.brisk.notify).course
        ({ key := 1 }, .started ⟨1⟩ { capacity := 4 } false)
        (countedAmongMessages.filter Occasion.matters) = some (_, _) := rfl
    exact ⟨_, _, h, h', hmessages _ _ _ _ _ _ h h' (by simp), rfl⟩
  · intro farewell hfarewell
    have hleaves := leaves_of_mem_farewells hfarewell
    obtain ⟨deeds, c, s, h, hwritten⟩ : ∃ deeds c s, (machine Relay.brisk.notify).course
        ({ key := 1 }, .started ⟨1⟩ { capacity := 4 } false) (countedThenLeft farewell) =
          some (deeds, (c, s)) ∧
        c.written = [.frame (.ofCount 2),
          .terminal (Relay.brisk.notify.rulebook.statusOf .cancelled), .close 1011] := by
      cases hleaves <;> exact ⟨_, _, _, rfl, rfl⟩
    exact ⟨deeds, c, s, h, hwritten, ((hleaving _ _ _ _ _ _ _ _ _ h).2 _ _ _ rfl hleaves).2⟩
  · intro farewell hfarewell
    have hleaves := leaves_of_mem_farewells hfarewell
    obtain ⟨w, c', w', v, v', hw, hleft, hv, hv', hids, hsame⟩ : ∃ w c' w' v v',
        (Relay.started Relay.brisk).run Relay.brisk company = some w ∧
        ({ key := 1 } : NotesConnection).step w (.receive farewell) = some (c', w') ∧
        w'.run Relay.brisk withoutFirst = some v ∧ w.run Relay.brisk withFirst = some v' ∧
        w'.handed Relay.brisk ⟨"desk"⟩ withoutFirst = w.handed Relay.brisk ⟨"desk"⟩ withFirst ∧
        w'.collect (Relay.subscriptionHappenings 2) Relay.brisk withoutFirst =
          w.collect (Relay.subscriptionHappenings 2) Relay.brisk withFirst := by
      cases hleaves <;> exact ⟨_, _, _, _, _, rfl, rfl, rfl, rfl, rfl, rfl⟩
    obtain ⟨hchats, hsubscriptions⟩ :=
      hothers _ _ _ _ _ _ _ _ _ _ _ hw hleaves hleft hv hv'
    exact ⟨w, c', w', v, v', hw, hleft, hv, hv', hchats ⟨"desk"⟩ rfl hids,
      hsubscriptions 2 (by decide) hsame⟩
  · obtain ⟨w, s, hw, hs⟩ : ∃ w s, (Relay.started Relay.brisk).run Relay.brisk
        (company ++ [.subscriber 1 .cancel]) = some w ∧ w.subscriptions.get? 2 = some s :=
      ⟨_, _, rfl, rfl⟩
    refine ⟨w, s, hw, hs, ?_⟩
    rw [(hflags _ _ _ hw).2 2 s hs]
    simp [company]
  · obtain ⟨w, v, s, t, hw, hv, hs, ht, hchat, hsubscription⟩ : ∃ w v s t,
        (Relay.started Relay.brisk).run Relay.brisk company = some w ∧
        w.run Relay.brisk [.shutDown, .subscribe 3 ⟨1⟩ 4] = some v ∧
        v.chats.get? ⟨"desk"⟩ = some s ∧ v.subscriptions.get? 3 = some t ∧
        w.chatEnd Relay.brisk ⟨"desk"⟩ =
          .error (Relay.brisk.chat.rulebook.statusOf .cancelled) ∧
        w.subscriptionEnd Relay.brisk 3 =
          .error (Relay.brisk.notify.rulebook.statusOf .cancelled) :=
      ⟨_, _, _, _, rfl, rfl, rfl, rfl, rfl, rfl⟩
    obtain ⟨hchats, hsubscriptions⟩ := hshutDown _ _ _ _ _ hw hv
    exact ⟨w, v, s, t, hw, hv, hs, ht, hchat ▸ (hchats ⟨"desk"⟩).2 s hs,
      hsubscription ▸ (hsubscriptions 3).2 t ht⟩

end NoteRelay.Socket
