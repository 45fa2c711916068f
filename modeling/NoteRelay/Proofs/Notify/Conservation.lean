import Mathlib.Data.List.Forall2
import NoteRelay.Proofs.Notify.Turn
import NoteRelay.Proofs.Wire

/-!
# Conservation of events

Every event that is pushed for a user waits in its inbox until one subscription of the user pops it
and sends it on. Nothing is lost, doubled or brought out of order (`Relay.events_conserved`), but
for the one event that a subscription may have popped and not sent when it fails.
-/

namespace NoteRelay.Notify

def frames (past : List Deed) : List Frame :=
  past.filterMap fun d => match d with
    | .sent frame => some frame
    | _ => none

@[simp] theorem frames_append (a b : List Deed) : frames (a ++ b) = frames a ++ frames b :=
  List.filterMap_append

/-- What a subscription has sent, and what it has taken from the inbox, at each of its phases.
`counted` tells which numbers it may have counted. -/
inductive Told (counted : Nat → Prop) : Phase → List Frame → List NoteEvent → Prop where
  | counting : Told counted (.running .counting) [] []
  | announcing {n : Nat} : counted n → Told counted (.running (.announcing n)) [] []
  | pacing {n emptyPolls : Nat} {ticker : Ticker} {sent : List NoteEvent} :
      counted n → Told counted (.running (.pacing ticker emptyPolls))
        (.ofCount n :: sent.map .ofEvent) sent
  | popping {n emptyPolls : Nat} {ticker : Ticker} {sent : List NoteEvent} :
      counted n → Told counted (.running (.popping ticker emptyPolls))
        (.ofCount n :: sent.map .ofEvent) sent
  /-- One event is taken and not yet sent. -/
  | sending {n : Nat} {ticker : Ticker} {e : NoteEvent} {sent : List NoteEvent} :
      counted n → Told counted (.running (.sending ticker e))
        (.ofCount n :: sent.map .ofEvent) (sent ++ [e])
  | done {n : Nat} {sent : List NoteEvent} :
      counted n → Told counted (.closed (.ok ())) (.ofCount n :: sent.map .ofEvent) sent
  | failedEarly {status : Status} : Told counted (.closed (.error status)) [] []
  | failed {n : Nat} {status : Status} {sent held : List NoteEvent} :
      counted n → held.length ≤ 1 → Told counted (.closed (.error status))
        (.ofCount n :: sent.map .ofEvent) (sent ++ held)

section
variable {counted : Nat → Prop} {phase : Phase} {fs : List Frame} {es : List NoteEvent}

theorem Told.mono (h : Told counted phase fs es) {counted' : Nat → Prop}
    (hmono : ∀ n, counted n → counted' n) : Told counted' phase fs es := by
  cases h with
  | counting => exact .counting
  | announcing hn => exact .announcing (hmono _ hn)
  | pacing hn => exact .pacing (hmono _ hn)
  | popping hn => exact .popping (hmono _ hn)
  | sending hn => exact .sending (hmono _ hn)
  | done hn => exact .done (hmono _ hn)
  | failedEarly => exact .failedEarly
  | failed hn hheld => exact .failed (hmono _ hn) hheld

theorem Told.failed_holding_none {n : Nat} {sent : List NoteEvent} (hn : counted n)
    (status : Status) :
    Told counted (.closed (.error status)) (.ofCount n :: sent.map .ofEvent) sent := by
  have h : Told counted (.closed (.error status)) (.ofCount n :: sent.map .ofEvent) (sent ++ []) :=
    .failed hn (Nat.zero_le _)
  rwa [List.append_nil] at h

/-- A subscription may fail at every stage, and loses the event that it holds. -/
theorem Told.fail {stage : Stage} (h : Told counted (.running stage) fs es) (status : Status) :
    Told counted (.closed (.error status)) fs es := by
  cases h with
  | counting => exact .failedEarly
  | announcing => exact .failedEarly
  | pacing hn => exact .failed_holding_none hn status
  | popping hn => exact .failed_holding_none hn status
  | sending hn => exact .failed hn (Nat.le_refl 1)

theorem Told.polled {s : Subscription} {p : Policy} {ticker : Ticker} {n emptyPolls : Nat}
    (sent : List NoteEvent) (hn : counted n) :
    Told counted (s.arrived p (.ok (.polling p ticker emptyPolls))).phase
      (.ofCount n :: sent.map .ofEvent) sent := by
  rw [Subscription.arrived_polling]
  split
  · exact .pacing hn
  · exact .done hn

/-- What was taken was sent, but for at most one event. -/
theorem Told.taken_eq (h : Told counted phase fs es) : (fs = [] ∧ es = []) ∨
    ∃ n sent held, counted n ∧ fs = .ofCount n :: sent.map .ofEvent ∧ es = sent ++ held ∧
      (held = [] ∨ (∃ ticker e, phase = .running (.sending ticker e) ∧ held = [e]) ∨
        ∃ status e, phase = .closed (.error status) ∧ held = [e]) := by
  cases h with
  | counting => exact .inl ⟨rfl, rfl⟩
  | announcing => exact .inl ⟨rfl, rfl⟩
  | pacing hn => exact .inr ⟨_, _, [], hn, rfl, (List.append_nil _).symm, .inl rfl⟩
  | popping hn => exact .inr ⟨_, _, [], hn, rfl, (List.append_nil _).symm, .inl rfl⟩
  | sending hn => exact .inr ⟨_, _, _, hn, rfl, rfl, .inr (.inl ⟨_, _, rfl, rfl⟩)⟩
  | done hn => exact .inr ⟨_, _, [], hn, rfl, (List.append_nil _).symm, .inl rfl⟩
  | failedEarly => exact .inl ⟨rfl, rfl⟩
  | @failed n status sent held hn hheld =>
    refine .inr ⟨n, sent, held, hn, rfl, rfl, ?_⟩
    cases held with
    | nil => exact .inl rfl
    | cons e rest =>
      obtain rfl : rest = [] := by simpa using hheld
      exact .inr (.inr ⟨_, e, rfl, rfl⟩)

theorem Told.turn {p : Policy} {now : Nat} {s t : Subscription} {new : List Deed}
    (h : Told counted s.phase fs es) (hturn : Turn p now s new t)
    (hcount : ∀ a, .called (.count s.user) (.ok a) ∈ new → counted a.counted) :
    Told counted t.phase (fs ++ frames new) (es ++ new.flatMap (Deed.taken s.user)) := by
  cases hturn with
  | cancelled hs _ =>
    rw [hs] at h
    simpa [frames, Subscription.finished] using h.fail _
  | counted hs =>
    rw [hs.1] at h
    cases h
    simpa [frames, Deed.taken, QueueCall.taken] using Told.announcing (hcount _ (by simp))
  | uncounted hs =>
    rw [hs.1] at h
    simpa [frames, Subscription.finished, Deed.taken, QueueCall.taken] using h.fail _
  | announced hs _ =>
    rw [hs.1] at h
    cases h with
    | announcing hn => simpa [frames, Deed.taken] using Told.polled [] hn
  | unheard hs _ =>
    rw [hs.1] at h
    simpa [frames, Subscription.finished] using h.fail _
  | paced hs _ =>
    rw [hs.1] at h
    cases h with
    | pacing hn => simpa [frames] using Told.popping hn
  | popped hs hp =>
    rw [hs.1] at h
    cases h with
    | popping hn => simpa [frames, Deed.taken, QueueCall.taken, hp] using Told.sending hn
  | foundNone hs hp =>
    rw [hs.1] at h
    cases h with
    | popping hn => simpa [frames, Deed.taken, QueueCall.taken, hp] using Told.polled _ hn
  | unpopped hs =>
    rw [hs.1] at h
    simpa [frames, Subscription.finished, Deed.taken, QueueCall.taken] using h.fail _
  | @delivered _ e _ hs _ =>
    rw [hs.1] at h
    cases h with
    -- What was held is now sent too.
    | @sending _ _ _ sent hn => simpa [frames, Deed.taken] using Told.polled (sent ++ [e]) hn

end

end NoteRelay.Notify

namespace NoteRelay.Relay

open Notify (Subscription Turn Told)

def takenBy (key : Nat) (user : UserId) (past : List Deed) : List NoteEvent :=
  ((pops user past).filter fun x => x.1 = key).map Prod.snd

/-- A subscription has counted `n` events, which were those that waited for the user just then. -/
def CountedAs (key : Nat) (user : UserId) (past : List Deed) (n : Nat) : Prop :=
  ∃ before a after,
    past = before ++ .subscription key (.called (.count user) (.ok a)) :: after ∧
      a.counted = n ∧ (pushedTo user before).length = (pops user before).length + n

theorem CountedAs.append {key : Nat} {user : UserId} {past : List Deed} {n : Nat}
    (h : CountedAs key user past n) (new : List Deed) : CountedAs key user (past ++ new) n := by
  obtain ⟨before, a, after, rfl, hn, hlength⟩ := h
  exact ⟨before, a, after ++ new, by simp, hn, hlength⟩

theorem takenBy_append (key : Nat) (user : UserId) (a b : List Deed) :
    takenBy key user (a ++ b) = takenBy key user a ++ takenBy key user b := by
  simp [takenBy]

theorem takenBy_of_pops {key : Nat} {user : UserId} {past : List Deed} (h : pops user past = []) :
    takenBy key user past = [] := by
  simp [takenBy, h]

theorem takenBy_map_subscription (key key' : Nat) (user : UserId) (ds : List Notify.Deed) :
    takenBy key user (ds.map (.subscription key')) =
      if key' = key then ds.flatMap (Notify.Deed.taken user) else [] := by
  rw [takenBy, pops_map_subscription, List.filter_map, List.map_map]
  by_cases h : key' = key <;> simp [h, Function.comp_def]

def ToldBy (past : List Deed) (key : Nat) (s : Subscription) : Prop :=
  Told (CountedAs key s.user past) s.phase (Notify.frames (subscriptionDeeds key past))
    (takenBy key s.user past)

theorem ToldBy.idle {past new : List Deed} {key : Nat} {s t : Subscription}
    (h : ToldBy past key s) (huser : t.user = s.user) (hphase : t.phase = s.phase)
    (hdeeds : subscriptionDeeds key new = []) (htaken : takenBy key s.user new = []) :
    ToldBy (past ++ new) key t := by
  unfold ToldBy at h ⊢
  rw [huser, hphase, subscriptionDeeds_append, hdeeds, takenBy_append, htaken, List.append_nil,
    List.append_nil]
  exact h.mono fun n hn => hn.append new

/-- How the inboxes and the subscriptions agree with what was pushed and popped. -/
structure Conserved (past : List Deed) (w : Relay) : Prop where
  pushed_eq : ∀ user, pushedTo user past =
    (pops user past).map Prod.snd ++ w.queues.inboxes.waiting user
  /-- What was popped for a user was popped by a subscription of that user. -/
  owner : ∀ user, ∀ x ∈ pops user past, ∃ s, w.subscriptions.get? x.1 = some s ∧ s.user = user
  deeds_of_absent : ∀ key, w.subscriptions.get? key = none → subscriptionDeeds key past = []
  told : ∀ key s, w.subscriptions.get? key = some s → ToldBy past key s

theorem Conserved.start (u : Setup) : Conserved [] (started u) where
  pushed_eq := fun _ => rfl
  owner := by simp [pops]
  deeds_of_absent := fun _ _ => rfl
  told := by simp [started]

theorem taken_of_ne {p : Notify.Policy} {now : Nat} {s t : Subscription}
    {new : List Notify.Deed} {user : UserId} (h : Turn p now s new t) (huser : s.user ≠ user) :
    new.flatMap (Notify.Deed.taken user) = [] := by
  cases h <;> simp [Notify.Deed.taken, QueueCall.taken, huser]

theorem user_of_turn {p : Notify.Policy} {now : Nat} {s t : Subscription}
    {new : List Notify.Deed} (h : Turn p now s new t) : t.user = s.user := by
  cases h <;> simp [Subscription.arrived_polling, Subscription.finished] <;> split <;> rfl

theorem eq_of_count {p : Notify.Policy} {now : Nat} {s t : Subscription}
    {new : List Notify.Deed} {owner : UserId} {a : QueueAnswer} (h : Turn p now s new t)
    (ha : .called (.count owner) (.ok a) ∈ new) : new = [.called (.count owner) (.ok a)] := by
  cases h with
  | counted hs =>
    rw [List.mem_singleton] at ha
    rw [ha]
  | _ => simp at ha

section
variable {u : Setup} {m : Move} {w w' : Relay} {past new : List Deed}

theorem Conserved.pushed_eq_step (h : Conserved past w) (hstep : NotifyStep u m w w' new)
    (user : UserId) : pushedTo user (past ++ new) =
      (pops user (past ++ new)).map Prod.snd ++ w'.queues.inboxes.waiting user := by
  rw [pushedTo_append, pops_append, h.pushed_eq user]
  cases hstep with
  | quiet _ hwaiting hnew _ => simp [hnew, hwaiting]
  | @pushed e _ hw =>
    rw [hw, Inboxes.waiting_push]
    by_cases he : user = e.recipient
    · simp [pushedTo, pops, he]
    · simp [pushedTo, pops, he, Ne.symm he]
  | subscribed _ _ hw => simp [pushedTo, pops, hw]
  | turn _ _ _ hwaiting _ => simp [hwaiting user, Function.comp_def]

theorem NotifyStep.kept (hstep : NotifyStep u m w w' new) {key : Nat} {s : Subscription}
    (hs : w.subscriptions.get? key = some s) :
    ∃ t, w'.subscriptions.get? key = some t ∧ t.user = s.user := by
  cases hstep with
  | quiet hsubs _ _ _ =>
    have hk := hsubs key
    rw [hs] at hk
    generalize w'.subscriptions.get? key = o at hk
    cases hk with
    | present huser _ => exact ⟨_, rfl, huser⟩
  | pushed hsubs _ => exact ⟨s, (hsubs key).trans hs, rfl⟩
  | @subscribed key' _ _ _ hnone hsubs _ =>
    have hne : key ≠ key' := by
      rintro rfl
      simp [hs] at hnone
    exact ⟨s, by rw [hsubs, if_neg hne, hs], rfl⟩
  | @turn key' s' t _ hs' hsubs hturn _ _ =>
    by_cases hk : key = key'
    · subst hk
      obtain rfl := Option.some.inj (hs'.symm.trans hs)
      exact ⟨t, by rw [hsubs, if_pos rfl], user_of_turn hturn⟩
    · exact ⟨s, by rw [hsubs, if_neg hk, hs], rfl⟩

theorem Conserved.owner_step (h : Conserved past w) (hstep : NotifyStep u m w w' new)
    (user : UserId) : ∀ x ∈ pops user (past ++ new),
      ∃ s, w'.subscriptions.get? x.1 = some s ∧ s.user = user := by
  intro x hx
  obtain hx | hx := List.mem_append.mp (pops_append user past new ▸ hx)
  · obtain ⟨s, hs, huser⟩ := h.owner user x hx
    obtain ⟨t, ht, htuser⟩ := hstep.kept hs
    exact ⟨t, ht, htuser.trans huser⟩
  · cases hstep with
    | quiet _ _ hnew _ => simp [hnew] at hx
    | pushed => simp [pops] at hx
    | subscribed => simp [pops] at hx
    | @turn key s t ds hs hsubs hturn _ _ =>
      rw [pops_map_subscription] at hx
      obtain ⟨e, he, rfl⟩ := List.mem_map.mp hx
      refine ⟨t, by rw [hsubs, if_pos rfl], (user_of_turn hturn).trans ?_⟩
      refine Decidable.byContradiction fun hne => ?_
      simp [taken_of_ne hturn hne] at he

theorem Conserved.deeds_of_absent_step (h : Conserved past w) (hstep : NotifyStep u m w w' new)
    {key : Nat} (hnone : w'.subscriptions.get? key = none) :
    subscriptionDeeds key (past ++ new) = [] := by
  have hbefore : w.subscriptions.get? key = none := by
    cases hs : w.subscriptions.get? key with
    | none => rfl
    | some s =>
      obtain ⟨t, ht, -⟩ := hstep.kept hs
      simp [hnone] at ht
  rw [subscriptionDeeds_append, h.deeds_of_absent key hbefore]
  cases hstep with
  | quiet _ _ _ hdeeds => exact hdeeds key
  | pushed => rfl
  | subscribed => rfl
  | @turn key' _ _ _ hs _ _ _ _ =>
    have hne : key' ≠ key := by
      rintro rfl
      simp [hs] at hbefore
    simp [hne]

/-- The turn of a subscription tells the next of it. A count is right when the inbox is what was
pushed and not popped. -/
theorem Conserved.told_turn (h : Conserved past w) (hm : m.setsCount = false) {key : Nat}
    {s t : Subscription} {ds : List Notify.Deed} {p : Notify.Policy}
    (hs : w.subscriptions.get? key = some s) (hturn : Turn p w.now s ds t)
    (hcounted : ∀ owner a, .called (.count owner) (.ok a) ∈ ds → m.setsCount = false →
      a.counted = (w.queues.inboxes.waiting owner).length) :
    ToldBy (past ++ ds.map (.subscription key)) key t := by
  have hold := (h.told key s hs).mono fun n hn => hn.append (ds.map (.subscription key))
  have htold := hold.turn hturn ?_
  · unfold ToldBy
    rw [user_of_turn hturn, subscriptionDeeds_append, subscriptionDeeds_map_subscription,
      if_pos rfl, Notify.frames_append, takenBy_append, takenBy_map_subscription, if_pos rfl]
    exact htold
  · intro a ha
    refine ⟨past, a, [], by rw [eq_of_count hturn ha]; rfl, rfl, ?_⟩
    rw [hcounted s.user a ha hm, h.pushed_eq s.user, List.length_append, List.length_map]

theorem Conserved.told_step (h : Conserved past w) (hm : m.setsCount = false)
    (hstep : NotifyStep u m w w' new) {key : Nat} {t : Subscription}
    (ht : w'.subscriptions.get? key = some t) : ToldBy (past ++ new) key t := by
  cases hstep with
  | quiet hsubs _ hnew hdeeds =>
    have hk := hsubs key
    rw [ht] at hk
    generalize hs : w.subscriptions.get? key = o at hk
    cases hk with
    | present huser hphase =>
      exact (h.told key _ hs).idle huser hphase (hdeeds key) (takenBy_of_pops (hnew _).2)
  | pushed hsubs _ =>
    exact (h.told key t ((hsubs key).symm.trans ht)).idle rfl rfl rfl rfl
  | @subscribed key' user outbound isCancelled hnone hsubs _ =>
    rw [hsubs] at ht
    split at ht
    · rename_i hk
      subst hk
      obtain rfl := Option.some.inj ht
      have htaken : takenBy key user past = [] := by
        refine List.map_eq_nil_iff.mpr (List.filter_eq_nil_iff.mpr fun x hx => ?_)
        obtain ⟨s, hs, -⟩ := h.owner user x hx
        rintro hk
        simp_all
      rw [List.append_nil]
      unfold ToldBy
      rw [h.deeds_of_absent key hnone]
      show Told _ _ _ (takenBy key user past)
      rw [htaken]
      exact .counting
    · exact (h.told key t ht).idle rfl rfl rfl rfl
  | @turn key' s t' ds hs hsubs hturn _ hcounted =>
    rw [hsubs] at ht
    split at ht
    · rename_i hk
      subst hk
      obtain rfl := Option.some.inj ht
      exact h.told_turn hm hs hturn hcounted
    · rename_i hk
      refine (h.told key t ht).idle rfl rfl (by simp [Ne.symm hk]) ?_
      rw [takenBy_map_subscription, if_neg (Ne.symm hk)]

theorem Conserved.step (h : Conserved past w) (hm : m.setsCount = false)
    (hstep : NotifyStep u m w w' new) : Conserved (past ++ new) w' where
  pushed_eq := h.pushed_eq_step hstep
  owner := h.owner_step hstep
  deeds_of_absent := fun _ hnone => h.deeds_of_absent_step hstep hnone
  told := fun _ _ ht => h.told_step hm hstep ht

theorem conserved {moves : List Move} (hrun : (started u).run u moves = some w)
    (hcounts : ∀ m ∈ moves, m.setsCount = false) : Conserved ((started u).chronicle u moves) w := by
  refine chronicle_induction (P := Conserved) (.start u) ?_ hrun
  intro past w m w' hm h hstep
  exact h.step (hcounts m hm) (notify_step hstep)

theorem recipient_of_pushedTo {user : UserId} {e : NoteEvent} (h : e ∈ pushedTo user past) :
    e.recipient = user := by
  obtain ⟨d, -, hd⟩ := List.mem_filterMap.mp h
  split at hd
  · split at hd
    · rename_i e' huser
      obtain rfl := Option.some.inj hd
      exact huser
    · simp at hd
  · simp at hd

/-- What one subscription takes is some of what was pushed, in that order. -/
theorem Conserved.takenBy_sublist (h : Conserved past w) (key : Nat) (user : UserId) :
    (takenBy key user past).Sublist (pushedTo user past) := by
  rw [h.pushed_eq user]
  exact (List.filter_sublist.map _).trans (List.sublist_append_left _ _)

theorem toInt_shown (n : Nat) :
    (Int32.ofNat (min n Notify.Frame.largestCount)).toInt = ((min n 2147483647 : Nat) : Int) :=
  Int32.toInt_ofNat_of_lt (by unfold Notify.Frame.largestCount; omega)

/-- Conservation of events. What was pushed for a user is what was popped for it, in this order, and
then what still waits. What was popped was popped by one subscription of that user. A subscription
first tells the number that it has counted, and then has sent what it has popped, but for at most
one event, which it is about to send or has failed with. -/
theorem events_conserved {moves : List Move} (hrun : (started u).run u moves = some w)
    (hcounts : ∀ m ∈ moves, m.setsCount = false) :
    (∀ user, pushedTo user ((started u).chronicle u moves) =
      (pops user ((started u).chronicle u moves)).map Prod.snd ++
        w.queues.inboxes.waiting user) ∧
    (∀ user key e, (key, e) ∈ pops user ((started u).chronicle u moves) →
      e.recipient = user ∧ ∃ s, w.subscriptions.get? key = some s ∧ s.user = user) ∧
    ∀ key s, w.subscriptions.get? key = some s →
      (Notify.frames (subscriptionPast u moves key) = [] ∧
        takenBy key s.user ((started u).chronicle u moves) = []) ∨
      ∃ (n : Nat) (shown : Int32) (told : List Notify.Frame) (sent held : List NoteEvent),
        CountedAs key s.user ((started u).chronicle u moves) n ∧
        shown.toInt = ((min n 2147483647 : Nat) : Int) ∧
        Notify.frames (subscriptionPast u moves key) = .unread shown :: told ∧
        List.Forall₂ Notify.Frame.Tells sent told ∧
        takenBy key s.user ((started u).chronicle u moves) = sent ++ held ∧
        sent.Sublist (pushedTo s.user ((started u).chronicle u moves)) ∧
        (held = [] ∨ (∃ ticker e, s.phase = .running (.sending ticker e) ∧ held = [e]) ∨
          ∃ status e, s.phase = .closed (.error status) ∧ held = [e]) := by
  have h := conserved hrun hcounts
  refine ⟨h.pushed_eq, ?_, ?_⟩
  · intro user key e he
    have hpushed : e ∈ pushedTo user ((started u).chronicle u moves) := by
      rw [h.pushed_eq user]
      exact List.mem_append_left _ (List.mem_map.mpr ⟨_, he, rfl⟩)
    exact ⟨recipient_of_pushedTo hpushed, h.owner user _ he⟩
  · intro key s hs
    refine (h.told key s hs).taken_eq.imp_right ?_
    rintro ⟨n, sent, held, hn, hframes, htaken, hheld⟩
    have htold : List.Forall₂ Notify.Frame.Tells sent (sent.map .ofEvent) :=
      List.forall₂_map_right_iff.mpr (List.forall₂_same.mpr fun e _ => Notify.Frame.tells_ofEvent e)
    refine ⟨n, _, _, sent, held, hn, toInt_shown n, hframes, htold, htaken, ?_, hheld⟩
    refine List.Sublist.trans ?_ (h.takenBy_sublist key s.user)
    rw [htaken]
    exact List.sublist_append_left _ _

end

def newYear : Timestamp :=
  ⟨⟨1970, 1, 1, by decide⟩, ⟨0, 0, 0, 0, by decide⟩⟩

/-- Two subscriptions of one user: the first sends the older event, the second holds the newer. -/
def rivals : List Move :=
  [.publish .created ⟨1⟩ ⟨7⟩ newYear none, .subscribe 0 ⟨1⟩ 4, .subscribe 1 ⟨1⟩ 4,
    .subscription 0 none, .subscription 0 none, .publish .deleted ⟨1⟩ ⟨7⟩ newYear none,
    .subscription 1 none, .subscription 1 none, .pass 1, .subscription 0 none,
    .subscription 0 none, .subscription 0 none, .subscription 1 none, .subscription 1 none]

theorem events_conserved_rivals :
    (pops ⟨1⟩ ((started brisk).chronicle brisk rivals)).map Prod.fst = [0, 1] ∧
      Notify.frames (subscriptionPast brisk rivals 0) =
        [.unread 1, .event "00000000-0000-0000-0000-000000000001" .created 7 newYear] ∧
      Notify.frames (subscriptionPast brisk rivals 1) = [.unread 2] ∧
    ∃ w s sent, (started brisk).run brisk rivals = some w ∧ w.subscriptions.get? 0 = some s ∧
      (∀ user, pushedTo user ((started brisk).chronicle brisk rivals) =
        (pops user ((started brisk).chronicle brisk rivals)).map Prod.snd ++
          w.queues.inboxes.waiting user) ∧
      List.Forall₂ Notify.Frame.Tells sent
        [.event "00000000-0000-0000-0000-000000000001" .created 7 newYear] ∧
      sent.Sublist (pushedTo s.user ((started brisk).chronicle brisk rivals)) := by
  have hfirst : Notify.frames (subscriptionPast brisk rivals 0) =
      [.unread 1, .event "00000000-0000-0000-0000-000000000001" .created 7 newYear] := by
    decide +kernel
  have hsome : (((started brisk).run brisk rivals).bind fun w => w.subscriptions.get? 0).isSome := by
    decide +kernel
  obtain ⟨s, hs⟩ := Option.isSome_iff_exists.mp hsome
  obtain ⟨w, hrun, hs⟩ := Option.bind_eq_some_iff.mp hs
  obtain ⟨hpushed, -, htold⟩ := events_conserved hrun (by decide)
  refine ⟨by decide +kernel, hfirst, by decide +kernel, ?_⟩
  obtain ⟨hnone, -⟩ | ⟨n, shown, told, sent, held, -, -, hframes, htells, -, hsub, -⟩ := htold 0 s hs
  · rw [hfirst] at hnone
    cases hnone
  · rw [hfirst] at hframes
    cases hframes
    exact ⟨w, s, sent, hrun, hs, hpushed, htells, hsub⟩

end NoteRelay.Relay
