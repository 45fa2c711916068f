import NoteRelay.Relay
import NoteRelay.Proofs.Course

/-!
# What others see of a run

A chronicle lists what the moves of a run did to the queues and to the outbound channels, in order:
the events that were pushed, and of each session the queue calls that were answered and the frames
that came into its channel. It is read off the relay before and behind each move.

`Relay.chronicle_induction`: what holds at the start and is kept by every move holds of every run
and its chronicle. Nothing here says what sessions do; their turns are read elsewhere.
-/

namespace NoteRelay

/-- What has come into a channel since it was in an earlier state, when nothing was received. -/
def Channel.sentSince {α : Type} (c before : Channel α) : List α :=
  c.queued.drop before.queued.length

@[simp] theorem Channel.sentSince_self {α : Type} (c : Channel α) : c.sentSince c = [] := by
  simp [sentSince]

theorem Channel.sentSince_of_send? {α : Type} {c c' : Channel α} {a : α}
    (h : c.send? a = some (.ok c')) : c'.sentSince c = [a] := by
  simp [sentSince, queued_of_send? h]

theorem emit_cases {φ : Type} {c : Channel φ} {frame : φ} {r : Except Failure (Channel φ)}
    (h : emit false c frame = some r) :
    (c.send? frame = some (.error .abandoned) ∧ r = .error .outboundClosed) ∨
      ∃ c', c.send? frame = some (.ok c') ∧ r = .ok c' := by
  unfold emit at h
  cases hs : c.send? frame with
  | none => simp [hs] at h
  | some sent =>
    cases sent with
    | error refusal =>
      cases refusal
      exact .inl ⟨rfl, by simpa [hs, eq_comm] using h⟩
    | ok c' => exact .inr ⟨c', rfl, by simpa [hs, eq_comm] using h⟩

-- ---------------------------------------------------------------------------
-- Laws of a history
-- ---------------------------------------------------------------------------

/-- Everything in a history was lawful when it came: the law sees what came before it. -/
def Lawful {α : Type} (law : List α → α → Prop) (history : List α) : Prop :=
  ∀ before a after, history = before ++ a :: after → law before a

section
variable {α : Type} {law : List α → α → Prop}

theorem lawful_nil : Lawful law [] := by
  intro before a after h
  simp at h

theorem Lawful.left {a b : List α} (h : Lawful law (a ++ b)) : Lawful law a :=
  fun before x after hsplit => h before x (after ++ b) (by simp [hsplit])

theorem lawful_append_single {history : List α} {a : α} :
    Lawful law (history ++ [a]) ↔ Lawful law history ∧ law history a := by
  constructor
  · intro h
    refine ⟨fun before b after hsplit => h before b (after ++ [a]) ?_, h history a [] rfl⟩
    simp [hsplit]
  · rintro ⟨hold, hnew⟩ before b after hsplit
    obtain ⟨rfl, rfl, -⟩ | ⟨rest, -, hhistory⟩ := append_single_eq_append_cons hsplit
    · exact hnew
    · exact hold before b rest hhistory

end

-- ---------------------------------------------------------------------------
-- Deeds
-- ---------------------------------------------------------------------------

inductive Chat.Deed where
  | called (call : QueueCall) (answer : Except QueueFault QueueAnswer)
  /-- A loop puts a frame into the outbound channel, about the message that it is at, if any. -/
  | sent (loop : Loop) (about : Option ChatMessage) (frame : Response)

inductive Notify.Deed where
  | called (call : QueueCall) (answer : Except QueueFault QueueAnswer)
  | sent (frame : Frame)

/-- The message that a loop is at when it sends. -/
def Chat.Session.atHand (loop : Loop) (s : Session) : Option ChatMessage :=
  match loop, s.phase with
  | .delivery, .running _ d =>
    match d.stage with
    | .sending m _ => some m
    | _ => none
  | _, _ => none

def Chat.Session.deeds (id : SessionId) (loop : Loop) (q : Queues)
    (interference : Option Interference) (s t : Session) : List Deed :=
  ((s.awaits id loop).toList.map fun call => .called call (q.answer interference call).1) ++
    (t.outbound.sentSince s.outbound).map (.sent loop (s.atHand loop))

def Notify.Subscription.deeds (q : Queues) (interference : Option Interference)
    (s t : Subscription) : List Deed :=
  (s.awaits.toList.map fun call => .called call (q.answer interference call).1) ++
    (t.outbound.sentSince s.outbound).map .sent

namespace Relay

inductive Deed where
  | pushed (event : NoteEvent)
  | chat (id : SessionId) (deed : Chat.Deed)
  | subscription (key : Nat) (deed : Notify.Deed)

def deeds (w : Relay) (m : Move) (w' : Relay) : List Deed :=
  match m with
  | .push e => [.pushed e]
  | .publish change owner note time fault =>
    (w.publisher.publish w.queues.inboxes fault change owner note time).1.toList.map .pushed
  | .chat id loop interference =>
    match w.chats.get? id, w'.chats.get? id with
    | some s, some t => (s.deeds id loop w.queues interference t).map (.chat id)
    | _, _ => []
  | .subscription key interference =>
    match w.subscriptions.get? key, w'.subscriptions.get? key with
    | some s, some t => (s.deeds w.queues interference t).map (.subscription key)
    | _, _ => []
  | _ => []

/-- What the moves of a run do, one after the other. -/
def chronicle (u : Setup) (w : Relay) : List Move → List Deed
  | [] => []
  | m :: rest =>
    match w.step u m with
    | none => []
    | some w' => w.deeds m w' ++ w'.chronicle u rest

-- ---------------------------------------------------------------------------
-- One session's part in a chronicle
-- ---------------------------------------------------------------------------

def Deed.ofChat? (id : SessionId) : Deed → Option Chat.Deed
  | .chat id' d => if id' = id then some d else none
  | _ => none

def Deed.ofSubscription? (key : Nat) : Deed → Option Notify.Deed
  | .subscription key' d => if key' = key then some d else none
  | _ => none

def chatDeeds (id : SessionId) (past : List Deed) : List Chat.Deed :=
  past.filterMap (Deed.ofChat? id)

def subscriptionDeeds (key : Nat) (past : List Deed) : List Notify.Deed :=
  past.filterMap (Deed.ofSubscription? key)

def chatPast (u : Setup) (moves : List Move) (id : SessionId) : List Chat.Deed :=
  chatDeeds id ((started u).chronicle u moves)

def subscriptionPast (u : Setup) (moves : List Move) (key : Nat) : List Notify.Deed :=
  subscriptionDeeds key ((started u).chronicle u moves)

@[simp] theorem chatDeeds_nil (id : SessionId) : chatDeeds id [] = [] := rfl

@[simp] theorem chatDeeds_append (id : SessionId) (a b : List Deed) :
    chatDeeds id (a ++ b) = chatDeeds id a ++ chatDeeds id b :=
  List.filterMap_append

@[simp] theorem chatDeeds_map_chat (id id' : SessionId) (ds : List Chat.Deed) :
    chatDeeds id (ds.map (.chat id')) = if id' = id then ds else [] := by
  by_cases h : id' = id <;> simp [chatDeeds, List.filterMap_map, Function.comp_def, Deed.ofChat?, h]

@[simp] theorem chatDeeds_map_pushed (id : SessionId) (es : List NoteEvent) :
    chatDeeds id (es.map .pushed) = [] := by
  simp [chatDeeds, List.filterMap_map, Function.comp_def, Deed.ofChat?]

@[simp] theorem chatDeeds_map_subscription (id : SessionId) (key : Nat)
    (ds : List Notify.Deed) : chatDeeds id (ds.map (.subscription key)) = [] := by
  simp [chatDeeds, List.filterMap_map, Function.comp_def, Deed.ofChat?]

@[simp] theorem subscriptionDeeds_nil (key : Nat) : subscriptionDeeds key [] = [] := rfl

@[simp] theorem subscriptionDeeds_append (key : Nat) (a b : List Deed) :
    subscriptionDeeds key (a ++ b) = subscriptionDeeds key a ++ subscriptionDeeds key b :=
  List.filterMap_append

@[simp] theorem subscriptionDeeds_map_subscription (key key' : Nat) (ds : List Notify.Deed) :
    subscriptionDeeds key (ds.map (.subscription key')) = if key' = key then ds else [] := by
  by_cases h : key' = key <;>
    simp [subscriptionDeeds, List.filterMap_map, Function.comp_def, Deed.ofSubscription?, h]

@[simp] theorem subscriptionDeeds_map_chat (key : Nat) (id : SessionId) (ds : List Chat.Deed) :
    subscriptionDeeds key (ds.map (.chat id)) = [] := by
  simp [subscriptionDeeds, List.filterMap_map, Function.comp_def, Deed.ofSubscription?]

-- ---------------------------------------------------------------------------
-- What it takes to go on
-- ---------------------------------------------------------------------------

section
variable {u : Setup} {w w' : Relay} {interference : Option Interference}

theorem goChat_eq_some {id : SessionId} {loop : Chat.Loop} :
    w.goChat u id loop interference = some w' ↔
      ∃ s t, w.chats.get? id = some s ∧
        s.go u.chat u.supply w.mintedIds w.now
          (w.queues.answerAny interference (s.awaits id loop)).1 loop = some t ∧
        w' = { w with
          queues := (w.queues.answerAny interference (s.awaits id loop)).2
          mintedIds := if loop = .intake ∧ s.takesFreshId then w.mintedIds + 1 else w.mintedIds
          chats := w.chats.insert id t } := by
  unfold goChat
  cases w.chats.get? id with
  | none => simp
  | some s =>
    simp only [Option.map_eq_some_iff]
    constructor
    · rintro ⟨t, ht, rfl⟩
      exact ⟨s, t, rfl, ht, rfl⟩
    · rintro ⟨_, t, ⟨⟩, ht, rfl⟩
      exact ⟨t, ht, rfl⟩

theorem goSubscription_eq_some {key : Nat} :
    w.goSubscription u key interference = some w' ↔
      ∃ s t, w.subscriptions.get? key = some s ∧
        s.go u.notify w.now (w.queues.answerAny interference s.awaits).1 = some t ∧
        w' = { w with
          queues := (w.queues.answerAny interference s.awaits).2
          subscriptions := w.subscriptions.insert key t } := by
  unfold goSubscription
  cases w.subscriptions.get? key with
  | none => simp
  | some s =>
    simp only [Option.map_eq_some_iff]
    constructor
    · rintro ⟨t, ht, rfl⟩
      exact ⟨s, t, rfl, ht, rfl⟩
    · rintro ⟨_, t, ⟨⟩, ht, rfl⟩
      exact ⟨t, ht, rfl⟩

end

-- ---------------------------------------------------------------------------
-- Induction along a run
-- ---------------------------------------------------------------------------

theorem run_append {u : Setup} {w : Relay} {moves moves' : List Move} :
    w.run u (moves ++ moves') = (w.run u moves).bind fun v => v.run u moves' := by
  induction moves generalizing w with
  | nil => rfl
  | cons m rest ih => simp [run, ih, Option.bind_assoc]

/-- What every move keeps is kept by a run, from any relay with any past behind it. -/
theorem chronicle_keeps {u : Setup} {P : List Deed → Relay → Prop} {moves : List Move}
    (next : ∀ past w m w', m ∈ moves → P past w → w.step u m = some w' →
      P (past ++ w.deeds m w') w')
    {past : List Deed} {w w' : Relay} (h : P past w) (hrun : w.run u moves = some w') :
    P (past ++ w.chronicle u moves) w' := by
  induction moves generalizing past w with
  | nil =>
    simp only [run, Option.some.injEq] at hrun
    subst hrun
    simpa [chronicle] using h
  | cons m rest ih =>
    simp only [run, Option.bind_eq_some_iff] at hrun
    obtain ⟨v, hstep, hrest⟩ := hrun
    have hv := next past w m v (by simp) h hstep
    have := ih (fun past w m w' hm => next past w m w' (List.mem_cons_of_mem _ hm)) hv hrest
    simpa [chronicle, hstep] using this

theorem chronicle_induction {u : Setup} {P : List Deed → Relay → Prop} {moves : List Move}
    (start : P [] (started u))
    (next : ∀ past w m w', m ∈ moves → P past w → w.step u m = some w' →
      P (past ++ w.deeds m w') w')
    {w : Relay} (hrun : (started u).run u moves = some w) :
    P ((started u).chronicle u moves) w := by
  simpa using chronicle_keeps next start hrun

/-- For short runs: every wait is of one millisecond, and nothing is waited for twice. -/
def brisk : Setup where
  chat := ⟨1, 1, .disabled, .standard⟩
  notify := ⟨1, 1, .standard⟩
  supply := .counting

end Relay

end NoteRelay
