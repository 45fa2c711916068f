import NoteRelay.Proofs.Redis.Server

/-!
# Queues on a server and queues in memory

The queues on a server answer as those in memory do. What ties the two together is that every hash
holds the box of its session (`HoldsOutbox`) and every list the texts of what waits for its user
(`HoldsTexts`). The lists are also right beside writers that append what they like: `HoldsTexts`
is about any texts, not only about those of events.
-/

namespace NoteRelay

/-- Answers that say the same. A snapshot comes in any order, and a count is a word of 64 bits. -/
inductive QueueAnswer.Alike : QueueAnswer → QueueAnswer → Prop where
  | done : Alike .done .done
  | messages {ms ms' : List ChatMessage} : ms.Perm ms' → Alike (.messages ms) (.messages ms')
  | event {e : Option NoteEvent} : Alike (.event e) (.event e)
  | number {m n : Nat} : UInt64.ofNat m = UInt64.ofNat n → Alike (.number m) (.number n)

/-- The answers to calls, one after the other. -/
def Queues.answers (q : Queues) : List QueueCall → List QueueAnswer
  | [] => []
  | call :: rest => (q.run call).1 :: (q.run call).2.answers rest

namespace Redis

inductive Access where
  | call (call : QueueCall)
  /-- Another writer appends a text to the list of a user. -/
  | append (user : UserId) (text : String)

namespace Access

def user? : Access → Option UserId
  | .call (.push e) => some e.recipient
  | .call (.pop user) => some user
  | .call (.count user) => some user
  | .append user _ => some user
  | .call _ => none

/-- The texts in the list of a user, when it has been accessed. -/
def after (user : UserId) (texts : List String) : Access → List String
  | .call (.push e) => if user = e.recipient then texts ++ [e.toJson.render] else texts
  | .call (.pop owner) => if user = owner then texts.tail else texts
  | .append owner text => if user = owner then texts ++ [text] else texts
  | .call _ => texts

def entered? (user : UserId) : Access → Option String
  | .call (.push e) => if user = e.recipient then some e.toJson.render else none
  | .append owner text => if user = owner then some text else none
  | .call _ => none

def popped? (user : UserId) :
    Access × Except Fault QueueAnswer → Option (Except Fault QueueAnswer)
  | (.call (.pop _), .ok (.event none)) => none
  | (.call (.pop owner), answer) => if user = owner then some answer else none
  | _ => none

theorem popped?_pop {user : UserId} {answer : Except Fault QueueAnswer}
    (h : answer ≠ .ok (.event none)) : popped? user (.call (.pop user), answer) = some answer := by
  unfold popped?
  split
  · next heq => exact absurd (Prod.mk.inj heq).2 h
  · next heq =>
    obtain ⟨hcall, rfl⟩ := Prod.mk.inj heq
    cases hcall
    simp
  · next hcall => exact absurd rfl (hcall _ _)

theorem popped?_of_ne {user owner : UserId} (h : user ≠ owner)
    (answer : Except Fault QueueAnswer) : popped? user (.call (.pop owner), answer) = none := by
  unfold popped?
  split
  · rfl
  · next heq =>
    obtain ⟨hcall, -⟩ := Prod.mk.inj heq
    cases hcall
    simp [h]
  · rfl

end Access

namespace QueueKeys

variable {k : QueueKeys} {s t : Server} {o o' : Outbox} {texts : UserId → List String}

def accessing (k : QueueKeys) : Access → Exchange QueueAnswer
  | .call call => k.exchange call
  | .append user text => k.appending user text

/-- The answers to accesses, one after the other, and what becomes of the server. -/
def run (k : QueueKeys) (s : Server) : List Access → List (Except Fault QueueAnswer) × Server
  | [] => ([], s)
  | a :: rest =>
    let (answer, t) := (k.accessing a).run s
    let (answers, t) := k.run t rest
    (answer :: answers, t)

-- ---------------------------------------------------------------------------
-- The hashes
-- ---------------------------------------------------------------------------

def HoldsOutbox (k : QueueKeys) (s : Server) (o : Outbox) : Prop :=
  ∀ session, ∃ fields, s.hash? (k.outboxKey session) = some fields ∧ Holds fields (o.box session)

theorem holdsOutbox_empty : HoldsOutbox k .empty .empty :=
  fun _ => ⟨.empty, rfl, .empty⟩

theorem HoldsOutbox.of_same (h : HoldsOutbox k s o)
    (hsame : ∀ session, t.keys.get? (k.outboxKey session) = s.keys.get? (k.outboxKey session)) :
    HoldsOutbox k t o := by
  intro session
  rw [Server.hash?_congr (hsame session)]
  exact h session

theorem HoldsOutbox.withHash {session : SessionId} {fields : Table String ByteArray}
    {b : Outbox.Box} (h : HoldsOutbox k s o) (hb : Holds fields b)
    (ho : ∀ other, o'.box other = if other = session then b else o.box other) :
    HoldsOutbox k (s.withHash (k.outboxKey session) fields) o' := by
  intro other
  rw [ho other, Server.hash?_withHash]
  by_cases hsame : other = session
  · subst hsame
    exact ⟨fields, by simp, by simpa using hb⟩
  · have hkey : k.outboxKey other ≠ k.outboxKey session := fun heq =>
      hsame (k.outboxKey_injective heq)
    simpa [hkey, hsame] using h other

theorem HoldsOutbox.step {q : Queues} (h : HoldsOutbox k s q.outbox) {call : QueueCall}
    {session : SessionId} (hcall : call.session? = some session) :
    (∃ a, ((k.exchange call).run s).1 = .ok a ∧ a.Alike (q.run call).1) ∧
      HoldsOutbox k ((k.exchange call).run s).2 (q.run call).2.outbox := by
  cases call with
  | save id m =>
    obtain ⟨fields, hhash, hfields⟩ := h id
    rw [run_save hhash]
    exact ⟨⟨_, rfl, .done⟩, h.withHash (hfields.insert m) fun other => Outbox.box_save _ _ _ _⟩
  | fetchAll id =>
    obtain ⟨fields, hhash, hfields⟩ := h id
    obtain ⟨ms, hrun, hperm⟩ := run_fetchAll hhash hfields
    rw [hrun]
    exact ⟨⟨_, rfl, .messages (hperm.trans (q.outbox.fetchAll_perm id).symm)⟩, h⟩
  | delete id m =>
    obtain ⟨fields, hhash, hfields⟩ := h id
    rw [run_delete hhash]
    exact ⟨⟨_, rfl, .done⟩,
      h.withHash (hfields.erase m.correlationId) fun other => Outbox.box_delete _ _ _ _⟩
  | clear id =>
    rw [run_clear]
    exact ⟨⟨_, rfl, .done⟩, h.withHash .empty fun other => Outbox.box_clear _ _ _⟩
  | push | pop | count => cases hcall

-- ---------------------------------------------------------------------------
-- The lists
-- ---------------------------------------------------------------------------

def HoldsTexts (k : QueueKeys) (s : Server) (texts : UserId → List String) : Prop :=
  ∀ user, s.list? (k.inboxKey user) = some ((texts user).map String.toUTF8)

theorem holdsTexts_empty : HoldsTexts k .empty fun _ => [] :=
  fun _ => rfl

theorem key?_accessing (k : QueueKeys) (a : Access) :
    (∃ session, a.user? = none ∧ (k.accessing a).command.key? = some (k.outboxKey session)) ∨
      ∃ user, a.user? = some user ∧ (k.accessing a).command.key? = some (k.inboxKey user) := by
  cases a with
  | append user text => exact .inr ⟨user, rfl, rfl⟩
  | call call =>
    cases call with
    | save session | fetchAll session | delete session | clear session =>
      exact .inl ⟨session, rfl, rfl⟩
    | push e => exact .inr ⟨e.recipient, rfl, rfl⟩
    | pop user | count user => exact .inr ⟨user, rfl, rfl⟩

theorem get?_accessing_of_ne {a : Access} {other : String}
    (h : (k.accessing a).command.key? ≠ some other) :
    ((k.accessing a).run s).2.keys.get? other = s.keys.get? other :=
  Server.get?_run_of_ne h

theorem list?_accessing_of_ne (hk : k.Apart) {a : Access} {user : UserId}
    (h : a.user? ≠ some user) :
    ((k.accessing a).run s).2.list? (k.inboxKey user) = s.list? (k.inboxKey user) := by
  -- The key that is accessed belongs to a session or to another user.
  refine Server.list?_congr (get?_accessing_of_ne ?_)
  obtain ⟨session, -, hkey⟩ | ⟨owner, howner, hkey⟩ := k.key?_accessing a
  · rw [hkey]
    exact fun heq => hk session user (Option.some.inj heq)
  · rw [hkey]
    rintro heq
    rw [k.inboxKey_injective (Option.some.inj heq)] at howner
    exact h howner

theorem after_of_ne {a : Access} {user : UserId} (h : a.user? ≠ some user) (texts : List String) :
    a.after user texts = texts := by
  cases a with
  | append owner text =>
    have hne : user ≠ owner := fun heq => h (by rw [heq]; rfl)
    simp [Access.after, hne]
  | call call =>
    cases call with
    | push e =>
      have hne : user ≠ e.recipient := fun heq => h (by rw [heq]; rfl)
      simp [Access.after, hne]
    | pop owner =>
      have hne : user ≠ owner := fun heq => h (by rw [heq]; rfl)
      simp [Access.after, hne]
    | save | fetchAll | delete | clear | count => rfl

theorem list?_accessing {a : Access} {user : UserId} {texts : List String}
    (h : s.list? (k.inboxKey user) = some (texts.map String.toUTF8)) (ha : a.user? = some user) :
    ((k.accessing a).run s).2.list? (k.inboxKey user) =
      some ((a.after user texts).map String.toUTF8) := by
  cases a with
  | append owner text =>
    obtain rfl : owner = user := Option.some.inj ha
    rw [accessing, run_appending h]
    simp [Access.after]
  | call call =>
    cases call with
    | save | fetchAll | delete | clear => cases ha
    | push e =>
      obtain rfl : e.recipient = user := Option.some.inj ha
      rw [accessing, exchange_push, run_appending h]
      simp [Access.after]
    | pop owner =>
      obtain rfl : owner = user := Option.some.inj ha
      rw [accessing, (run_pop h).2]
      simp [Access.after]
    | count owner =>
      obtain rfl : owner = user := Option.some.inj ha
      rw [accessing, run_count h]
      exact h

theorem HoldsTexts.step (hk : k.Apart) (h : HoldsTexts k s texts) (a : Access) :
    HoldsTexts k ((k.accessing a).run s).2 fun user => a.after user (texts user) := by
  intro user
  by_cases ha : a.user? = some user
  · exact list?_accessing (h user) ha
  · rw [list?_accessing_of_ne hk ha, h user]
    simp only [after_of_ne ha]

/-- What enters a list stands behind what is in it, and what is taken stood at its head. -/
theorem HoldsTexts.answers_step (h : HoldsTexts k s texts) (a : Access) (user : UserId) :
    (texts user ++ (a.entered? user).toList).map answerOf =
      (Access.popped? user (a, ((k.accessing a).run s).1)).toList ++
        (a.after user (texts user)).map answerOf := by
  cases a with
  | append owner text =>
    by_cases hu : user = owner <;> simp [Access.entered?, Access.after, Access.popped?, hu]
  | call call =>
    cases call with
    | push e =>
      by_cases hu : user = e.recipient <;>
        simp [Access.entered?, Access.after, Access.popped?, hu]
    | pop owner =>
      rw [accessing, (run_pop (h owner)).1]
      by_cases hu : user = owner
      · subst hu
        cases htexts : texts user with
        | nil => simp [Access.entered?, Access.after, Access.popped?, popAnswer]
        | cons text rest =>
          simp [Access.entered?, Access.after, popAnswer,
            Access.popped?_pop (answerOf_ne_none text)]
      · simp [Access.entered?, Access.after, hu, Access.popped?_of_ne hu]
    | save | fetchAll | delete | clear | count =>
      simp [Access.entered?, Access.after, Access.popped?]

/-- Along a run, what a user pops is what entered the list of the user, in its order; what is left
of that is what is still there. -/
theorem HoldsTexts.run (hk : k.Apart) (h : HoldsTexts k s texts) (accesses : List Access) :
    ∃ left, HoldsTexts k (k.run s accesses).2 left ∧ ∀ user,
      (texts user ++ accesses.filterMap (Access.entered? user)).map answerOf =
        (accesses.zip (k.run s accesses).1).filterMap (Access.popped? user) ++
          (left user).map answerOf := by
  -- The lists change on the way, so that the texts that they hold are general.
  induction accesses generalizing s texts with
  | nil => exact ⟨texts, h, fun user => by simp⟩
  | cons a rest ih =>
    obtain ⟨left, hleft, heq⟩ := ih (h.step hk a)
    refine ⟨left, hleft, fun user => ?_⟩
    have hentered : (a :: rest).filterMap (Access.entered? user) =
        (a.entered? user).toList ++ rest.filterMap (Access.entered? user) := by
      cases hentered : a.entered? user <;> simp [hentered]
    have hpopped : ((a :: rest).zip (k.run s (a :: rest)).1).filterMap (Access.popped? user) =
        (Access.popped? user (a, ((k.accessing a).run s).1)).toList ++
          (rest.zip (k.run ((k.accessing a).run s).2 rest).1).filterMap (Access.popped? user) := by
      rw [QueueKeys.run]
      cases hpopped : Access.popped? user (a, ((k.accessing a).run s).1) <;> simp [hpopped]
    rw [hentered, hpopped, ← List.append_assoc, List.map_append, h.answers_step, List.append_assoc,
      List.append_assoc, ← heq user, List.map_append]

/-- What accesses to an empty server have left in the list of a user, and what the next access finds
there. -/
structure Remains (k : QueueKeys) (user : UserId) (accesses : List Access)
    (outcome : List (Except Fault QueueAnswer) × Server) (left : List String) : Prop where
  stored : outcome.2.list? (k.inboxKey user) = some (left.map String.toUTF8)
  /-- What entered the list has been popped, one text a pop, or it is left, all in one order. -/
  in_order : (accesses.filterMap (Access.entered? user)).map answerOf =
    (accesses.zip outcome.1).filterMap (Access.popped? user) ++ left.map answerOf
  popped : ((k.exchange (.pop user)).run outcome.2).1 = popAnswer left
  stored_popped : ((k.exchange (.pop user)).run outcome.2).2.list? (k.inboxKey user) =
    some (left.tail.map String.toUTF8)
  counted : ((k.exchange (.count user)).run outcome.2).1 =
    .ok (.number (left.length % UInt64.size))
  stored_aside : ∀ a : Access, a.user? ≠ some user →
    ((k.accessing a).run outcome.2).2.list? (k.inboxKey user) = some (left.map String.toUTF8)

theorem remains_of_run (hk : k.Apart) (accesses : List Access) (user : UserId) :
    ∃ left, k.Remains user accesses (k.run .empty accesses) left := by
  obtain ⟨left, hleft, heq⟩ := holdsTexts_empty.run hk accesses
  obtain ⟨hpop, hrest⟩ := run_pop (hleft user)
  refine ⟨left user, hleft user, by simpa using heq user, hpop, hrest, ?_, fun a ha => ?_⟩
  · rw [run_count (hleft user)]
  · rw [list?_accessing_of_ne hk ha]
    exact hleft user

-- ---------------------------------------------------------------------------
-- Alike
-- ---------------------------------------------------------------------------

def waitingTexts (i : Inboxes) (user : UserId) : List String :=
  (i.waiting user).map fun e => e.toJson.render

theorem HoldsTexts.alike {q : Queues} (h : HoldsTexts k s (waitingTexts q.inboxes))
    {call : QueueCall} (hcall : call.session? = none) :
    ∃ a, ((k.exchange call).run s).1 = .ok a ∧ a.Alike (q.run call).1 := by
  cases call with
  | save | fetchAll | delete | clear => cases hcall
  | push e =>
    rw [exchange_push, run_appending (h e.recipient)]
    exact ⟨_, rfl, .done⟩
  | pop user =>
    rw [(run_pop (h user)).1]
    simp only [waitingTexts, Queues.run, Inboxes.pop_fst]
    cases q.inboxes.waiting user with
    | nil => exact ⟨_, rfl, .event⟩
    | cons e rest => exact ⟨_, answerOf_event e, .event⟩
  | count user =>
    rw [run_count (h user)]
    refine ⟨_, rfl, .number ?_⟩
    rw [waitingTexts, List.length_map]
    exact UInt64.toNat_inj.mp (by simp [Inboxes.count])

theorem waitingTexts_run (q : Queues) (call : QueueCall) (user : UserId) :
    waitingTexts (q.run call).2.inboxes user =
      (Access.call call).after user (waitingTexts q.inboxes user) := by
  cases call with
  | push e => by_cases hu : user = e.recipient <;> simp [waitingTexts, Queues.run, Access.after, hu]
  | pop owner => by_cases hu : user = owner <;> simp [waitingTexts, Queues.run, Access.after, hu]
  | _ => rfl

theorem HoldsOutbox.of_inbox (hk : k.Apart) {q : Queues} (h : HoldsOutbox k s q.outbox)
    {call : QueueCall} (hcall : call.session? = none) :
    HoldsOutbox k ((k.exchange call).run s).2 (q.run call).2.outbox := by
  have hbox : (q.run call).2.outbox = q.outbox := by
    cases call with
    | save | fetchAll | delete | clear => cases hcall
    | push | pop | count => rfl
  obtain ⟨user, hkey⟩ : ∃ user, (k.exchange call).command.key? = some (k.inboxKey user) := by
    cases call with
    | save | fetchAll | delete | clear => cases hcall
    | push e => exact ⟨e.recipient, rfl⟩
    | pop user | count user => exact ⟨user, rfl⟩
  rw [hbox]
  refine h.of_same fun session => Server.get?_run_of_ne ?_
  rw [hkey]
  exact fun heq => hk session user (Option.some.inj heq).symm

structure Mirrors (k : QueueKeys) (s : Server) (q : Queues) : Prop where
  outbox : HoldsOutbox k s q.outbox
  inboxes : HoldsTexts k s (waitingTexts q.inboxes)

theorem mirrors_empty : Mirrors k .empty .empty :=
  ⟨holdsOutbox_empty, holdsTexts_empty⟩

theorem Mirrors.step (hk : k.Apart) {q : Queues} (h : Mirrors k s q) (call : QueueCall) :
    (∃ a, ((k.exchange call).run s).1 = .ok a ∧ a.Alike (q.run call).1) ∧
      Mirrors k ((k.exchange call).run s).2 (q.run call).2 := by
  have htexts : HoldsTexts k ((k.exchange call).run s).2 (waitingTexts (q.run call).2.inboxes) := by
    have hstep := h.inboxes.step hk (.call call)
    simpa [accessing, ← waitingTexts_run] using hstep
  cases hcall : call.session? with
  | some session =>
    obtain ⟨halike, houtbox⟩ := h.outbox.step hcall
    exact ⟨halike, houtbox, htexts⟩
  | none => exact ⟨h.inboxes.alike hcall, h.outbox.of_inbox hk hcall, htexts⟩

/-- A relation that every call keeps, with answers that are alike, makes all answers alike. -/
theorem answers_alike {R : Server → Queues → Prop} {calls : List QueueCall}
    (step : ∀ s q, ∀ call ∈ calls, R s q →
      (∃ a, ((k.exchange call).run s).1 = .ok a ∧ a.Alike (q.run call).1) ∧
        R ((k.exchange call).run s).2 (q.run call).2) {q : Queues} (h : R s q) :
    List.Forall₂ (fun r answer => ∃ a, r = .ok a ∧ a.Alike answer)
      (k.run s (calls.map .call)).1 (q.answers calls) := by
  induction calls generalizing s q with
  | nil => exact .nil
  | cons call rest ih =>
    obtain ⟨halike, hnext⟩ := step s q call (by simp) h
    exact .cons halike (ih (fun s q call hcall => step s q call (by simp [hcall])) hnext)

end QueueKeys

open QueueKeys (answerOf popAnswer)

/-- The outboxes on a server answer as those in memory do, under any keys: every call succeeds, and
every snapshot has the same messages. -/
theorem outbox_refined (k : QueueKeys) (calls : List QueueCall)
    (h : ∀ call ∈ calls, call.session?.isSome = true) :
    List.Forall₂ (fun r answer => ∃ a, r = .ok a ∧ a.Alike answer)
      (k.run .empty (calls.map .call)).1 (Queues.empty.answers calls) := by
  have hempty : k.HoldsOutbox Server.empty Queues.empty.outbox := QueueKeys.holdsOutbox_empty
  refine QueueKeys.answers_alike (R := fun s q => k.HoldsOutbox s q.outbox) ?_ hempty
  intro s q call hcall hs
  obtain ⟨session, hsession⟩ := Option.isSome_iff_exists.mp (h call hcall)
  exact hs.step hsession

/-- A message is saved again under its identity, and another session is cleared. -/
def savedAgain : List QueueCall :=
  [.save ⟨"desk"⟩ ⟨⟨"é\n"⟩, "one"⟩, .save ⟨"desk"⟩ ⟨⟨"é\n"⟩, "\"two\""⟩, .clear ⟨"hall"⟩,
    .fetchAll ⟨"desk"⟩]

theorem outbox_refined_savedAgain :
    Queues.empty.answers savedAgain = [.done, .done, .done, .messages [⟨⟨"é\n"⟩, "\"two\""⟩]] ∧
    List.Forall₂ (fun r answer => ∃ a, r = .ok a ∧ a.Alike answer)
      (QueueKeys.run {} .empty (savedAgain.map .call)).1 (Queues.empty.answers savedAgain) := by
  have hanswers : Queues.empty.answers savedAgain =
      [.done, .done, .done, .messages (Outbox.inOrder [⟨⟨"é\n"⟩, "\"two\""⟩])] := rfl
  refine ⟨?_, outbox_refined {} savedAgain (by decide)⟩
  rw [hanswers, Outbox.inOrder, List.mergeSort_singleton]

/-- The inboxes on a server answer as those in memory do, beside the outboxes. Where others append
to the lists too, every user still gets what entered the list of that user, in its order and one
text a pop: an event, or a fault of the encoding for a text that is none. The count is that of the
texts that are left, and what is done to the list of one user is nothing to the others. -/
theorem inboxes_refined :
    (∀ calls, List.Forall₂ (fun r answer => ∃ a, r = .ok a ∧ a.Alike answer)
      (QueueKeys.run {} .empty (calls.map .call)).1 (Queues.empty.answers calls)) ∧
    (∀ accesses user, ∃ left,
      QueueKeys.Remains {} user accesses (QueueKeys.run {} .empty accesses) left) ∧
    (∀ e : NoteEvent, answerOf e.toJson.render = .ok (.event (some e))) ∧
    ∀ text fault, answerOf text = .error fault → ∃ words, fault.toQueueFault = .codec words := by
  refine ⟨?_, QueueKeys.remains_of_run QueueKeys.apart_default, QueueKeys.answerOf_event,
    fun text fault h => QueueKeys.toQueueFault_of_answerOf h⟩
  intro calls
  exact QueueKeys.answers_alike (fun s q call _ h => h.step QueueKeys.apart_default call)
    QueueKeys.mirrors_empty

def lastNote : NoteEvent where
  id := ⟨.ofNat 7⟩
  change := .created
  noteId := ⟨-7⟩
  recipient := ⟨1⟩
  -- In a leap second.
  time := ⟨⟨2016, 12, 31, by decide⟩, ⟨23, 59, 59, 1500000000, by decide⟩⟩

/-- Another writer appends what is no event, ahead of one. -/
def besideOthers : List Access :=
  [.append ⟨1⟩ "gone", .call (.push lastNote), .call (.pop ⟨1⟩)]

theorem inboxes_refined_besideOthers :
    ∃ left, QueueKeys.Remains {} ⟨1⟩ besideOthers (QueueKeys.run {} .empty besideOthers) left ∧
      [.error (.serialization "not an event"), .ok (.event (some lastNote))] =
        (besideOthers.zip (QueueKeys.run {} .empty besideOthers).1).filterMap
          (Access.popped? ⟨1⟩) ++ left.map answerOf := by
  obtain ⟨left, hleft⟩ := inboxes_refined.2.1 besideOthers ⟨1⟩
  refine ⟨left, hleft, hleft.in_order ▸ ?_⟩
  have hgone : answerOf "gone" = .error (.serialization "not an event") := rfl
  have hnote : answerOf lastNote.toJson.render = .ok (.event (some lastNote)) :=
    inboxes_refined.2.2.1 lastNote
  rw [← hgone, ← hnote]
  rfl

end Redis

end NoteRelay
