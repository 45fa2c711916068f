import NoteRelay.Proofs.Chat.Course

/-!
# Sessions do not see each other

The moves of a run that happen to one session are a run of that session alone, which starts with
empty queues and is handed the same correlation identities: the session makes the same calls, which
are answered the same, sends the same frames and ends the same (`isolated`). For this, `Mirrors`
holds between the relay and a relay with that session alone; a move that happens to the session
keeps it when both take the move (`Mirrors.together`), and any other move when only the first one
does (`Mirrors.aside`).

`exists_course` says the same of a session without the relay: what it does in a run is what it does
on a course, so that what holds of every course holds of it.
-/

namespace NoteRelay

-- ---------------------------------------------------------------------------
-- What a session is handed
-- ---------------------------------------------------------------------------

namespace Chat

theorem Request.accept_eq {r : Request} (h : r.takesFreshId = false)
    (fresh fresh' : CorrelationId) : r.accept fresh = r.accept fresh' := by
  unfold accept
  split
  · rename_i hv
    have hid : r.message.correlationId.isEmpty = false := by simpa [takesFreshId, hv] using h
    simp [Payload.toMessage, hid]
  · rfl

theorem Session.go_eq {s : Session} {p : Policy} {supply supply' : IdSupply}
    {minted minted' now : Nat} {answer : Option (Except QueueFault QueueAnswer)} {loop : Loop}
    (h : loop = .intake → s.takesFreshId = true →
      supply.correlation minted = supply'.correlation minted') :
    s.go p supply minted now answer loop = s.go p supply' minted' now answer loop := by
  obtain ⟨inbound, outbound, isCancelled, phase⟩ := s
  cases loop with
  | delivery | closing => cases phase <;> rfl
  | intake =>
    cases phase with
    | closing | closed => rfl
    | running i d =>
      cases i with
      | saving | refusing | ended => rfl
      | reading =>
        cases isCancelled with
        | true => rfl
        | false =>
          obtain ⟨capacity, queued, isEnded, isAbandoned⟩ := inbound
          cases queued with
          | nil => cases isEnded <;> rfl
          | cons item rest =>
            cases item with
            | error f => rfl
            | ok r =>
              have hr : r.accept (supply.correlation minted) =
                  r.accept (supply'.correlation minted') := by
                cases hfresh : r.takesFreshId with
                | true => rw [h rfl (by simp [takesFreshId, hfresh])]
                | false => exact r.accept_eq hfresh _ _
              simp [go, goIntake, Channel.next?, Intake.received, hr]

end Chat

namespace Relay

/-- The setup in which the supply hands out these of its correlation identities. -/
def Setup.handing (u : Setup) (ids : List Nat) : Setup :=
  let correlation n := u.supply.correlation (ids[n]?.getD 0)
  { u with supply := { u.supply with correlation } }

def handedOn (id : SessionId) (w : Relay) : Move → List Nat
  | .chat id' .intake _ =>
    if id' = id ∧ (w.chats.get? id').any Chat.Session.takesFreshId then [w.mintedIds] else []
  | _ => []

def handed (u : Setup) (id : SessionId) (w : Relay) : List Move → List Nat
  | [] => []
  | m :: rest =>
    match w.step u m with
    | none => []
    | some w' => w.handedOn id m ++ w'.handed u id rest

/-- The setup in which a session is handed the correlation identities that it is handed in a run. -/
def Setup.solo (u : Setup) (id : SessionId) (moves : List Move) : Setup :=
  u.handing ((started u).handed u id moves)

-- ---------------------------------------------------------------------------
-- What happens to a session
-- ---------------------------------------------------------------------------

def alone (id : SessionId) (moves : List Move) : List Move :=
  moves.filter (Move.concerns id)

theorem alone_cons_of_concerned {id : SessionId} {m : Move} (hm : m.concerns id = true)
    (rest : List Move) : alone id (m :: rest) = m :: alone id rest :=
  List.filter_cons_of_pos hm

theorem alone_cons_of_unconcerned {id : SessionId} {m : Move} (hm : m.concerns id = false)
    (rest : List Move) : alone id (m :: rest) = alone id rest :=
  List.filter_cons_of_neg (by simp [hm])

section
variable {u : Setup} {id : SessionId} {w w' v : Relay} {m : Move}

theorem handedOn_of_unconcerned (hm : m.concerns id = false) : w.handedOn id m = [] := by
  cases m with
  | chat id' loop interference =>
    have hid : id' ≠ id := by simpa [Move.concerns] using hm
    cases loop <;> simp [handedOn, hid]
  | _ => rfl

-- ---------------------------------------------------------------------------
-- A session and the same session alone
-- ---------------------------------------------------------------------------

/-- The relay `v` has the session as `w` has it, and no other. -/
structure Mirrors (id : SessionId) (w v : Relay) : Prop where
  now : v.now = w.now
  isShutDown : v.isShutDown = w.isShutDown
  session : v.chats.get? id = w.chats.get? id
  entry : v.queues.outbox.stored? id = w.queues.outbox.stored? id
  others : ∀ other, other ≠ id → v.chats.get? other = none ∧ v.queues.outbox.stored? other = none

theorem Mirrors.started (u u' : Setup) (id : SessionId) :
    Mirrors id (Relay.started u) (Relay.started u') :=
  ⟨rfl, rfl, rfl, rfl, fun _ _ => ⟨rfl, rfl⟩⟩

theorem Mirrors.aside (h : Mirrors id w v) (hm : m.concerns id = false)
    (hstep : w.step u m = some w') : Mirrors id w' v := by
  have hun := unconcerned hm hstep
  exact ⟨h.now.trans hun.now.symm, h.isShutDown.trans hun.isShutDown.symm,
    h.session.trans hun.session.symm, h.entry.trans hun.entry.symm, h.others⟩

/-- What a relay with the session alone does when a move happens to the session. -/
structure Follows (u' : Setup) (id : SessionId) (m : Move) (w w' v v' : Relay) : Prop where
  step : v.step u' m = some v'
  mirrors : Mirrors id w' v'
  deeds : chatDeeds id (v.deeds m v') = chatDeeds id (w.deeds m w')
  mintedIds : v'.mintedIds = v.mintedIds + (w.handedOn id m).length

theorem Mirrors.others_step {u' : Setup} {v' : Relay} (h : Mirrors id w v)
    (hm : ∀ other, other ≠ id → m.concerns other = false) (hstep : v.step u' m = some v') :
    ∀ other, other ≠ id →
      v'.chats.get? other = none ∧ v'.queues.outbox.stored? other = none := by
  intro other hother
  have hun := unconcerned (hm other hother) hstep
  exact ⟨hun.session.trans (h.others other hother).1, hun.entry.trans (h.others other hother).2⟩

variable {ids : List Nat}

theorem Mirrors.goChat {loop : Chat.Loop} {interference : Option Interference}
    (h : Mirrors id w v)
    (hids : ∀ n, w.handedOn id (.chat id loop interference) = [n] → ids[v.mintedIds]? = some n)
    (hstep : w.goChat u id loop interference = some w') :
    ∃ v', Follows (u.handing ids) id (.chat id loop interference) w w' v v' := by
  obtain ⟨s, t, hs, hgo, rfl⟩ := goChat_eq_some.mp hstep
  have hvs : v.chats.get? id = some s := h.session.trans hs
  -- The call of the session is answered the same, and leaves the same entry behind.
  have hanswer : (v.queues.answerAny interference (s.awaits id loop)).1 =
        (w.queues.answerAny interference (s.awaits id loop)).1 ∧
      (v.queues.answerAny interference (s.awaits id loop)).2.outbox.stored? id =
        (w.queues.answerAny interference (s.awaits id loop)).2.outbox.stored? id := by
    cases ha : s.awaits id loop with
    | none => exact ⟨rfl, h.entry⟩
    | some call =>
      obtain ⟨hsame, hentry⟩ :=
        Queues.answer_congr interference (Chat.Session.session_of_awaits ha) h.entry
      exact ⟨congrArg some hsame, hentry⟩
  have hgo' : s.go u.chat (u.handing ids).supply v.mintedIds v.now
      (v.queues.answerAny interference (s.awaits id loop)).1 loop = some t := by
    rw [hanswer.1, h.now, ← hgo]
    refine Chat.Session.go_eq fun hloop hfresh => ?_
    subst hloop
    simp [Setup.handing, hids w.mintedIds (by simp [handedOn, hs, hfresh])]
  have hvstep : v.step (u.handing ids) (.chat id loop interference) = some { v with
      queues := (v.queues.answerAny interference (s.awaits id loop)).2
      mintedIds := if loop = .intake ∧ s.takesFreshId then v.mintedIds + 1 else v.mintedIds
      chats := v.chats.insert id t } :=
    goChat_eq_some.mpr ⟨s, t, hvs, hgo', rfl⟩
  refine ⟨_, hvstep, ⟨h.now, h.isShutDown, by simp [Table.get?_insert], hanswer.2, ?_⟩, ?_, ?_⟩
  · exact h.others_step (fun other hother => by simp [Move.concerns, Ne.symm hother]) hvstep
  · simp [Relay.deeds, hs, hvs, Table.get?_insert, Chat.Session.deeds_eq, hanswer.1]
  · cases loop <;> simp [handedOn, hs]
    split <;> rfl

theorem Mirrors.converse {inboundCapacity outboundCapacity : Nat} (h : Mirrors id w v)
    (hstep : w.converse u id inboundCapacity outboundCapacity = some w') :
    ∃ v', Follows (u.handing ids) id (.converse id inboundCapacity outboundCapacity) w w' v v' := by
  unfold Relay.converse at hstep
  split at hstep
  · rename_i inbound outbound hnone htick hin hout
    simp only [Option.some.injEq] at hstep
    subst hstep
    have hvstep : v.step (u.handing ids) (.converse id inboundCapacity outboundCapacity) =
        some { v with
          chats := v.chats.insert id (.started u.chat inbound outbound v.isShutDown v.now) } := by
      have htick' : Ticker.canStart (u.handing ids).chat.tick = true := htick
      simp only [Relay.step, Relay.converse, h.session.trans hnone, htick', hin, hout]
      rfl
    refine ⟨_, hvstep, ⟨h.now, h.isShutDown, ?_, h.entry, ?_⟩, rfl, rfl⟩
    · simp [Table.get?_insert, h.now, h.isShutDown]
    · exact h.others_step (fun other hother => by simp [Move.concerns, Ne.symm hother]) hvstep
  · simp at hstep

theorem Mirrors.withChat {move : Chat.Session.Move} (h : Mirrors id w v)
    (hstep : w.withChat id (fun s => s.clientMove move) = some w') :
    ∃ v', Follows (u.handing ids) id (.chatClient id move) w w' v v' := by
  simp only [Relay.withChat, Option.map_eq_some_iff] at hstep
  obtain ⟨t, hmove, rfl⟩ := hstep
  have hvstep : v.step (u.handing ids) (.chatClient id move) =
      some { v with chats := v.chats.insert id t } := by
    simp [Relay.step, Relay.withChat, h.session, hmove]
  refine ⟨_, hvstep, ⟨h.now, h.isShutDown, by simp [Table.get?_insert], h.entry, ?_⟩, rfl, rfl⟩
  exact h.others_step (fun other hother => by simp [Move.concerns, Ne.symm hother]) hvstep

theorem Mirrors.together (h : Mirrors id w v) (hm : m.concerns id = true)
    (hids : ∀ n, w.handedOn id m = [n] → ids[v.mintedIds]? = some n)
    (hstep : w.step u m = some w') : ∃ v', Follows (u.handing ids) id m w w' v v' := by
  cases m with
  | push | publish | subscribe | subscriber | subscription => simp [Move.concerns] at hm
  | pass ms =>
    simp only [step, Option.some.injEq] at hstep
    subst hstep
    exact ⟨_, rfl, ⟨by simp [h.now], h.isShutDown, h.session, h.entry, h.others⟩, rfl, rfl⟩
  | shutDown =>
    simp only [step, Option.some.injEq] at hstep
    subst hstep
    refine ⟨_, rfl, ⟨h.now, rfl, ?_, h.entry, fun other hother => ?_⟩, rfl, rfl⟩
    · simp [Table.get?_mapValues, h.session]
    · simp [Table.get?_mapValues, h.others other hother]
  | converse id' inboundCapacity outboundCapacity =>
    obtain rfl : id' = id := by simpa [Move.concerns] using hm
    exact h.converse hstep
  | chatClient id' move =>
    obtain rfl : id' = id := by simpa [Move.concerns] using hm
    exact h.withChat hstep
  | chat id' loop interference =>
    obtain rfl : id' = id := by simpa [Move.concerns] using hm
    exact h.goChat hids hstep

/-- Along a run, the relay with the session alone takes the moves that happen to the session. -/
theorem Mirrors.run (ids : List Nat) {moves : List Move} (h : Mirrors id w v)
    (hrun : w.run u moves = some w') (hids : ids.drop v.mintedIds = w.handed u id moves) :
    ∃ v', v.run (u.handing ids) (alone id moves) = some v' ∧ Mirrors id w' v' ∧
      chatDeeds id (v.chronicle (u.handing ids) (alone id moves)) =
        chatDeeds id (w.chronicle u moves) := by
  -- What is left of the identities is what the rest of the run hands to the session.
  induction moves generalizing w v with
  | nil =>
    simp only [Relay.run, Option.some.injEq] at hrun
    subst hrun
    exact ⟨v, rfl, h, rfl⟩
  | cons m rest ih =>
    simp only [Relay.run, Option.bind_eq_some_iff] at hrun
    obtain ⟨w₁, hstep, hrest⟩ := hrun
    simp only [handed, hstep] at hids
    simp only [chronicle, hstep, chatDeeds_append]
    cases hm : m.concerns id with
    | false =>
      obtain ⟨v', hrun', hv', hdeeds⟩ := ih (h.aside hm hstep) hrest
        (by rw [hids, handedOn_of_unconcerned hm, List.nil_append])
      rw [alone_cons_of_unconcerned hm, chatDeeds_of_unconcerned hm, List.nil_append]
      exact ⟨v', hrun', hv', hdeeds⟩
    | true =>
      -- Of the identities that are left, this move hands out the first.
      have hnext : ∀ n, w.handedOn id m = [n] → ids[v.mintedIds]? = some n := by
        intro n hn
        rw [← Nat.add_zero v.mintedIds, ← List.getElem?_drop, hids, hn]
        rfl
      obtain ⟨v₁, hv₁⟩ := h.together hm hnext hstep
      obtain ⟨v', hrun', hv', hdeeds⟩ := ih hv₁.mirrors hrest
        (by rw [hv₁.mintedIds, ← List.drop_drop, hids, List.drop_left])
      rw [alone_cons_of_concerned hm]
      refine ⟨v', by simpa [Relay.run, hv₁.step] using hrun', hv', ?_⟩
      simp only [chronicle, hv₁.step, chatDeeds_append, hv₁.deeds, hdeeds]

-- ---------------------------------------------------------------------------
-- A session of a run takes a course
-- ---------------------------------------------------------------------------

theorem occurs_of_step {s : Chat.Session} (hs : w.chats.get? id = some s)
    (h : w.step u m = some w') :
    (w'.chats.get? id = some s ∧ chatDeeds id (w.deeds m w') = []) ∨
      ∃ o new t, (Chat.Session.machine u.chat u.supply id).occur s o = some (new, t) ∧
        w'.chats.get? id = some t ∧
        new.filterMap Chat.Act.deed? = chatDeeds id (w.deeds m w') := by
  cases hm : m.concerns id with
  | false => exact .inl ⟨(unconcerned hm h).session.trans hs, chatDeeds_of_unconcerned hm⟩
  | true =>
    cases m with
    | push | publish | subscribe | subscriber | subscription => simp [Move.concerns] at hm
    | pass ms =>
      simp only [step, Option.some.injEq] at h
      subst h
      exact .inl ⟨hs, rfl⟩
    | shutDown =>
      simp only [step, Option.some.injEq] at h
      subst h
      refine .inr ⟨.outside .cancel, [], { s with isCancelled := true }, rfl, ?_, rfl⟩
      simp [Table.get?_mapValues, hs]
    | converse id' inboundCapacity outboundCapacity =>
      obtain rfl : id' = id := by simpa [Move.concerns] using hm
      simp [step, Relay.converse, hs] at h
    | chatClient id' move =>
      obtain rfl : id' = id := by simpa [Move.concerns] using hm
      simp only [step, Relay.withChat, hs, Option.bind_some, Option.map_eq_some_iff] at h
      obtain ⟨t, hmove, rfl⟩ := h
      refine .inr ⟨.outside move, [], t, Chat.Session.occur_outside.mpr ⟨hmove, rfl⟩, ?_, rfl⟩
      simp [Table.get?_insert]
    | chat id' loop interference =>
      obtain rfl : id' = id := by simpa [Move.concerns] using hm
      obtain ⟨s', t, hs', hgo, rfl⟩ := goChat_eq_some.mp h
      obtain rfl : s' = s := Option.some.inj (hs'.symm.trans hs)
      refine .inr ⟨.turn loop w.mintedIds w.now _, _, t,
        Chat.Session.occur_turn.mpr ⟨hgo, rfl⟩, by simp [Table.get?_insert], ?_⟩
      simp [deeds, hs, Table.get?_insert, Chat.Session.deeds_eq, Chat.Session.acts,
        List.filterMap_map, Function.comp_def, Chat.Act.deed?]

/-- A session of a run takes a course, and does on it what the run says of the session. -/
theorem exists_course {moves : List Move} (hrun : (Relay.started u).run u moves = some w)
    {s : Chat.Session} (hs : w.chats.get? id = some s) :
    ∃ inbound outbound isCancelled begun os acts,
      (Chat.Session.machine u.chat u.supply id).course
        (.started u.chat inbound outbound isCancelled begun) os = some (acts, s) ∧
      acts.filterMap Chat.Act.deed? = chatPast u moves id := by
  refine (chronicle_induction (P := fun past w =>
    (w.chats.get? id = none → chatDeeds id past = []) ∧
    ∀ s, w.chats.get? id = some s → ∃ inbound outbound isCancelled begun os acts,
      (Chat.Session.machine u.chat u.supply id).course
        (.started u.chat inbound outbound isCancelled begun) os = some (acts, s) ∧
      acts.filterMap Chat.Act.deed? = chatDeeds id past)
    ⟨fun _ => rfl, by simp [Relay.started]⟩ ?_ hrun).2 s hs
  rintro past w m w' - ⟨hnone, hsome⟩ hstep
  rw [chatDeeds_append]
  cases hs : w.chats.get? id with
  | none =>
    have hcs := chat_step id hstep
    generalize chatDeeds id (w.deeds m w') = new at hcs ⊢
    cases hcs with
    | absent _ ht => simp [ht, hnone hs]
    | started _ ht =>
      simp only [ht, reduceCtorEq, false_implies, Option.some.injEq, true_and, hnone hs]
      rintro _ rfl
      exact ⟨_, _, _, _, [], [], rfl, rfl⟩
    | outside hs' | turn hs' => simp [hs] at hs'
  | some s =>
    obtain ⟨inbound, outbound, isCancelled, begun, os, acts, hcourse, hacts⟩ := hsome s hs
    obtain ⟨ht, hdeeds⟩ | ⟨o, new, t, ho, ht, hdeeds⟩ := occurs_of_step hs hstep
    · simp only [ht, reduceCtorEq, false_implies, Option.some.injEq, true_and, hdeeds]
      rintro _ rfl
      exact ⟨_, _, _, _, os, acts, hcourse, by simpa using hacts⟩
    · simp only [ht, reduceCtorEq, false_implies, Option.some.injEq, true_and, ← hdeeds]
      rintro _ rfl
      exact ⟨_, _, _, _, os ++ [o], acts ++ new,
        Machine.course_append_single.mpr ⟨acts, s, new, hcourse, ho, rfl⟩, by simp [hacts]⟩

-- ---------------------------------------------------------------------------
-- Behind the clearing
-- ---------------------------------------------------------------------------

theorem stored?_of_outside (hm : ∀ loop interference, m ≠ .chat id loop interference)
    (h : w.step u m = some w') :
    w'.queues.outbox.stored? id = w.queues.outbox.stored? id ∧
      chatDeeds id (w.deeds m w') = [] := by
  cases hc : m.concerns id with
  | false => exact ⟨(unconcerned hc h).entry, chatDeeds_of_unconcerned hc⟩
  | true =>
    cases m with
    | push | publish | subscribe | subscriber | subscription => simp [Move.concerns] at hc
    | pass | shutDown =>
      simp only [step, Option.some.injEq] at h
      subst h
      exact ⟨rfl, rfl⟩
    | converse id' inboundCapacity outboundCapacity =>
      simp only [step, Relay.converse] at h
      split at h <;> simp only [Option.some.injEq, reduceCtorEq] at h
      subst h
      exact ⟨rfl, rfl⟩
    | chatClient id' move =>
      simp only [step, Relay.withChat, Option.map_eq_some_iff] at h
      obtain ⟨t, -, rfl⟩ := h
      exact ⟨rfl, rfl⟩
    | chat id' loop interference =>
      obtain rfl : id' = id := by simpa [Move.concerns] using hc
      exact absurd rfl (hm loop interference)

theorem stored?_of_cleared {loop : Chat.Loop} {interference : Option Interference}
    (h : w.goChat u id loop interference = some w') {a : QueueAnswer}
    (hclear : .called (.clear id) (.ok a) ∈
      chatDeeds id (w.deeds (.chat id loop interference) w')) :
    w'.queues.outbox.stored? id = none ∧
      ∃ s outcome, w'.chats.get? id = some s ∧ s.phase = .closed outcome := by
  obtain ⟨s, t, hs, hgo, rfl⟩ := goChat_eq_some.mp h
  simp only [deeds, hs, Table.get?_insert, if_true, chatDeeds_map_chat] at hclear
  have hturn := Chat.turn_of_go hgo
  have hloop : loop = .closing := by
    by_contra hne
    exact hturn.clear_notMem hne _ hclear
  subst hloop
  obtain ⟨hne, -⟩ | ⟨hne, -⟩ | ⟨-, result, answer, hphase, -, rfl⟩ := hturn.taken
  · exact absurd rfl hne
  · exact absurd rfl hne
  refine ⟨?_, s.finished _, _, by rw [Table.get?_insert, if_pos rfl], rfl⟩
  have hawaits : s.awaits id .closing = some (.clear id) := by
    simp [Chat.Session.awaits, hphase]
  have hanswer : (w.queues.answer interference (.clear id)).1 = .ok a := by
    simpa [Chat.Session.deeds, hawaits, eq_comm] using hclear
  simp only [hawaits, Queues.answerAny_some]
  obtain ⟨fault, hfault⟩ | ⟨a', hok⟩ := w.queues.answer_cases interference (.clear id)
  · simp [hfault] at hanswer
  · simp [hok, Queues.run]

theorem goChat_of_closed {s : Chat.Session} {outcome : Except Status Unit} {loop : Chat.Loop}
    {interference : Option Interference} (hs : w.chats.get? id = some s)
    (hphase : s.phase = .closed outcome) : w.goChat u id loop interference = none := by
  cases loop <;> simp [Relay.goChat, hs, Chat.Session.go, hphase]

theorem stored?_behind_clear {moves : List Move} (hrun : (Relay.started u).run u moves = some w)
    {a : QueueAnswer} (hclear : .called (.clear id) (.ok a) ∈ chatPast u moves id) :
    w.queues.outbox.stored? id = none := by
  refine (chronicle_induction (P := fun past w =>
    .called (.clear id) (.ok a) ∈ chatDeeds id past → w.queues.outbox.stored? id = none ∧
      ∃ s outcome, w.chats.get? id = some s ∧ s.phase = .closed outcome) (by simp) ?_ hrun hclear).1
  intro past w m w' _ hpast hstep hmem
  rw [chatDeeds_append, List.mem_append] at hmem
  by_cases hm : ∃ loop interference, m = .chat id loop interference
  · obtain ⟨loop, interference, rfl⟩ := hm
    refine hmem.elim (fun hold => ?_) fun hnew => stored?_of_cleared hstep hnew
    obtain ⟨-, s, outcome, hs, hphase⟩ := hpast hold
    exact absurd hstep (by simp [step, goChat_of_closed hs hphase])
  · obtain ⟨hentry, hdeeds⟩ :=
      stored?_of_outside (fun loop interference heq => hm ⟨loop, interference, heq⟩) hstep
    obtain ⟨hnone, s, outcome, hs, hphase⟩ := hpast (hmem.resolve_right (by simp [hdeeds]))
    refine ⟨hentry.trans hnone, ?_⟩
    have hcs := chat_step id hstep
    generalize chatDeeds id (w.deeds m w') = new at hcs
    cases hcs with
    | absent hs' | started hs' => simp [hs'] at hs
    | outside hs' ht hchange =>
      obtain rfl := Option.some.inj (hs'.symm.trans hs)
      exact ⟨_, outcome, ht, hchange.phase.trans hphase⟩
    | turn hs' _ hturn =>
      obtain rfl := Option.some.inj (hs'.symm.trans hs)
      exact absurd hphase hturn.not_closed

end

section
variable {u : Setup} {moves : List Move} {w : Relay}

/-- Sessions do not see each other. The moves of a run that happen to a session are a run of the
session alone, on queues that nobody else uses and with the correlation identities that it was
handed; there it does the same, is in the same state and has the same entry in the outbox. Once its
outbox has been cleared, it has no entry any more; and nothing that it does touches another session
or the entry of one. -/
theorem isolated (hrun : (Relay.started u).run u moves = some w) (id : SessionId) :
    (∃ v, (Relay.started (u.solo id moves)).run (u.solo id moves) (alone id moves) = some v ∧
      v.chats.get? id = w.chats.get? id ∧ v.now = w.now ∧
      v.queues.outbox.stored? id = w.queues.outbox.stored? id ∧
      chatPast (u.solo id moves) (alone id moves) id = chatPast u moves id ∧
      ∀ other, other ≠ id →
        v.chats.get? other = none ∧ v.queues.outbox.stored? other = none) ∧
    (∀ a, .called (.clear id) (.ok a) ∈ chatPast u moves id →
      w.queues.outbox.stored? id = none) ∧
    ∀ before loop interference after, moves = before ++ .chat id loop interference :: after →
      ∃ v v', (Relay.started u).run u before = some v ∧
        v.step u (.chat id loop interference) = some v' ∧
        ∀ other, other ≠ id → v'.chats.get? other = v.chats.get? other ∧
          v'.queues.outbox.stored? other = v.queues.outbox.stored? other := by
  refine ⟨?_, fun a ha => stored?_behind_clear hrun ha, ?_⟩
  · obtain ⟨v, hv, hmirrors, hdeeds⟩ :=
      Mirrors.run ((Relay.started u).handed u id moves)
        (Mirrors.started u (u.solo id moves) id) hrun rfl
    exact ⟨v, hv, hmirrors.session, hmirrors.now, hmirrors.entry, hdeeds, hmirrors.others⟩
  · rintro before loop interference after rfl
    simp only [run_append, Relay.run, Option.bind_eq_some_iff] at hrun
    obtain ⟨v, hv, v', hstep, -⟩ := hrun
    refine ⟨v, v', hv, hstep, fun other hother => ?_⟩
    have hm : (Move.chat id loop interference).concerns other = false := by
      simp [Move.concerns, Ne.symm hother]
    have hun := unconcerned hm hstep
    exact ⟨hun.session, hun.entry⟩

deriving instance DecidableEq for Chat.Deed

/-- Two sessions use one correlation identity, and are each handed one. One of them is cancelled
between the turns of the other and clears its outbox before the other fetches. -/
def neighbours : List Move :=
  [.converse ⟨"desk"⟩ 4 4, .converse ⟨"hall"⟩ 4 4,
    .chatClient ⟨"hall"⟩ (.send (.ok ⟨⟨"a", "two"⟩⟩)), .chat ⟨"hall"⟩ .intake none,
    .chatClient ⟨"desk"⟩ (.send (.ok ⟨⟨"a", "one"⟩⟩)), .chat ⟨"desk"⟩ .intake none,
    .chat ⟨"hall"⟩ .intake none, .chat ⟨"desk"⟩ .intake none,
    .chatClient ⟨"hall"⟩ (.send (.ok ⟨⟨"", "four"⟩⟩)), .chat ⟨"hall"⟩ .intake none,
    .chatClient ⟨"desk"⟩ (.send (.ok ⟨⟨"", "three"⟩⟩)), .chat ⟨"desk"⟩ .intake none,
    .chatClient ⟨"hall"⟩ .cancel, .chat ⟨"hall"⟩ .delivery none, .pass 1,
    .chat ⟨"hall"⟩ .closing none, .chat ⟨"desk"⟩ .delivery none,
    .chat ⟨"desk"⟩ .delivery none, .chat ⟨"desk"⟩ .delivery none, .chat ⟨"desk"⟩ .delivery none]

theorem isolated_neighbours :
    (Relay.started brisk).handed brisk ⟨"desk"⟩ neighbours = [1] ∧
    ∃ w v, (Relay.started brisk).run brisk neighbours = some w ∧
      (Relay.started (brisk.solo ⟨"desk"⟩ neighbours)).run (brisk.solo ⟨"desk"⟩ neighbours)
        (alone ⟨"desk"⟩ neighbours) = some v ∧
      v.chats.get? ⟨"desk"⟩ = w.chats.get? ⟨"desk"⟩ ∧
      v.queues.outbox.stored? ⟨"desk"⟩ = w.queues.outbox.stored? ⟨"desk"⟩ ∧
      w.queues.outbox.stored? ⟨"hall"⟩ = none := by
  have hsome : ((Relay.started brisk).run brisk neighbours).isSome = true := by decide +kernel
  obtain ⟨w, hw⟩ := Option.isSome_iff_exists.mp hsome
  obtain ⟨v, hv, hsession, -, hentry, -⟩ := (isolated hw ⟨"desk"⟩).1
  have hpast : chatPast brisk neighbours ⟨"hall"⟩ =
      [.called (.save ⟨"hall"⟩ ⟨⟨"a"⟩, "two"⟩) (.ok .done),
        .called (.clear ⟨"hall"⟩) (.ok .done)] := by
    decide +kernel
  have hcleared := (isolated hw ⟨"hall"⟩).2.1 .done (by simp [hpast])
  exact ⟨by decide +kernel, w, v, hw, hv, hsession, hentry, hcleared⟩

end

end Relay

end NoteRelay
