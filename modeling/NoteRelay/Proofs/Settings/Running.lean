import NoteRelay.Relay
import NoteRelay.Settings.Validate

/-!
# Running on settings without a flaw

Settings in which no flaw is found have a period for every ticker, an idle deadline, a limit of tries
and room in the channels. So sessions and subscriptions start on them, but for one bound that no
check looks at: there is no channel with more room than `Channel.largestCapacity` (`starts_iff`).
-/

namespace NoteRelay

-- ---------------------------------------------------------------------------
-- What the checks leave
-- ---------------------------------------------------------------------------

namespace Settings

variable {s : Settings}

theorem flaw?_eq_none_iff : s.flaw? = none ↔ ∀ c ∈ s.checks, c.1 = false := by
  simp [flaw?, List.find?_eq_none]

theorem toNat_pos_of_beq_zero {n : UInt64} (h : (n == 0) = false) : 0 < n.toNat := by
  have hne : n ≠ 0 := by simpa using h
  exact UInt64.lt_iff_toNat_lt.mp (UInt64.pos_iff_ne_zero.mpr hne)

structure AllPositive (s : Settings) : Prop where
  tick : 0 < s.chat.tick.toNat
  idleDeadline : 0 < s.chat.idleDeadline.toNat
  channelCapacity : 0 < s.chat.channelCapacity.toNat
  pollInterval : 0 < s.notifier.pollInterval.toNat
  triesLimit : 0 < s.notifier.triesLimit.toNat

theorem allPositive_of_flaw? (h : s.flaw? = none) : s.AllPositive := by
  have hchecks := flaw?_eq_none_iff.mp h
  have htries : s.notifier.triesLimit ≠ 0 := by
    simpa using hchecks (s.notifier.triesLimit == 0, .zeroTriesLimit) (by simp [checks])
  exact {
    tick := toNat_pos_of_beq_zero (hchecks (s.chat.tick == 0, .zeroTick) (by simp [checks]))
    idleDeadline := toNat_pos_of_beq_zero
      (hchecks (s.chat.idleDeadline == 0, .zeroIdleDeadline) (by simp [checks]))
    channelCapacity := toNat_pos_of_beq_zero
      (hchecks (s.chat.channelCapacity == 0, .zeroChannelCapacity) (by simp [checks]))
    pollInterval := toNat_pos_of_beq_zero
      (hchecks (s.notifier.pollInterval == 0, .zeroPollInterval) (by simp [checks]))
    triesLimit := UInt32.lt_iff_toNat_lt.mp (UInt32.pos_iff_ne_zero.mpr htries) }

end Settings

-- ---------------------------------------------------------------------------
-- What a start needs
-- ---------------------------------------------------------------------------

theorem Channel.isSome_withCapacity? {α : Type} (n : Nat) :
    (withCapacity? n : Option (Channel α)).isSome ↔ 0 < n ∧ n ≤ largestCapacity := by
  unfold withCapacity?
  split <;> simp_all

namespace Relay

variable {w : Relay} {u : Setup}

theorem isSome_converse {id : SessionId} (h : w.chats.get? id = none) (m n : Nat) :
    (w.step u (.converse id m n)).isSome ↔ Ticker.canStart u.chat.tick ∧
      (0 < m ∧ m ≤ Channel.largestCapacity) ∧ (0 < n ∧ n ≤ Channel.largestCapacity) := by
  rw [← Channel.isSome_withCapacity? (α := Chat.Item) m,
    ← Channel.isSome_withCapacity? (α := Chat.Response) n, step, converse, h]
  cases Ticker.canStart u.chat.tick <;>
    cases (Channel.withCapacity? m : Option (Channel Chat.Item)) <;>
      cases (Channel.withCapacity? n : Option (Channel Chat.Response)) <;> simp

theorem isSome_subscribe {key : Nat} (h : w.subscriptions.get? key = none) (user : UserId)
    (n : Nat) :
    (w.step u (.subscribe key user n)).isSome ↔
      Ticker.canStart u.notify.poll ∧ 0 < n ∧ n ≤ Channel.largestCapacity := by
  rw [← Channel.isSome_withCapacity? (α := Notify.Frame) n, step, subscribe, h]
  cases Ticker.canStart u.notify.poll <;>
    cases (Channel.withCapacity? n : Option (Channel Notify.Frame)) <;> simp

/-- A client connects for a chat. Both channels of its session have the capacity that is set. -/
def connectChat (w : Relay) (s : Settings) (supply : IdSupply) (id : SessionId) : Option Relay :=
  w.step (.ofSettings s supply)
    (.converse id s.chat.channelCapacity.toNat s.chat.channelCapacity.toNat)

/-- A user connects for note events. The setting for chats counts here too. -/
def connectNotes (w : Relay) (s : Settings) (supply : IdSupply) (key : Nat) (user : UserId) :
    Option Relay :=
  w.step (.ofSettings s supply) (.subscribe key user s.chat.channelCapacity.toNat)

/-- On settings without a flaw the tickers can start, and there is an idle deadline and a limit of
tries. Whatever goes on in the relay, a connection gets its session, or its subscription, exactly if
the capacity that is set is one that a channel can have. -/
theorem starts_iff {s : Settings} (h : s.flaw? = none) (supply : IdSupply) :
    (Ticker.canStart (Setup.ofSettings s supply).chat.tick = true ∧
      Ticker.canStart (Setup.ofSettings s supply).notify.poll = true ∧
      0 < (Setup.ofSettings s supply).chat.idle ∧ 0 < (Setup.ofSettings s supply).notify.tries) ∧
    (∀ (w : Relay) (id : SessionId), w.chats.get? id = none →
      ((w.connectChat s supply id).isSome ↔
        s.chat.channelCapacity.toNat ≤ Channel.largestCapacity)) ∧
    ∀ (w : Relay) (key : Nat) (user : UserId), w.subscriptions.get? key = none →
      ((w.connectNotes s supply key user).isSome ↔
        s.chat.channelCapacity.toNat ≤ Channel.largestCapacity) := by
  have hpositive := Settings.allPositive_of_flaw? h
  have htick : Ticker.canStart (Setup.ofSettings s supply).chat.tick = true :=
    decide_eq_true hpositive.tick
  have hpoll : Ticker.canStart (Setup.ofSettings s supply).notify.poll = true :=
    decide_eq_true hpositive.pollInterval
  refine ⟨⟨htick, hpoll, hpositive.idleDeadline, hpositive.triesLimit⟩, ?_, ?_⟩
  · intro w id hid
    simp [connectChat, isSome_converse hid, htick, hpositive.channelCapacity]
  · intro w key user hkey
    simp [connectNotes, isSome_subscribe hkey, hpoll, hpositive.channelCapacity]

/-- Every number is the smallest or the largest one that does. -/
def extreme : Settings where
  chat := { tick := 1, idleDeadline := 0xffffffffffffffff, channelCapacity := 0x1fffffffffffffff }
  notifier := { pollInterval := 0xffffffffffffffff, triesLimit := 1 }

theorem starts_iff_extreme :
    extreme.flaw? = none ∧
      ((started (.ofSettings extreme .counting)).connectChat extreme .counting ⟨"desk"⟩).isSome ∧
      ((started (.ofSettings extreme .counting)).connectNotes extreme .counting 0 ⟨1⟩).isSome := by
  have hflaw : extreme.flaw? = none := by decide +kernel
  obtain ⟨-, hchat, hnotes⟩ := starts_iff hflaw .counting
  exact ⟨hflaw, (hchat _ ⟨"desk"⟩ rfl).mpr (by decide), (hnotes _ 0 ⟨1⟩ rfl).mpr (by decide)⟩

def overfull : Settings where
  chat := { channelCapacity := 0x2000000000000000 }

/-- No flaw is found, and nobody can connect. -/
theorem stuck_without_flaw :
    overfull.flaw? = none ∧
      (started (.ofSettings overfull .counting)).connectChat overfull .counting ⟨"desk"⟩ = none ∧
      (started (.ofSettings overfull .counting)).connectNotes overfull .counting 0 ⟨1⟩ = none := by
  have hflaw : overfull.flaw? = none := by decide +kernel
  exact ⟨hflaw, rfl, rfl⟩

end Relay

end NoteRelay
