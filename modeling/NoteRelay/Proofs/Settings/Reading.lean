import Mathlib.Data.List.Sort
import NoteRelay.Proofs.Settings.Layers
import NoteRelay.Settings.Extract

/-!
# Reading settings field by field

A section that is a table is read one known field after another, in the order of their names, and
nothing else in it matters (`Tree.toSection_table`). So settings are read out of a tree that has all
fields if and only if each field is read out of what stands at its path (`Settings.ofTree_eq_ok_iff`).
-/

namespace NoteRelay

namespace Tree

section

variable {ε α β : Type} {a : α} {b : β} {x : Except ε α}

@[simp] theorem map_eq_ok_iff {f : α → β} : x.map f = .ok b ↔ ∃ a, x = .ok a ∧ f a = b := by
  cases x <;> simp [Except.map]

@[simp] theorem bind_eq_ok_iff {f : α → Except ε β} :
    x >>= f = .ok b ↔ ∃ a, x = .ok a ∧ f a = .ok b := by
  cases x <;> simp [bind, Except.bind]

@[simp] theorem within_eq_ok_iff {key : String} {reading : Except Mismatch α} :
    within key reading = .ok a ↔ reading = .ok a := by
  cases reading <;> simp [within, Except.mapError]

end

-- ---------------------------------------------------------------------------
-- The order of the keys
-- ---------------------------------------------------------------------------

variable {entries : List (String × Tree)} {known : List String}

theorem sorted_perm (entries : List (String × Tree)) : (sorted entries).Perm entries :=
  List.mergeSort_perm entries _

theorem pairwise_sorted (h : (entries.map Prod.fst).Nodup) :
    (sorted entries).Pairwise fun a b => a.1 < b.1 := by
  have hle : (sorted entries).Pairwise fun a b => ¬ b.1 < a.1 := by
    have hsorted : (sorted entries).Pairwise fun a b => !decide (b.1 < a.1) := by
      refine List.pairwise_mergeSort (fun a b c hab hbc => ?_) (fun a b => ?_) entries
      · simp only [Bool.not_eq_true', decide_eq_false_iff_not, String.not_lt] at hab hbc ⊢
        exact String.le_trans hab hbc
      · simp only [Bool.or_eq_true, Bool.not_eq_true', decide_eq_false_iff_not, String.not_lt]
        exact String.le_total a.1 b.1
    exact hsorted.imp fun h => by simpa using h
  have hne : ((sorted entries).map Prod.fst).Nodup :=
    ((sorted_perm entries).map Prod.fst).nodup_iff.mpr h
  refine hle.imp₂ (fun a b hab hne => String.not_le.mp fun hba => hne ?_) (List.pairwise_map.mp hne)
  exact String.le_antisymm (String.not_lt.mp hab) hba

/-- The entries under some keys, in the order of these. -/
def picked (entries : List (String × Tree)) (known : List String) : List (String × Tree) :=
  known.filterMap fun key => (entries.lookup key).map (key, ·)

theorem mem_picked_iff (h : (entries.map Prod.fst).Nodup) (e : String × Tree) :
    e ∈ picked entries known ↔ e.1 ∈ known ∧ e ∈ entries := by
  obtain ⟨key, tree⟩ := e
  rw [mem_iff_lookup h]
  simp only [picked, List.mem_filterMap, Option.map_eq_some_iff, Prod.mk.injEq]
  constructor
  · rintro ⟨k, hk, t, ht, rfl, rfl⟩
    exact ⟨hk, ht⟩
  · rintro ⟨hk, ht⟩
    exact ⟨key, hk, tree, ht, rfl, rfl⟩

theorem filter_sorted (hknown : known.Pairwise (· < ·)) (h : (entries.map Prod.fst).Nodup) :
    ((sorted entries).filter fun e => decide (e.1 ∈ known)) = picked entries known := by
  have hpicked : (picked entries known).Pairwise fun a b => a.1 < b.1 := by
    refine hknown.filterMap _ fun a b hlt e he e' he' => ?_
    obtain ⟨t, -, rfl⟩ := Option.map_eq_some_iff.mp he
    obtain ⟨t', -, rfl⟩ := Option.map_eq_some_iff.mp he'
    exact hlt
  have : Std.Irrefl fun a b : String × Tree => a.1 < b.1 := ⟨fun a => String.lt_irrefl a.1⟩
  have : Std.Antisymm fun a b : String × Tree => a.1 < b.1 :=
    ⟨fun a b hab hba => absurd hba (String.lt_asymm hab)⟩
  refine ((pairwise_sorted h).filter _).eq_of_mem_iff hpicked fun e => ?_
  rw [mem_picked_iff h, List.mem_filter, (sorted_perm entries).mem_iff, decide_eq_true_eq, and_comm]

-- ---------------------------------------------------------------------------
-- Sections
-- ---------------------------------------------------------------------------

variable {σ : Type} {set : σ → String → Tree → Except Mismatch σ} {fields : List String}
  {absent : σ}

/-- Reads one field of a section, if the section has it. -/
def visit (set : σ → String → Tree → Except Mismatch σ) (entries : List (String × Tree)) (s : σ)
    (key : String) : Except Mismatch σ :=
  match entries.lookup key with
  | some tree => within key (set s key tree)
  | none => .ok s

/-- What says nothing can be left out. -/
theorem foldlM_filter {α : Type} {f : σ → α → Except Mismatch σ} {p : α → Bool}
    (h : ∀ s a, p a = false → f s a = .ok s) (s : σ) (l : List α) :
    l.foldlM f s = (l.filter p).foldlM f s := by
  induction l generalizing s with
  | nil => rfl
  | cons a rest ih =>
    cases hp : p a with
    | false =>
      rw [List.filter_cons_of_neg (by simp [hp]), List.foldlM_cons, h s a hp]
      exact ih s
    | true =>
      rw [List.filter_cons_of_pos hp, List.foldlM_cons, List.foldlM_cons]
      exact congrArg _ (funext fun s => ih s)

theorem foldlM_picked (s : σ) :
    (picked entries known).foldlM (fun s (key, tree) => within key (set s key tree)) s =
      known.foldlM (visit set entries) s := by
  induction known generalizing s with
  | nil => rfl
  | cons key rest ih =>
    rw [List.foldlM_cons, visit, picked, List.filterMap_cons]
    cases entries.lookup key with
    | none => exact ih s
    | some tree =>
      rw [Option.map_some, List.foldlM_cons]
      exact congrArg _ (funext fun s => ih s)

theorem toSection_table (hknown : known.Pairwise (· < ·))
    (hunknown : ∀ s key tree, key ∉ known → set s key tree = .ok s)
    (h : (entries.map Prod.fst).Nodup) :
    (table entries).toSection absent fields set = known.foldlM (visit set entries) absent := by
  rw [← foldlM_picked, ← filter_sorted hknown h, toSection]
  refine foldlM_filter (fun s e hno => ?_) absent (sorted entries)
  simp only [decide_eq_false_iff_not] at hno
  obtain ⟨key, tree⟩ := e
  dsimp only
  rw [hunknown s key tree hno]
  rfl

end Tree

-- ---------------------------------------------------------------------------
-- Numbers
-- ---------------------------------------------------------------------------

namespace Tree

theorem toNatBelow_whole {n limit : Nat} (h : n < limit) :
    (whole n).toNatBelow limit = .ok n := by
  rw [toNatBelow, if_pos ⟨Int.natCast_nonneg n, by exact_mod_cast h⟩, Int.toNat_natCast]

theorem toUInt64_whole (n : UInt64) : (whole n.toNat).toUInt64 = .ok n := by
  rw [toUInt64, toNatBelow_whole n.toNat_lt, Except.map, UInt64.ofNat_toNat]

theorem toUInt32_whole (n : UInt32) : (whole n.toNat).toUInt32 = .ok n := by
  rw [toUInt32, toNatBelow_whole n.toNat_lt, Except.map, UInt32.ofNat_toNat]

theorem toUInt16_whole (n : UInt16) : (whole n.toNat).toUInt16 = .ok n := by
  rw [toUInt16, toNatBelow_whole n.toNat_lt, Except.map, UInt16.ofNat_toNat]

end Tree

-- ---------------------------------------------------------------------------
-- The sections there are
-- ---------------------------------------------------------------------------

section

variable {entries : List (String × Tree)} (h : (entries.map Prod.fst).Nodup)

include h

open NoteRelay.Tree (toSection_table visit)

theorem ServerSettings.ofTable_eq_ok_iff {host port : Tree}
    (hhost : entries.lookup "host" = some host) (hport : entries.lookup "port" = some port)
    (s : ServerSettings) :
    (Tree.table entries).toSection {} fields set = .ok s ↔
      host.toText = .ok s.host ∧ port.toUInt16 = .ok s.port := by
  have hunknown : ∀ (s : ServerSettings) key tree, key ∉ ["host", "port"] →
      set s key tree = .ok s := by
    intro s key tree hno
    unfold set
    split <;> simp_all
  cases s
  rw [toSection_table (by decide) hunknown h]
  simp [visit, set, hhost, hport]

theorem LogSettings.ofTable_eq_ok_iff {debug format : Tree}
    (hdebug : entries.lookup "debug" = some debug)
    (hformat : entries.lookup "format" = some format) (s : LogSettings) :
    (Tree.table entries).toSection {} fields set = .ok s ↔
      debug.toFlag = .ok s.debug ∧ format.toChoice LogFormat.ofName? = .ok s.format := by
  have hunknown : ∀ (s : LogSettings) key tree, key ∉ ["debug", "format"] →
      set s key tree = .ok s := by
    intro s key tree hno
    unfold set
    split <;> simp_all
  cases s
  rw [toSection_table (by decide) hunknown h]
  simp [visit, set, hdebug, hformat, -Bool.exists_bool]

theorem TokenSettings.ofTable_eq_ok_iff {secret : Tree}
    (hsecret : entries.lookup "secret" = some secret) (s : TokenSettings) :
    (Tree.table entries).toSection {} fields set = .ok s ↔ secret.toText = .ok s.secret := by
  have hunknown : ∀ (s : TokenSettings) key tree, key ∉ ["secret"] → set s key tree = .ok s := by
    intro s key tree hno
    unfold set
    split <;> simp_all
  cases s
  rw [toSection_table (by decide) hunknown h]
  simp [visit, set, hsecret]

theorem StorageSettings.ofTable_eq_ok_iff {backend redisUrl : Tree}
    (hbackend : entries.lookup "backend" = some backend)
    (hredisUrl : entries.lookup "redis_url" = some redisUrl) (s : StorageSettings) :
    (Tree.table entries).toSection {} fields set = .ok s ↔
      backend.toChoice Backend.ofName? = .ok s.backend ∧ redisUrl.toText = .ok s.redisUrl := by
  have hunknown : ∀ (s : StorageSettings) key tree, key ∉ ["backend", "redis_url"] →
      set s key tree = .ok s := by
    intro s key tree hno
    unfold set
    split <;> simp_all
  cases s
  rw [toSection_table (by decide) hunknown h]
  simp [visit, set, hbackend, hredisUrl]

theorem ChatSettings.ofTable_eq_ok_iff {capacity idle failure tick : Tree}
    (hcapacity : entries.lookup "channel_capacity" = some capacity)
    (hidle : entries.lookup "idle_deadline_ms" = some idle)
    (hfailure : entries.lookup "simulated_failure_text" = some failure)
    (htick : entries.lookup "tick_interval_ms" = some tick) (s : ChatSettings) :
    (Tree.table entries).toSection {} fields set = .ok s ↔
      capacity.toUInt64 = .ok s.channelCapacity ∧ idle.toUInt64 = .ok s.idleDeadline ∧
        failure.toOptionalText = .ok s.simulatedFailure ∧ tick.toUInt64 = .ok s.tick := by
  have hunknown : ∀ (s : ChatSettings) key tree,
      key ∉ ["channel_capacity", "idle_deadline_ms", "simulated_failure_text", "tick_interval_ms"] →
      set s key tree = .ok s := by
    intro s key tree hno
    unfold set
    split <;> simp_all
  cases s
  rw [toSection_table (by decide) hunknown h]
  simp [visit, set, hcapacity, hidle, hfailure, htick]

theorem NotifierSettings.ofTable_eq_ok_iff {poll tries : Tree}
    (hpoll : entries.lookup "poll_interval_ms" = some poll)
    (htries : entries.lookup "tries_limit" = some tries) (s : NotifierSettings) :
    (Tree.table entries).toSection {} fields set = .ok s ↔
      poll.toUInt64 = .ok s.pollInterval ∧ tries.toUInt32 = .ok s.triesLimit := by
  have hunknown : ∀ (s : NotifierSettings) key tree,
      key ∉ ["poll_interval_ms", "tries_limit"] → set s key tree = .ok s := by
    intro s key tree hno
    unfold set
    split <;> simp_all
  cases s
  rw [toSection_table (by decide) hunknown h]
  simp [visit, set, hpoll, htries]

/-- The sections are read in the order of their names, and the tier last. -/
theorem Settings.ofTable_eq_ok_iff {chat jwt log notifier server storage tier : Tree}
    (hchat : entries.lookup "chat" = some chat) (hjwt : entries.lookup "jwt" = some jwt)
    (hlog : entries.lookup "log" = some log)
    (hnotifier : entries.lookup "notifier" = some notifier)
    (hserver : entries.lookup "server" = some server)
    (hstorage : entries.lookup "storage" = some storage)
    (htier : entries.lookup "tier" = some tier) (s : Settings) :
    ofTree (.table entries) = .ok s ↔
      chat.toSection {} ChatSettings.fields ChatSettings.set = .ok s.chat ∧
        jwt.toSection {} TokenSettings.fields TokenSettings.set = .ok s.token ∧
        log.toSection {} LogSettings.fields LogSettings.set = .ok s.log ∧
        notifier.toSection {} NotifierSettings.fields NotifierSettings.set = .ok s.notifier ∧
        server.toSection {} ServerSettings.fields ServerSettings.set = .ok s.server ∧
        storage.toSection {} StorageSettings.fields StorageSettings.set = .ok s.storage ∧
        tier.toChoice Tier.ofName? = .ok s.tier := by
  have hunknown : ∀ (s : Settings) key tree,
      key ∉ ["chat", "jwt", "log", "notifier", "server", "storage", "tier"] →
      set s key tree = .ok s := by
    intro s key tree hno
    unfold set
    split <;> simp_all
  cases s
  rw [ofTree, toSection_table (by decide) hunknown h]
  simp [visit, set, hchat, hjwt, hlog, hnotifier, hserver, hstorage, htier]

end

-- ---------------------------------------------------------------------------
-- The fields there are
-- ---------------------------------------------------------------------------

namespace Settings

/-- A field of the settings that is no section. -/
inductive Leaf where
  | tier
  | host
  | port
  | format
  | debug
  | secret
  | backend
  | redisUrl
  | tick
  | idleDeadline
  | channelCapacity
  | simulatedFailure
  | pollInterval
  | triesLimit
  deriving DecidableEq

namespace Leaf

def path : Leaf → List String
  | tier => ["tier"]
  | host => ["server", "host"]
  | port => ["server", "port"]
  | format => ["log", "format"]
  | debug => ["log", "debug"]
  | secret => ["jwt", "secret"]
  | backend => ["storage", "backend"]
  | redisUrl => ["storage", "redis_url"]
  | tick => ["chat", "tick_interval_ms"]
  | idleDeadline => ["chat", "idle_deadline_ms"]
  | channelCapacity => ["chat", "channel_capacity"]
  | simulatedFailure => ["chat", "simulated_failure_text"]
  | pollInterval => ["notifier", "poll_interval_ms"]
  | triesLimit => ["notifier", "tries_limit"]

def Value : Leaf → Type
  | tier => Tier
  | host => String
  | port => UInt16
  | format => LogFormat
  | debug => Bool
  | secret => String
  | backend => Backend
  | redisUrl => String
  | tick => UInt64
  | idleDeadline => UInt64
  | channelCapacity => UInt64
  | simulatedFailure => Option String
  | pollInterval => UInt64
  | triesLimit => UInt32

def get : (field : Leaf) → Settings → field.Value
  | tier, s => s.tier
  | host, s => s.server.host
  | port, s => s.server.port
  | format, s => s.log.format
  | debug, s => s.log.debug
  | secret, s => s.token.secret
  | backend, s => s.storage.backend
  | redisUrl, s => s.storage.redisUrl
  | tick, s => s.chat.tick
  | idleDeadline, s => s.chat.idleDeadline
  | channelCapacity, s => s.chat.channelCapacity
  | simulatedFailure, s => s.chat.simulatedFailure
  | pollInterval, s => s.notifier.pollInterval
  | triesLimit, s => s.notifier.triesLimit

/-- The value of a field that a tree stands for. -/
def read : (field : Leaf) → Tree → Except Mismatch field.Value
  | tier => Tree.toChoice Tier.ofName?
  | host => Tree.toText
  | port => Tree.toUInt16
  | format => Tree.toChoice LogFormat.ofName?
  | debug => Tree.toFlag
  | secret => Tree.toText
  | backend => Tree.toChoice Backend.ofName?
  | redisUrl => Tree.toText
  | tick => Tree.toUInt64
  | idleDeadline => Tree.toUInt64
  | channelCapacity => Tree.toUInt64
  | simulatedFailure => Tree.toOptionalText
  | pollInterval => Tree.toUInt64
  | triesLimit => Tree.toUInt32

/-- The sections. -/
def sections : List String :=
  ["server", "log", "jwt", "storage", "chat", "notifier"]

theorem path_cases (field : Leaf) :
    (∃ key, field.path = [key]) ∨ ∃ name ∈ sections, ∃ key, field.path = [name, key] := by
  cases field <;> simp [path, sections]

end Leaf

variable {entries es : List (String × Tree)} {name key : String} {leaf : Tree}

theorem exists_section (hopens : (Tree.table entries).Opens [name, key])
    (hat : (Tree.table entries).at? [name, key] = some leaf) :
    ∃ es, entries.lookup name = some (.table es) ∧ (es.map Prod.fst).Nodup ∧
      es.lookup key = some leaf := by
  obtain ⟨-, hsection⟩ := hopens
  rw [Tree.at?_cons_table, Option.bind_eq_some_iff] at hat
  obtain ⟨t, ht, hat⟩ := hat
  obtain ⟨es, rfl, hnodup, -⟩ := (hsection t ht).exists_table
  exact ⟨es, ht, hnodup, by simpa using hat⟩

theorem lookup_of_section (h : entries.lookup name = some (.table es))
    (hat : (Tree.table entries).at? [name, key] = some leaf) : es.lookup key = some leaf := by
  simpa [h] using hat

/-- Settings are what is read at the path of each field, if all fields are there. -/
theorem ofTree_eq_ok_iff {tree : Tree} (leaves : Leaf → Tree)
    (hopens : ∀ field : Leaf, tree.Opens field.path)
    (hat : ∀ field : Leaf, tree.at? field.path = some (leaves field)) (s : Settings) :
    ofTree tree = .ok s ↔ ∀ field : Leaf, field.read (leaves field) = .ok (field.get s) := by
  obtain ⟨entries, rfl, hnodup, -⟩ := (hopens .tier).exists_table
  have htier : entries.lookup "tier" = some (leaves .tier) := by
    simpa [Leaf.path] using hat .tier
  obtain ⟨server, hserver, hservers, hhost⟩ := exists_section (hopens .host) (hat .host)
  have hport := lookup_of_section hserver (hat .port)
  obtain ⟨log, hlog, hlogs, hformat⟩ := exists_section (hopens .format) (hat .format)
  have hdebug := lookup_of_section hlog (hat .debug)
  obtain ⟨jwt, hjwt, hjwts, hsecret⟩ := exists_section (hopens .secret) (hat .secret)
  obtain ⟨storage, hstorage, hstorages, hbackend⟩ := exists_section (hopens .backend) (hat .backend)
  have hredisUrl := lookup_of_section hstorage (hat .redisUrl)
  obtain ⟨chat, hchat, hchats, htick⟩ := exists_section (hopens .tick) (hat .tick)
  have hidle := lookup_of_section hchat (hat .idleDeadline)
  have hcapacity := lookup_of_section hchat (hat .channelCapacity)
  have hfailure := lookup_of_section hchat (hat .simulatedFailure)
  obtain ⟨notifier, hnotifier, hnotifiers, hpoll⟩ :=
    exists_section (hopens .pollInterval) (hat .pollInterval)
  have htries := lookup_of_section hnotifier (hat .triesLimit)
  rw [ofTable_eq_ok_iff hnodup hchat hjwt hlog hnotifier hserver hstorage htier,
    ChatSettings.ofTable_eq_ok_iff hchats hcapacity hidle hfailure htick,
    TokenSettings.ofTable_eq_ok_iff hjwts hsecret,
    LogSettings.ofTable_eq_ok_iff hlogs hdebug hformat,
    NotifierSettings.ofTable_eq_ok_iff hnotifiers hpoll htries,
    ServerSettings.ofTable_eq_ok_iff hservers hhost hport,
    StorageSettings.ofTable_eq_ok_iff hstorages hbackend hredisUrl]
  constructor
  · rintro ⟨⟨hcapacity, hidle, hfailure, htick⟩, hsecret, ⟨hdebug, hformat⟩, ⟨hpoll, htries⟩,
      ⟨hhost, hport⟩, ⟨hbackend, hredisUrl⟩, htier⟩ field
    cases field <;> assumption
  · intro h
    exact ⟨⟨h .channelCapacity, h .idleDeadline, h .simulatedFailure, h .tick⟩, h .secret,
      ⟨h .debug, h .format⟩, ⟨h .pollInterval, h .triesLimit⟩, ⟨h .host, h .port⟩,
      ⟨h .backend, h .redisUrl⟩, h .tier⟩

end Settings

end NoteRelay
