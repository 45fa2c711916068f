import NoteRelay.Settings.Basic
import NoteRelay.Settings.Tree

/-!
# Typing settings

Reads settings out of an untyped tree. A section is a table, or a list that holds its fields in
their declared order. Unknown keys say nothing; a value of a wrong type is reported with the path
to it, the first one in the order of the keys (of the positions, in a list).
-/

namespace NoteRelay

/-- How a value fails to be what a setting wants. -/
inductive MismatchKind where
  | invalidType
  | invalidValue
  | unknownVariant
  deriving DecidableEq, Repr

structure Mismatch where
  kind : MismatchKind
  path : List String
  deriving DecidableEq, Repr

namespace Tree

def mismatch {α : Type} (kind : MismatchKind) : Except Mismatch α :=
  .error ⟨kind, []⟩

def within {α : Type} (key : String) (reading : Except Mismatch α) : Except Mismatch α :=
  reading.mapError fun e => { e with path := key :: e.path }

def toText : Tree → Except Mismatch String
  | text s => .ok s
  | char c => .ok (String.singleton c)
  | _ => mismatch .invalidType

def toOptionalText : Tree → Except Mismatch (Option String)
  | empty => .ok none
  | tree => tree.toText.map some

def toFlag : Tree → Except Mismatch Bool
  | bool b => .ok b
  | _ => mismatch .invalidType

/-- A whole number from zero up to a limit. -/
def toNatBelow (limit : Nat) : Tree → Except Mismatch Nat
  | whole i => if 0 ≤ i ∧ i < limit then .ok i.toNat else mismatch .invalidValue
  | _ => mismatch .invalidType

def toUInt64 (tree : Tree) : Except Mismatch UInt64 :=
  (tree.toNatBelow UInt64.size).map UInt64.ofNat

def toUInt32 (tree : Tree) : Except Mismatch UInt32 :=
  (tree.toNatBelow UInt32.size).map UInt32.ofNat

def toUInt16 (tree : Tree) : Except Mismatch UInt16 :=
  (tree.toNatBelow UInt16.size).map UInt16.ofNat

def sorted (entries : List (String × Tree)) : List (String × Tree) :=
  entries.mergeSort fun a b => !decide (b.1 < a.1)

/-- A choice by its name: a text, or a table that says nothing of its first key. -/
def toChoice {α : Type} (ofName? : String → Option α) : Tree → Except Mismatch α
  | text name =>
    match ofName? name with
    | some a => .ok a
    | none => mismatch .unknownVariant
  | table entries =>
    match sorted entries with
    | (name, content) :: _ =>
      match ofName? name, content with
      | none, _ => mismatch .unknownVariant
      | some a, empty => .ok a
      | some _, _ => within name (mismatch .invalidType)
    | [] => mismatch .invalidType
  | _ => mismatch .invalidType

/-- A section, read by setting its fields one after another. -/
def toSection {α : Type} (absent : α) (fields : List String)
    (set : α → String → Tree → Except Mismatch α) : Tree → Except Mismatch α
  | table entries =>
    (sorted entries).foldlM (fun s (key, tree) => within key (set s key tree)) absent
  | list items =>
    (fields.zip items).zipIdx.foldlM
      (fun s ((key, tree), i) => within (Numeral.ofNat i) (set s key tree)) absent
  | _ => mismatch .invalidType

end Tree

def ServerSettings.set (s : ServerSettings) (key : String) (tree : Tree) :
    Except Mismatch ServerSettings :=
  match key with
  | "host" => tree.toText.map fun host => { s with host }
  | "port" => tree.toUInt16.map fun port => { s with port }
  | _ => .ok s

def LogSettings.set (s : LogSettings) (key : String) (tree : Tree) :
    Except Mismatch LogSettings :=
  match key with
  | "format" => (tree.toChoice LogFormat.ofName?).map fun format => { s with format }
  | "debug" => tree.toFlag.map fun debug => { s with debug }
  | _ => .ok s

def TokenSettings.set (s : TokenSettings) (key : String) (tree : Tree) :
    Except Mismatch TokenSettings :=
  match key with
  | "secret" => tree.toText.map fun secret => { s with secret }
  | _ => .ok s

def StorageSettings.set (s : StorageSettings) (key : String) (tree : Tree) :
    Except Mismatch StorageSettings :=
  match key with
  | "backend" => (tree.toChoice Backend.ofName?).map fun backend => { s with backend }
  | "redis_url" => tree.toText.map fun redisUrl => { s with redisUrl }
  | _ => .ok s

def ChatSettings.set (s : ChatSettings) (key : String) (tree : Tree) :
    Except Mismatch ChatSettings :=
  match key with
  | "tick_interval_ms" => tree.toUInt64.map fun tick => { s with tick }
  | "idle_deadline_ms" => tree.toUInt64.map fun idleDeadline => { s with idleDeadline }
  | "channel_capacity" => tree.toUInt64.map fun channelCapacity => { s with channelCapacity }
  | "simulated_failure_text" =>
    tree.toOptionalText.map fun simulatedFailure => { s with simulatedFailure }
  | _ => .ok s

def NotifierSettings.set (s : NotifierSettings) (key : String) (tree : Tree) :
    Except Mismatch NotifierSettings :=
  match key with
  | "poll_interval_ms" => tree.toUInt64.map fun pollInterval => { s with pollInterval }
  | "tries_limit" => tree.toUInt32.map fun triesLimit => { s with triesLimit }
  | _ => .ok s

def Settings.set (s : Settings) (key : String) (tree : Tree) : Except Mismatch Settings :=
  match key with
  | "tier" => (tree.toChoice Tier.ofName?).map fun tier => { s with tier }
  | "server" => (tree.toSection {} ServerSettings.fields ServerSettings.set).map fun server =>
      { s with server }
  | "log" => (tree.toSection {} LogSettings.fields LogSettings.set).map fun log =>
      { s with log }
  | "jwt" => (tree.toSection {} TokenSettings.fields TokenSettings.set).map fun token =>
      { s with token }
  | "storage" => (tree.toSection {} StorageSettings.fields StorageSettings.set).map fun storage =>
      { s with storage }
  | "chat" => (tree.toSection {} ChatSettings.fields ChatSettings.set).map fun chat =>
      { s with chat }
  | "notifier" => (tree.toSection {} NotifierSettings.fields NotifierSettings.set).map
      fun notifier => { s with notifier }
  | _ => .ok s

/-- Settings out of a tree; what the tree does not say has its default. -/
def Settings.ofTree (tree : Tree) : Except Mismatch Settings :=
  tree.toSection {} Settings.fields Settings.set

end NoteRelay
