import NoteRelay.Json.Parser
import NoteRelay.Settings.Environment
import NoteRelay.Settings.Extract
import NoteRelay.Settings.Toml.Document
import NoteRelay.Settings.Validate
import NoteRelay.Settings.Yaml.Document

/-!
# Loading settings

Defaults, a file and the environment are laid over each other, in this order, and only the result
is given types and checked. The format of the file is told by the end of its name.
-/

namespace NoteRelay

def deepestJson : Nat :=
  127

/-- A JSON value as a tree. The last of several members under one key counts; `none` is text that
is not Unicode, or a number beyond the range of binary64. -/
def Tree.ofJson? : Json → Option Tree
  | .null => some .empty
  | .bool b => some (.bool b)
  | .number lexeme =>
    match Json.wholeOfLexeme? lexeme.toList with
    | some i =>
      if Tree.canHold i then some (.whole i) else real? lexeme.toList
    | none => real? lexeme.toList
  | .string s => some (.text s)
  | .array items => (itemsOfJson? items).map .list
  | .object members => (membersOfJson? members []).map .table
  | .garbled => none
where
  real? (lexeme : List Char) : Option Tree :=
    if Decimal.lexemeOverflows lexeme then none else some .otherNumber
  itemsOfJson? : List Json → Option (List Tree)
    | [] => some []
    | j :: rest => do
      let tree ← ofJson? j
      let trees ← itemsOfJson? rest
      return tree :: trees
  membersOfJson? : List (String × Json) → List (String × Tree) → Option (List (String × Tree))
    | [], read => some read
    | (key, j) :: rest, read => do
      let tree ← ofJson? j
      membersOfJson? rest (put key tree read)

inductive FileFormat where
  | json
  | toml
  | yaml
  deriving DecidableEq, Repr

namespace FileFormat

def endsWith (ending : String) (name : String) : Bool :=
  ending.toList.isSuffixOf name.toList

/-- TOML is the format of every name that says nothing else. -/
def ofName (name : String) : FileFormat :=
  if endsWith ".yml" name || endsWith ".yaml" name then yaml
  else if endsWith ".json" name then json
  else toml

/-- The tree of a file, which is a table; `none` if it cannot be read. -/
def tree? (format : FileFormat) (content : String) : Option Tree :=
  match format with
  | toml => Toml.tree? content
  | yaml => Yaml.tree? content
  | json => do
    let j ← Json.ofText? content
    if deepestJson < j.depth then none
    let tree ← Tree.ofJson? j
    match tree with
    | .table _ => return tree
    | _ => none

end FileFormat

structure SettingsFile where
  name : String
  content : String

inductive LoadError where
  | unreadable
  | mismatch (mismatch : Mismatch)
  | flaw (flaw : Settings.Flaw)
  deriving DecidableEq, Repr

namespace Settings

def optionalTree : Option String → Tree
  | some s => .text s
  | none => .empty

def defaultTree : Tree :=
  let s : Settings := {}
  .table [("tier", .text s.tier.name),
    ("server", .table [("host", .text s.server.host), ("port", .whole s.server.port.toNat)]),
    ("log", .table [("format", .text s.log.format.name), ("debug", .bool s.log.debug)]),
    ("jwt", .table [("secret", .text s.token.secret)]),
    ("storage", .table [("backend", .text s.storage.backend.name),
      ("redis_url", .text s.storage.redisUrl)]),
    ("chat", .table [("tick_interval_ms", .whole s.chat.tick.toNat),
      ("idle_deadline_ms", .whole s.chat.idleDeadline.toNat),
      ("channel_capacity", .whole s.chat.channelCapacity.toNat),
      ("simulated_failure_text", optionalTree s.chat.simulatedFailure)]),
    ("notifier", .table [("poll_interval_ms", .whole s.notifier.pollInterval.toNat),
      ("tries_limit", .whole s.notifier.triesLimit.toNat)])]

/-- The layer of a file. A file that is not there says nothing. -/
def fileTree? : Option SettingsFile → Option Tree
  | some file => (FileFormat.ofName file.name).tree? file.content
  | none => some (.table [])

def layers? (file : Option SettingsFile) (assigned : Environment.Variables) : Option Tree :=
  (fileTree? file).map fun tree =>
    (defaultTree.merge tree).merge (Environment.tree assigned)

def load (file : Option SettingsFile) (assigned : Environment.Variables) :
    Except LoadError Settings :=
  match layers? file assigned with
  | none => .error .unreadable
  | some tree =>
    match ofTree tree with
    | .error e => .error (.mismatch e)
    | .ok settings =>
      match settings.flaw? with
      | some flaw => .error (.flaw flaw)
      | none => .ok settings

end Settings

end NoteRelay
