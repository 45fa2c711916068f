import NoteRelay.Json.Decode

/-!
# Settings

All that can be set of a relay, in sections, with a default for every field. The JSON form has
every field; reading one, sections and fields may be left out.
-/

namespace NoteRelay

/-- The level a relay runs at. -/
inductive Tier where
  | dev
  | rc
  | prod
  | test
  deriving DecidableEq, Repr

namespace Tier

def name : Tier → String
  | dev => "dev"
  | rc => "rc"
  | prod => "prod"
  | test => "test"

def ofName? : String → Option Tier
  | "dev" => some dev
  | "rc" => some rc
  | "prod" => some prod
  | "test" => some test
  | _ => none

/-- Release candidates and production need a real secret. -/
def isProduction : Tier → Bool
  | rc => true
  | prod => true
  | _ => false

end Tier

inductive LogFormat where
  | text
  | json
  deriving DecidableEq, Repr

namespace LogFormat

def name : LogFormat → String
  | text => "text"
  | json => "json"

def ofName? : String → Option LogFormat
  | "text" => some text
  | "json" => some json
  | _ => none

end LogFormat

/-- Where queues are kept. -/
inductive Backend where
  | memory
  | redis
  deriving DecidableEq, Repr

namespace Backend

def name : Backend → String
  | memory => "memory"
  | redis => "redis"

def ofName? : String → Option Backend
  | "memory" => some memory
  | "redis" => some redis
  | _ => none

end Backend

structure ServerSettings where
  host : String := "127.0.0.1"
  port : UInt16 := 8080
  deriving DecidableEq, Repr

structure LogSettings where
  format : LogFormat := .text
  debug : Bool := false
  deriving DecidableEq, Repr

structure TokenSettings where
  secret : String := "dev-secret-key-not-for-production-use-minimum-32-chars"
  deriving DecidableEq, Repr

structure StorageSettings where
  backend : Backend := .memory
  redisUrl : String := "redis://127.0.0.1:6379"
  deriving DecidableEq, Repr

/-- Times are in milliseconds; the capacity is that of each channel of a session. -/
structure ChatSettings where
  tick : UInt64 := 1000
  idleDeadline : UInt64 := 4000
  channelCapacity : UInt64 := 32
  simulatedFailure : Option String := some "error"
  deriving DecidableEq, Repr

structure NotifierSettings where
  pollInterval : UInt64 := 500
  triesLimit : UInt32 := 10
  deriving DecidableEq, Repr

structure Settings where
  tier : Tier := .dev
  server : ServerSettings := {}
  log : LogSettings := {}
  token : TokenSettings := {}
  storage : StorageSettings := {}
  chat : ChatSettings := {}
  notifier : NotifierSettings := {}
  deriving DecidableEq, Repr

namespace ServerSettings

def fields : List String := ["host", "port"]

def toJson (s : ServerSettings) : Json :=
  .object [("host", .string s.host), ("port", .ofNat s.port.toNat)]

def ofJson? (j : Json) : Option ServerSettings :=
  match j.slots? fields with
  | some [host, port] => do
    let absent : ServerSettings := {}
    let host ← fieldOr? absent.host Json.text? host
    let port ← fieldOr? absent.port Json.uint16? port
    return ⟨host, port⟩
  | _ => none

end ServerSettings

namespace LogSettings

def fields : List String := ["format", "debug"]

def toJson (s : LogSettings) : Json :=
  .object [("format", .string s.format.name), ("debug", .bool s.debug)]

def ofJson? (j : Json) : Option LogSettings :=
  match j.slots? fields with
  | some [format, debug] => do
    let absent : LogSettings := {}
    let format ← fieldOr? absent.format (fun j => j.bareChoice?.bind LogFormat.ofName?) format
    let debug ← fieldOr? absent.debug Json.flag? debug
    return ⟨format, debug⟩
  | _ => none

end LogSettings

namespace TokenSettings

def fields : List String := ["secret"]

def toJson (s : TokenSettings) : Json :=
  .object [("secret", .string s.secret)]

def ofJson? (j : Json) : Option TokenSettings :=
  match j.slots? fields with
  | some [secret] => do
    let absent : TokenSettings := {}
    let secret ← fieldOr? absent.secret Json.text? secret
    return ⟨secret⟩
  | _ => none

end TokenSettings

namespace StorageSettings

def fields : List String := ["backend", "redis_url"]

def toJson (s : StorageSettings) : Json :=
  .object [("backend", .string s.backend.name), ("redis_url", .string s.redisUrl)]

def ofJson? (j : Json) : Option StorageSettings :=
  match j.slots? fields with
  | some [backend, redisUrl] => do
    let absent : StorageSettings := {}
    let backend ← fieldOr? absent.backend (fun j => j.bareChoice?.bind Backend.ofName?) backend
    let redisUrl ← fieldOr? absent.redisUrl Json.text? redisUrl
    return ⟨backend, redisUrl⟩
  | _ => none

end StorageSettings

namespace ChatSettings

def fields : List String :=
  ["tick_interval_ms", "idle_deadline_ms", "channel_capacity", "simulated_failure_text"]

def toJson (s : ChatSettings) : Json :=
  .object [("tick_interval_ms", .ofNat s.tick.toNat),
    ("idle_deadline_ms", .ofNat s.idleDeadline.toNat),
    ("channel_capacity", .ofNat s.channelCapacity.toNat),
    ("simulated_failure_text", (s.simulatedFailure.map Json.string).getD .null)]

def ofJson? (j : Json) : Option ChatSettings :=
  match j.slots? fields with
  | some [tick, idleDeadline, channelCapacity, simulatedFailure] => do
    let absent : ChatSettings := {}
    let tick ← fieldOr? absent.tick Json.uint64? tick
    let idleDeadline ← fieldOr? absent.idleDeadline Json.uint64? idleDeadline
    let channelCapacity ← fieldOr? absent.channelCapacity Json.uint64? channelCapacity
    let simulatedFailure ← fieldOr? absent.simulatedFailure Json.optionalText? simulatedFailure
    return ⟨tick, idleDeadline, channelCapacity, simulatedFailure⟩
  | _ => none

end ChatSettings

namespace NotifierSettings

def fields : List String := ["poll_interval_ms", "tries_limit"]

def toJson (s : NotifierSettings) : Json :=
  .object [("poll_interval_ms", .ofNat s.pollInterval.toNat),
    ("tries_limit", .ofNat s.triesLimit.toNat)]

def ofJson? (j : Json) : Option NotifierSettings :=
  match j.slots? fields with
  | some [pollInterval, triesLimit] => do
    let absent : NotifierSettings := {}
    let pollInterval ← fieldOr? absent.pollInterval Json.uint64? pollInterval
    let triesLimit ← fieldOr? absent.triesLimit Json.uint32? triesLimit
    return ⟨pollInterval, triesLimit⟩
  | _ => none

end NotifierSettings

namespace Settings

def fields : List String :=
  ["tier", "server", "log", "jwt", "storage", "chat", "notifier"]

def toJson (s : Settings) : Json :=
  .object [("tier", .string s.tier.name), ("server", s.server.toJson), ("log", s.log.toJson),
    ("jwt", s.token.toJson), ("storage", s.storage.toJson), ("chat", s.chat.toJson),
    ("notifier", s.notifier.toJson)]

def ofJson? (j : Json) : Option Settings :=
  match j.slots? fields with
  | some [tier, server, log, token, storage, chat, notifier] => do
    let absent : Settings := {}
    let tier ← fieldOr? absent.tier (fun j => j.bareChoice?.bind Tier.ofName?) tier
    let server ← fieldOr? absent.server ServerSettings.ofJson? server
    let log ← fieldOr? absent.log LogSettings.ofJson? log
    let token ← fieldOr? absent.token TokenSettings.ofJson? token
    let storage ← fieldOr? absent.storage StorageSettings.ofJson? storage
    let chat ← fieldOr? absent.chat ChatSettings.ofJson? chat
    let notifier ← fieldOr? absent.notifier NotifierSettings.ofJson? notifier
    return ⟨tier, server, log, token, storage, chat, notifier⟩
  | _ => none

end Settings

end NoteRelay
