import NoteRelay.Settings.Basic

/-!
# Valid settings

What settings have to satisfy before a relay runs on them. The checks have an order, and only the
first that fails is reported.
-/

namespace NoteRelay.Settings

inductive Flaw where
  | emptyHost
  | zeroPort
  | shortSecret
  | developmentSecret
  | emptySecret
  | missingRedisUrl
  | zeroTick
  | zeroIdleDeadline
  | zeroChannelCapacity
  | zeroPollInterval
  | zeroTriesLimit
  deriving DecidableEq, Repr

/-- The bytes that a production secret has at least. -/
def shortestSecret : Nat :=
  32

def mustBePositive (field : String) : String :=
  field ++ " must be greater than 0"

def Flaw.message : Flaw → String
  | emptyHost => "Invalid server configuration: host cannot be empty"
  | zeroPort => "Invalid server configuration: port must be greater than 0"
  | shortSecret => "Invalid JWT secret: JWT secret must be at least " ++
      Numeral.ofNat shortestSecret ++ " characters long"
  | developmentSecret => "Invalid JWT secret: Cannot use development JWT secret in production"
  | emptySecret => "Invalid JWT secret: JWT secret cannot be empty"
  | missingRedisUrl => "Invalid storage configuration: redis backend requires redis_url"
  | zeroTick => mustBePositive "chat.tick_interval_ms"
  | zeroIdleDeadline => mustBePositive "chat.idle_deadline_ms"
  | zeroChannelCapacity => mustBePositive "chat.channel_capacity"
  | zeroPollInterval => mustBePositive "notifier.poll_interval_ms"
  | zeroTriesLimit => mustBePositive "notifier.tries_limit"

def holds (part : List Char) : List Char → Bool
  | [] => part.isEmpty
  | c :: rest => part.isPrefixOf (c :: rest) || holds part rest

/-- Marks of a secret that is published with the program. -/
def isDevelopmentSecret (secret : String) : Bool :=
  holds "dev-secret".toList secret.toList || holds "not-for-production".toList secret.toList

/-- Every flaw with the condition under which it is there, in the order of the checks. -/
def checks (s : Settings) : List (Bool × Flaw) :=
  let production := s.tier.isProduction
  let secret := s.token.secret
  [(s.server.host.isEmpty, .emptyHost),
    (s.server.port == 0, .zeroPort),
    (production && decide (secret.utf8ByteSize < shortestSecret), .shortSecret),
    (production && isDevelopmentSecret secret, .developmentSecret),
    (!production && secret.isEmpty, .emptySecret),
    (s.storage.backend == .redis && s.storage.redisUrl.isEmpty, .missingRedisUrl),
    (s.chat.tick == 0, .zeroTick),
    (s.chat.idleDeadline == 0, .zeroIdleDeadline),
    (s.chat.channelCapacity == 0, .zeroChannelCapacity),
    (s.notifier.pollInterval == 0, .zeroPollInterval),
    (s.notifier.triesLimit == 0, .zeroTriesLimit)]

def flaw? (s : Settings) : Option Flaw :=
  (s.checks.find? (·.1)).map (·.2)

end NoteRelay.Settings
